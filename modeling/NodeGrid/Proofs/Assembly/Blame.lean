import NodeGrid.Proofs.Assembly.Operands
import NodeGrid.Proofs.Assembly.Place

/-!
# What is wrong with a statement

The checks of a statement come in an order of their own, and each of them looks at another place.
Here a fault and its token are related to the statement as a whole: to the places that its tokens
have, to the number of operands that its mnemonic takes, and to what the operands denote.  Whatever
check fails, the token that it names is at fault in this sense.
-/

namespace NodeGrid.Assembly

/-- The operand of this form is the name of a label. -/
def Form.namesLabel : Form → Bool
  | .jump _ => true
  | .fixed _ | .jumpRelative | .binary _ | .move => false

/-- The token is what the fault says is wrong with the statement. -/
inductive Statement.Blames (statement : Statement) : Fault → Token → Prop where
  /-- The mnemonic is none that there is. -/
  | unknown (missing : Opcode.ofText? statement.mnemonic.text = none) :
      statement.Blames .unknownInstruction statement.mnemonic
  /-- The token stands in a place behind the operands that the mnemonic takes. -/
  | excess {opcode : Opcode} (place : Nat) {token : Token}
      (known : Opcode.ofText? statement.mnemonic.text = some opcode)
      (beyond : opcode.arity < place) (there : statement.place? place = some token) :
      statement.Blames (.invalidOperand .excess) token
  /-- The mnemonic takes an operand in the place behind the token, which is empty. -/
  | missing {opcode : Opcode} (place : Nat) {token : Token}
      (known : Opcode.ofText? statement.mnemonic.text = some opcode)
      (short : place < opcode.arity) (there : statement.place? place = some token)
      (gap : statement.place? (place + 1) = none) :
      statement.Blames (.invalidOperand .missing) token
  /-- The token is an operand, and neither a target nor a literal. -/
  | notTarget {opcode : Opcode} (place : Nat) {token : Token}
      (known : Opcode.ofText? statement.mnemonic.text = some opcode)
      (value : opcode.form.namesLabel = false) (behind : 0 < place)
      (within : place ≤ opcode.arity) (there : statement.place? place = some token)
      (unnamed : Target.ofText? token.text = none) (wordy : literal? token.text = none) :
      statement.Blames (.invalidOperand .notTarget) token
  /-- The token is the destination of a move, and a literal. -/
  | notWritable {opcode : Opcode} {token : Token} {value : Word}
      (known : Opcode.ofText? statement.mnemonic.text = some opcode) (moves : opcode.form = .move)
      (there : statement.place? 2 = some token) (unnamed : Target.ofText? token.text = none)
      (written : literal? token.text = some value) :
      statement.Blames (.invalidOperand .notWritable) token

/-! ## Single checks -/

theorem bind_eq_error_iff {α β ε : Type} {first : Except ε α} {next : α → Except ε β} {error : ε} :
    first >>= next = .error error ↔
      first = .error error ∨ ∃ value, first = .ok value ∧ next value = .error error := by
  cases first <;> simp [bind, Except.bind]

theorem required_eq_error_iff {previous : Token} {token : Option Token} {flaw : Flaw} :
    required previous token = .error flaw ↔
      token = none ∧ flaw = ⟨.invalidOperand .missing, previous⟩ := by
  cases token <;> simp [required, eq_comm]

theorem refused_eq_error_iff {token : Option Token} {flaw : Flaw} :
    refused token = .error flaw ↔
      ∃ found, token = some found ∧ flaw = ⟨.invalidOperand .excess, found⟩ := by
  cases token <;> simp [refused, eq_comm]

theorem Operand.ofText?_eq_none_iff {text : List Char} :
    Operand.ofText? text = none ↔ Target.ofText? text = none ∧ literal? text = none := by
  unfold Operand.ofText?
  cases Target.ofText? text <;> simp

theorem operandOf_eq_error_iff {token : Token} {flaw : Flaw} :
    operandOf token = .error flaw ↔
      Operand.ofText? token.text = none ∧ flaw = ⟨.invalidOperand .notTarget, token⟩ := by
  unfold operandOf
  cases Operand.ofText? token.text <;> simp [eq_comm]

theorem destinationOf_eq_error {token : Token} {flaw : Flaw}
    (fails : destinationOf token = .error flaw) :
    Target.ofText? token.text = none ∧
      (literal? token.text = none ∧ flaw = ⟨.invalidOperand .notTarget, token⟩ ∨
        ∃ value, literal? token.text = some value ∧
          flaw = ⟨.invalidOperand .notWritable, token⟩) := by
  unfold destinationOf at fails
  cases named : Target.ofText? token.text with
  | some target => simp [named] at fails
  | none =>
      rw [named] at fails
      cases written : literal? token.text with
      | none =>
          simp only [written, Option.isSome_none, Bool.false_eq_true, if_false] at fails
          cases fails
          exact ⟨rfl, .inl ⟨rfl, rfl⟩⟩
      | some value =>
          simp only [written, Option.isSome_some, if_true] at fails
          cases fails
          exact ⟨rfl, .inr ⟨value, rfl, rfl⟩⟩

/-! ## Whole statements -/

namespace Statement

variable {statement : Statement} {flaw : Flaw} {opcode : Opcode}

/-- A single operand is missing, or there is a second one. -/
theorem onlyOperand_eq_error (known : Opcode.ofText? statement.mnemonic.text = some opcode)
    (one : opcode.arity = 1) (fails : statement.onlyOperand = .error flaw) :
    statement.Blames flaw.fault flaw.token := by
  rcases bind_eq_error_iff.1 fails with none | ⟨token, -, rest⟩
  · obtain ⟨gap, rfl⟩ := required_eq_error_iff.1 none
    exact .missing 0 known (by simp [one]) rfl gap
  · rcases bind_eq_error_iff.1 rest with second | ⟨_, -, made⟩
    · obtain ⟨found, there, rfl⟩ := refused_eq_error_iff.1 second
      exact .excess 2 known (by simp [one]) there
    · cases made

/-- A single operand that denotes a value is missing, denotes nothing, or there is a second one. -/
theorem onlyValue_eq_error (make : Operand → Operation)
    (known : Opcode.ofText? statement.mnemonic.text = some opcode) (one : opcode.arity = 1)
    (value : opcode.form.namesLabel = false)
    (fails : (do
      let operand ← operandOf (← statement.onlyOperand)
      pure (make operand)) = .error flaw) :
    statement.Blames flaw.fault flaw.token := by
  rcases bind_eq_error_iff.1 fails with only | ⟨token, only, rest⟩
  · exact onlyOperand_eq_error known one only
  · obtain ⟨there, -⟩ := onlyOperand_eq_ok_iff.1 only
    rcases bind_eq_error_iff.1 rest with denoted | ⟨operand, -, made⟩
    · obtain ⟨nothing, rfl⟩ := operandOf_eq_error_iff.1 denoted
      obtain ⟨unnamed, wordy⟩ := Operand.ofText?_eq_none_iff.1 nothing
      exact .notTarget 1 known value Nat.one_pos one.ge there unnamed wordy
    · cases made

/-- Whatever check of a form fails, the token that it names is at fault. -/
theorem operationOfForm_eq_error (known : Opcode.ofText? statement.mnemonic.text = some opcode)
    (fails : statement.operationOfForm opcode.form = .error flaw) :
    statement.Blames flaw.fault flaw.token := by
  have arity : opcode.arity = opcode.form.arity := rfl
  cases form : opcode.form with
  | fixed instruction =>
      rw [form] at fails arity
      rcases bind_eq_error_iff.1 fails with first | ⟨_, -, made⟩
      · obtain ⟨found, there, rfl⟩ := refused_eq_error_iff.1 first
        exact .excess 1 known (by simp [arity, Form.arity]) there
      · cases made
  | jump condition =>
      rw [form] at fails arity
      rcases bind_eq_error_iff.1 fails with only | ⟨label, -, made⟩
      · exact onlyOperand_eq_error known arity only
      · cases made
  | jumpRelative =>
      rw [form] at fails arity
      have value : opcode.form.namesLabel = false := by rw [form]; rfl
      exact onlyValue_eq_error (fun offset => .instruction (.jumpRelative offset)) known
        arity value fails
  | binary op =>
      rw [form] at fails arity
      have value : opcode.form.namesLabel = false := by rw [form]; rfl
      exact onlyValue_eq_error (fun operand => .instruction (.binary op operand)) known
        arity value fails
  | move =>
      rw [form] at fails arity
      have value : opcode.form.namesLabel = false := by rw [form]; rfl
      have two : opcode.arity = 2 := arity
      rcases bind_eq_error_iff.1 fails with first | ⟨origin, first, rest⟩
      · obtain ⟨gap, rfl⟩ := required_eq_error_iff.1 first
        exact .missing 0 known (by simp [two]) rfl gap
      have atFirst := required_eq_ok_iff.1 first
      rcases bind_eq_error_iff.1 rest with second | ⟨goal, second, rest⟩
      · obtain ⟨gap, rfl⟩ := required_eq_error_iff.1 second
        exact .missing 1 known (by simp [two]) atFirst gap
      have atSecond := required_eq_ok_iff.1 second
      rcases bind_eq_error_iff.1 rest with denoted | ⟨source, -, rest⟩
      · obtain ⟨nothing, rfl⟩ := operandOf_eq_error_iff.1 denoted
        obtain ⟨unnamed, wordy⟩ := Operand.ofText?_eq_none_iff.1 nothing
        exact .notTarget 1 known value Nat.one_pos (by simp [two]) atFirst unnamed wordy
      rcases bind_eq_error_iff.1 rest with named | ⟨destination, -, made⟩
      · obtain ⟨unnamed, ⟨wordy, rfl⟩ | ⟨literal, written, rfl⟩⟩ := destinationOf_eq_error named
        · exact .notTarget 2 known value Nat.two_pos two.ge atSecond unnamed wordy
        · exact .notWritable known form atSecond unnamed written
      · cases made

/-- A statement that asks for nothing has a token that is at fault. -/
theorem operation_eq_error (fails : statement.operation = .error flaw) :
    statement.Blames flaw.fault flaw.token := by
  unfold Statement.operation at fails
  cases known : Opcode.ofText? statement.mnemonic.text with
  | none =>
      rw [known] at fails
      cases fails
      exact .unknown known
  | some opcode =>
      rw [known] at fails
      rcases bind_eq_error_iff.1 fails with left | ⟨_, -, rest⟩
      · obtain ⟨found, there, rfl⟩ := refused_eq_error_iff.1 left
        have few : opcode.arity < 3 := by
          cases form : opcode.form <;> simp [Opcode.arity, form, Form.arity]
        exact .excess 3 known few there
      · exact operationOfForm_eq_error known rest

/-- The label of a jump is its first operand. -/
theorem first_eq_of_jump {condition : Condition} {label : Token}
    (asked : statement.operation = .ok (.jump condition label)) :
    ∃ opcode, Opcode.ofText? statement.mnemonic.text = some opcode ∧
      opcode.form = .jump condition ∧ statement.first = some label := by
  obtain ⟨opcode, known, -, takes⟩ := operation_eq_ok_iff.1 asked
  refine ⟨opcode, known, ?_⟩
  generalize opcode.form = form at takes
  cases takes with
  | jump only => exact ⟨rfl, only⟩

/-- No fault of a statement is about the number of lines, and none is that a label is unknown. -/
theorem Blames.fault_ne {fault : Fault} {token : Token} (blames : statement.Blames fault token) :
    fault ≠ .tooManyLines ∧ fault ≠ .undefinedLabel := by
  cases blames <;> exact ⟨nofun, nofun⟩

/-- No fault of a statement is about the length of the line. -/
theorem Blames.fault_ne_lineTooLong {fault : Fault} {token : Token}
    (blames : statement.Blames fault token) : fault ≠ .lineTooLong := by
  cases blames <;> nofun

/-- Every token that is at fault is one of the statement. -/
theorem Blames.exists_place {fault : Fault} {token : Token}
    (blames : statement.Blames fault token) : ∃ place, statement.place? place = some token := by
  cases blames with
  | unknown => exact ⟨0, rfl⟩
  | excess _ _ _ there | missing _ _ _ there _ | notTarget _ _ _ _ _ there _ _
  | notWritable _ _ there _ _ => exact ⟨_, there⟩

end Statement

end NodeGrid.Assembly
