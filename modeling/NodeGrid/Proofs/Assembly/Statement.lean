import NodeGrid.Assembly.Compile
import NodeGrid.Proofs.Assembly.Line

/-!
# What a statement asks for

The form of a mnemonic says which places of a statement are looked at and what becomes of them.
This is stated once, as a relation with one rule for each form, and checking a statement succeeds
exactly when a rule applies.  A line asks for the operation of the statement that is read from it in
upper case; with the labels of a program an operation means one instruction.
-/

namespace NodeGrid.Assembly

open Text

/-- The operands of a statement are those of a form, and this is what they make. -/
inductive Statement.Takes (statement : Statement) : Form → Operation → Prop where
  | fixed {instruction : Instruction} (bare : statement.first = none) :
      statement.Takes (.fixed instruction) (.instruction instruction)
  | jump {condition : Condition} {label : Token} (only : statement.first = some label)
      (alone : statement.second = none) :
      statement.Takes (.jump condition) (.jump condition label)
  | jumpRelative {token : Token} {offset : Operand} (only : statement.first = some token)
      (alone : statement.second = none) (denoted : Operand.ofText? token.text = some offset) :
      statement.Takes .jumpRelative (.instruction (.jumpRelative offset))
  | binary {op : BinaryOp} {token : Token} {operand : Operand}
      (only : statement.first = some token) (alone : statement.second = none)
      (denoted : Operand.ofText? token.text = some operand) :
      statement.Takes (.binary op) (.instruction (.binary op operand))
  | move {origin goal : Token} {source : Operand} {destination : Target}
      (first : statement.first = some origin) (second : statement.second = some goal)
      (denoted : Operand.ofText? origin.text = some source)
      (named : Target.ofText? goal.text = some destination) :
      statement.Takes .move (.instruction (.move source destination))

theorem bind_eq_ok_iff {α β ε : Type} {first : Except ε α} {next : α → Except ε β} {result : β} :
    first >>= next = .ok result ↔ ∃ value, first = .ok value ∧ next value = .ok result := by
  cases first <;> simp [bind, Except.bind]

theorem required_eq_ok_iff {previous found : Token} {token : Option Token} :
    required previous token = .ok found ↔ token = some found := by
  cases token <;> simp [required]

theorem refused_eq_ok_iff {token : Option Token} : refused token = .ok () ↔ token = none := by
  cases token <;> simp [refused]

theorem operandOf_eq_ok_iff {token : Token} {operand : Operand} :
    operandOf token = .ok operand ↔ Operand.ofText? token.text = some operand := by
  unfold operandOf
  split <;> simp_all

theorem destinationOf_eq_ok_iff {token : Token} {target : Target} :
    destinationOf token = .ok target ↔ Target.ofText? token.text = some target := by
  unfold destinationOf
  split
  · simp_all
  · split <;> simp_all

namespace Statement

variable {statement : Statement} {operation : Operation}

theorem onlyOperand_eq_ok_iff {token : Token} :
    statement.onlyOperand = .ok token ↔ statement.first = some token ∧ statement.second = none := by
  rw [onlyOperand, bind_eq_ok_iff]
  constructor
  · rintro ⟨found, there, checked⟩
    obtain ⟨_, alone, same⟩ := bind_eq_ok_iff.1 checked
    cases same
    exact ⟨required_eq_ok_iff.1 there, refused_eq_ok_iff.1 alone⟩
  · rintro ⟨there, alone⟩
    exact ⟨token, required_eq_ok_iff.2 there,
      bind_eq_ok_iff.2 ⟨(), refused_eq_ok_iff.2 alone, rfl⟩⟩

/-- The checks of a form succeed exactly by its rule. -/
theorem operationOfForm_eq_ok_iff {form : Form} :
    statement.operationOfForm form = .ok operation ↔ statement.Takes form operation := by
  constructor
  · intro accepted
    cases form with
    | fixed instruction =>
        obtain ⟨_, bare, made⟩ := bind_eq_ok_iff.1 accepted
        cases made
        exact .fixed (refused_eq_ok_iff.1 bare)
    | jump condition =>
        obtain ⟨label, only, made⟩ := bind_eq_ok_iff.1 accepted
        obtain ⟨first, alone⟩ := onlyOperand_eq_ok_iff.1 only
        cases made
        exact .jump first alone
    | jumpRelative =>
        obtain ⟨token, only, rest⟩ := bind_eq_ok_iff.1 accepted
        obtain ⟨first, alone⟩ := onlyOperand_eq_ok_iff.1 only
        obtain ⟨offset, denoted, made⟩ := bind_eq_ok_iff.1 rest
        cases made
        exact .jumpRelative first alone (operandOf_eq_ok_iff.1 denoted)
    | binary op =>
        obtain ⟨token, only, rest⟩ := bind_eq_ok_iff.1 accepted
        obtain ⟨first, alone⟩ := onlyOperand_eq_ok_iff.1 only
        obtain ⟨operand, denoted, made⟩ := bind_eq_ok_iff.1 rest
        cases made
        exact .binary first alone (operandOf_eq_ok_iff.1 denoted)
    | move =>
        obtain ⟨origin, first, rest⟩ := bind_eq_ok_iff.1 accepted
        obtain ⟨goal, second, rest⟩ := bind_eq_ok_iff.1 rest
        obtain ⟨source, denoted, rest⟩ := bind_eq_ok_iff.1 rest
        obtain ⟨destination, named, made⟩ := bind_eq_ok_iff.1 rest
        cases made
        exact .move (required_eq_ok_iff.1 first) (required_eq_ok_iff.1 second)
          (operandOf_eq_ok_iff.1 denoted) (destinationOf_eq_ok_iff.1 named)
  · intro takes
    cases takes with
    | fixed bare => exact bind_eq_ok_iff.2 ⟨(), refused_eq_ok_iff.2 bare, rfl⟩
    | jump only alone => exact bind_eq_ok_iff.2 ⟨_, onlyOperand_eq_ok_iff.2 ⟨only, alone⟩, rfl⟩
    | jumpRelative only alone denoted | binary only alone denoted =>
        exact bind_eq_ok_iff.2 ⟨_, onlyOperand_eq_ok_iff.2 ⟨only, alone⟩,
          bind_eq_ok_iff.2 ⟨_, operandOf_eq_ok_iff.2 denoted, rfl⟩⟩
    | move first second denoted named =>
        exact bind_eq_ok_iff.2 ⟨_, required_eq_ok_iff.2 first,
          bind_eq_ok_iff.2 ⟨_, required_eq_ok_iff.2 second,
            bind_eq_ok_iff.2 ⟨_, operandOf_eq_ok_iff.2 denoted,
              bind_eq_ok_iff.2 ⟨_, destinationOf_eq_ok_iff.2 named, rfl⟩⟩⟩⟩

/-- A statement asks for an operation when its mnemonic is known, nothing is left over and the rule
of the mnemonic's form applies. -/
theorem operation_eq_ok_iff :
    statement.operation = .ok operation ↔
      ∃ opcode, Opcode.ofText? statement.mnemonic.text = some opcode ∧ statement.excess = none ∧
        statement.Takes opcode.form operation := by
  unfold Statement.operation
  cases Opcode.ofText? statement.mnemonic.text with
  | none => simp
  | some opcode =>
      constructor
      · intro accepted
        obtain ⟨_, all_read, formed⟩ := bind_eq_ok_iff.1 accepted
        exact ⟨opcode, rfl, refused_eq_ok_iff.1 all_read, operationOfForm_eq_ok_iff.1 formed⟩
      · rintro ⟨other, same, all_read, takes⟩
        cases same
        exact bind_eq_ok_iff.2 ⟨(), refused_eq_ok_iff.2 all_read, operationOfForm_eq_ok_iff.2 takes⟩

end Statement

/-! ## Lines -/

/-- A line asks for an operation. -/
def Asks (line : List Char) (operation : Operation) : Prop :=
  ∃ parts statement, Line.read (upper line) = .ok parts ∧ parts.statement = some statement ∧
    statement.operation = .ok operation

/-- A line asks for what the statement that is read from it asks for. -/
theorem asks_iff {line : List Char} {parts : Line} {statement : Statement} {operation : Operation}
    (read : Line.read (upper line) = .ok parts) (found : parts.statement = some statement) :
    Asks line operation ↔ statement.operation = .ok operation := by
  constructor
  · rintro ⟨parts', statement', read', found', asked⟩
    obtain rfl : parts = parts' := by simpa [read] using read'
    obtain rfl : statement = statement' := by simpa [found] using found'
    exact asked
  · exact fun asked => ⟨parts, statement, read, found, asked⟩

/-- The statement that is read from a line has the mnemonic of the line in upper case, and its two
places hold all operands of the line in upper case.  If the first place is empty, nothing follows
the mnemonic or a comma comes first. -/
theorem Asks.takes {line : List Char} {operation : Operation} (asks : Asks line operation) :
    ∃ opcode, Opcode.ofText? (upper (Source.mnemonic line)) = some opcode ∧
      ∃ statement : Statement, statement.Takes opcode.form operation ∧
        (Source.operands line).map upper =
          (textOf? statement.first).toList ++ (textOf? statement.second).toList ∧
        (statement.first = none →
          ∀ char ∈ ((Source.arguments line).dropWhile isBlank).head?, char = ',') := by
  obtain ⟨parts, statement, read, found, asked⟩ := asks
  obtain ⟨opcode, known, all_read, takes⟩ := Statement.operation_eq_ok_iff.1 asked
  obtain ⟨mnemonic, after, rfl, word, tail⟩ := Line.statement_eq_some read found
  refine ⟨opcode, ?_, _, takes, ?_, ?_⟩
  · rw [← known, ← Source.mnemonic_upper, ← word]
    rfl
  · rw [← Source.operands_upper, Source.operands, ← tail, readOperands_words all_read]
  · intro empty char first
    have comma := readOperands_first_eq_none empty
    rw [tail, Source.arguments_upper, caseless_isBlank.dropWhile_upper] at comma
    obtain ⟨others, rest⟩ := List.head?_eq_some_iff.1 first
    cases images : upperChar char with
    | nil => exact absurd images (upperChar_ne_nil char)
    | cons image more =>
        rw [rest, upper_cons, images] at comma
        obtain rfl : image = ',' := comma image rfl
        exact (eq_of_mem_upperChar (by simp [images]) (by decide)).symm

/-- An operation becomes an instruction when the label of a jump is known. -/
def Operation.Becomes (labels : List Label) (instruction : Instruction) : Operation → Prop
  | .instruction made => instruction = made
  | .jump condition label =>
      ∃ index, labelIndex? labels label.text = some index ∧ instruction = .jump condition index

/-- With these labels a line stands for an instruction. -/
def StandsFor (labels : List Label) (line : List Char) (instruction : Instruction) : Prop :=
  ∃ operation, Asks line operation ∧ operation.Becomes labels instruction

/-- A line asks for at most one operation. -/
theorem Asks.unique {line : List Char} {first second : Operation} (one : Asks line first)
    (other : Asks line second) : first = second := by
  obtain ⟨parts, statement, read, found, asked⟩ := one
  have asked' := (asks_iff read found).1 other
  simpa [asked] using asked'

/-- A line stands for at most one instruction. -/
theorem StandsFor.unique {labels : List Label} {line : List Char} {first second : Instruction}
    (one : StandsFor labels line first) (other : StandsFor labels line second) :
    first = second := by
  obtain ⟨operation, asks, becomes⟩ := one
  obtain ⟨operation', asks', becomes'⟩ := other
  obtain rfl := asks.unique asks'
  cases operation with
  | instruction made => exact becomes.trans becomes'.symm
  | jump condition label =>
      obtain ⟨index, known, rfl⟩ := becomes
      obtain ⟨index', known', rfl⟩ := becomes'
      simp_all

end NodeGrid.Assembly
