import NodeGrid.Proofs.Assembly.Statement
import NodeGrid.Proofs.Text.Decimal

/-!
# How instructions are worded

Every instruction has a mnemonic and operands that write it: places by their names, literals in
decimal, and the index that a jump goes to as the name of a label.  Read as a statement, these words
ask for the instruction again, whatever stands between them.
-/

namespace NodeGrid

open Assembly Text

/-! ## The words -/

/-- The name of the label for an index. -/
def Assembly.labelName (index : Nat) : List Char :=
  'L' :: Nat.toDigits 10 index

/-- An operand as it is written. -/
def Operand.written : Operand → List Char
  | .target place => place.name.toList
  | .literal value => Decimal.written value.toInt

/-- The mnemonic of a binary operation. -/
def BinaryOp.opcode : BinaryOp → Opcode
  | .add => .add
  | .sub => .sub
  | .and => .and
  | .or => .or
  | .xor => .xor
  | .shiftLeft => .shl
  | .shiftRight => .shr

/-- The mnemonic of a jump. -/
def Condition.opcode : Condition → Opcode
  | .always => .jmp
  | .zero => .jez
  | .positive => .jgz
  | .negative => .jlz
  | .nonzero => .jnz

namespace Instruction

/-- The mnemonic of an instruction. -/
def opcode : Instruction → Opcode
  | .binary op _ => op.opcode
  | .complement => .not
  | .negate => .neg
  | .save => .sav
  | .swap => .swp
  | .move _ _ => .mov
  | .jump condition _ => condition.opcode
  | .jumpRelative _ => .jro

/-- The operands of an instruction as they are written. -/
def operands : Instruction → List (List Char)
  | .binary _ operand | .jumpRelative operand => [operand.written]
  | .complement | .negate | .save | .swap => []
  | .move source destination => [source.written, destination.name.toList]
  | .jump _ index => [labelName index]

/-- The mnemonic and the operands of an instruction.  The idle instruction may be written with a
mnemonic of its own. -/
def wording (brief : Bool) (instruction : Instruction) : Opcode × List (List Char) :=
  if brief ∧ instruction = .idle then (.nop, []) else (instruction.opcode, instruction.operands)

end Instruction

/-- A literal operand lies in the register range. -/
def Operand.InRange : Operand → Prop
  | .target _ => True
  | .literal value => value.InRange

instance (operand : Operand) : Decidable operand.InRange :=
  match operand with
  | .target _ => inferInstanceAs (Decidable True)
  | .literal value => inferInstanceAs (Decidable (Word.lowest ≤ value ∧ value ≤ Word.highest))

/-- An instruction can be written in a program with this many instructions: its literal lies in the
register range, and it jumps to an instruction or to the end. -/
def Instruction.FitsIn (size : Nat) : Instruction → Prop
  | .binary _ operand | .jumpRelative operand => operand.InRange
  | .move source _ => source.InRange
  | .jump _ index => index ≤ size
  | .complement | .negate | .save | .swap => True

instance (size : Nat) (instruction : Instruction) : Decidable (instruction.FitsIn size) :=
  match instruction with
  | .binary _ operand => inferInstanceAs (Decidable operand.InRange)
  | .jumpRelative offset => inferInstanceAs (Decidable offset.InRange)
  | .move source _ => inferInstanceAs (Decidable source.InRange)
  | .jump _ index => inferInstanceAs (Decidable (index ≤ size))
  | .complement | .negate | .save | .swap => inferInstanceAs (Decidable True)

/-! ## Reading them back -/

@[simp] theorem BinaryOp.form_opcode (op : BinaryOp) : op.opcode.form = .binary op := by
  cases op <;> rfl

@[simp] theorem Condition.form_opcode (condition : Condition) :
    condition.opcode.form = .jump condition := by
  cases condition <;> rfl

theorem Opcode.ofText?_name (opcode : Opcode) :
    Opcode.ofText? opcode.name.toList = some opcode := by
  cases opcode <;> decide

theorem Target.ofText?_name (target : Target) :
    Target.ofText? target.name.toList = some target := by
  cases target with
  | port side => cases side <;> decide
  | acc | nil | any | last => decide

/-- No number is the name of a target. -/
theorem Target.ofText?_written (number : Int) :
    Target.ofText? (Decimal.written number) = none := by
  have names : ∀ target ∈ Target.all, Decimal.integer? target.name.toList = none := by decide
  refine List.find?_eq_none.2 fun target mem => ?_
  simp only [decide_eq_true_eq]
  intro same
  have read := names target mem
  rw [same, Decimal.integer?_written] at read
  cases read

theorem Operand.ofText?_written {operand : Operand} (inside : operand.InRange) :
    Operand.ofText? operand.written = some operand := by
  cases operand with
  | target place => simp [Operand.ofText?, written, Target.ofText?_name]
  | literal value =>
      simp [Operand.ofText?, written, Target.ofText?_written, literal?_written inside]

/-- A statement that holds the operands of an instruction, each in its place, asks for the
instruction. -/
theorem Instruction.exists_takes {instruction : Instruction} {size : Nat} {labels : List Label}
    (fits : instruction.FitsIn size)
    (known : ∀ index ≤ size, labelIndex? labels (labelName index) = some index)
    {statement : Statement} (first : textOf? statement.first = instruction.operands[0]?)
    (second : textOf? statement.second = instruction.operands[1]?) :
    ∃ operation, statement.Takes instruction.opcode.form operation ∧
      operation.Becomes labels instruction := by
  cases instruction with
  | complement | negate | save | swap =>
      exact ⟨_, .fixed (textOf?_eq_none_iff.1 first), rfl⟩
  | binary op operand =>
      obtain ⟨token, only, text⟩ := textOf?_eq_some_iff.1 first
      rw [opcode, BinaryOp.form_opcode]
      exact ⟨_, .binary only (textOf?_eq_none_iff.1 second)
        (text ▸ Operand.ofText?_written fits), rfl⟩
  | jumpRelative offset =>
      obtain ⟨token, only, text⟩ := textOf?_eq_some_iff.1 first
      exact ⟨_, .jumpRelative only (textOf?_eq_none_iff.1 second)
        (text ▸ Operand.ofText?_written fits), rfl⟩
  | move source destination =>
      obtain ⟨origin, from_there, text⟩ := textOf?_eq_some_iff.1 first
      obtain ⟨goal, to_there, name⟩ := textOf?_eq_some_iff.1 second
      exact ⟨_, .move from_there to_there (text ▸ Operand.ofText?_written fits)
        (name ▸ Target.ofText?_name destination), rfl⟩
  | jump condition index =>
      obtain ⟨label, only, text⟩ := textOf?_eq_some_iff.1 first
      rw [opcode, Condition.form_opcode]
      exact ⟨_, .jump only (textOf?_eq_none_iff.1 second), index, text ▸ known index fits, rfl⟩

/-- The same for both ways to write the idle instruction. -/
theorem Instruction.exists_takes_wording {instruction : Instruction} {size : Nat}
    {labels : List Label} (fits : instruction.FitsIn size)
    (known : ∀ index ≤ size, labelIndex? labels (labelName index) = some index) {brief : Bool}
    {statement : Statement} (first : textOf? statement.first = (instruction.wording brief).2[0]?)
    (second : textOf? statement.second = (instruction.wording brief).2[1]?) :
    ∃ operation, statement.Takes (instruction.wording brief).1.form operation ∧
      operation.Becomes labels instruction := by
  by_cases short : brief ∧ instruction = .idle
  · rw [wording, if_pos short] at first ⊢
    exact ⟨.instruction .idle, .fixed (textOf?_eq_none_iff.1 first), short.2⟩
  · rw [wording, if_neg short] at first second ⊢
    exact instruction.exists_takes fits known first second

/-! ## The characters of the words -/

/-- Plain characters, at least one of them. -/
def IsWord (word : List Char) : Prop :=
  word ≠ [] ∧ ∀ char ∈ word, IsPlain char

-- Only the characters of the word are looked at, where a search for an instance may choose to go
-- through all characters that there are.
instance (word : List Char) : Decidable (IsWord word) :=
  decidable_of_iff (word ≠ [] ∧ word.all (IsPlain ·)) (by simp [IsWord])

theorem isWord_labelName (index : Nat) : IsWord (labelName index) :=
  ⟨List.cons_ne_nil _ _, List.forall_mem_cons.2 ⟨by decide, isPlain_toDigits index⟩⟩

theorem Opcode.isWord_name (opcode : Opcode) : IsWord opcode.name.toList := by
  cases opcode <;> decide

theorem Target.isWord_name (target : Target) : IsWord target.name.toList := by
  cases target with
  | port side => cases side <;> decide
  | acc | nil | any | last => decide

theorem Operand.isWord_written (operand : Operand) : IsWord operand.written := by
  cases operand with
  | target place => exact place.isWord_name
  | literal value =>
      refine ⟨?_, isPlain_written value.toInt⟩
      cases number : value.toInt <;> simp [written, number, Decimal.written]

/-- The operands of an instruction are at most two words. -/
theorem Instruction.wording_operands (instruction : Instruction) (brief : Bool) :
    (instruction.wording brief).2.length ≤ 2 ∧
      ∀ word ∈ (instruction.wording brief).2, IsWord word := by
  unfold wording
  split
  · simp
  · cases instruction with
    | complement | negate | save | swap => simp [operands]
    | binary _ operand | jumpRelative operand => simp [operands, operand.isWord_written]
    | move source destination =>
        simp [operands, source.isWord_written, destination.isWord_name]
    | jump _ index => simp [operands, isWord_labelName]

namespace IsWord

variable {word : List Char}

theorem not_isBlank (is_word : IsWord word) {char : Char} (mem : char ∈ word) :
    isBlank char = false :=
  (is_word.2 char mem).isBlank

theorem isOperandChar (is_word : IsWord word) {char : Char} (mem : char ∈ word) :
    Assembly.isOperandChar char := by
  have comma : char ≠ ',' := (is_word.2 char mem).ne (by decide)
  simp [Assembly.isOperandChar, is_word.not_isBlank mem, comma]

theorem isMnemonicChar (is_word : IsWord word) {char : Char} (mem : char ∈ word) :
    Assembly.isMnemonicChar char := by
  simp [Assembly.isMnemonicChar, is_word.not_isBlank mem]

theorem dropWhile_isBlank (is_word : IsWord word) (rest : List Char) :
    (word ++ rest).dropWhile isBlank = word ++ rest := by
  obtain ⟨char, others, rfl⟩ := List.exists_cons_of_ne_nil is_word.1
  rw [List.cons_append, List.dropWhile_cons_of_neg (by simp [is_word.not_isBlank])]

theorem trimEnd_eq (is_word : IsWord word) : trimEnd word = word := by
  rw [← List.dropLast_concat_getLast is_word.1]
  exact trimEnd_concat _ (is_word.not_isBlank (List.getLast_mem is_word.1))

end IsWord

end NodeGrid
