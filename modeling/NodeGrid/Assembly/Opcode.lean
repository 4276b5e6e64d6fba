import NodeGrid.Instruction

/-!
# Mnemonics

Every instruction line starts with a mnemonic.  The mnemonic fixes how many operands follow, what
each of them may be, and which instruction they make.
-/

namespace NodeGrid.Assembly

/-- How a mnemonic takes its operands and what it makes of them. -/
inductive Form where
  /-- No operand: the instruction itself. -/
  | fixed (instruction : Instruction)
  /-- One label. -/
  | jump (condition : Condition)
  /-- One operand, the distance. -/
  | jumpRelative
  /-- One operand. -/
  | binary (op : BinaryOp)
  /-- A source and a destination. -/
  | move
  deriving DecidableEq, Repr

/-- The mnemonics. -/
inductive Opcode where
  | nop
  | jmp
  | jez
  | jgz
  | jlz
  | jnz
  | jro
  | mov
  | sav
  | swp
  | neg
  | add
  | sub
  | not
  | and
  | or
  | xor
  | shl
  | shr
  deriving DecidableEq, Repr

namespace Opcode

/-- Every mnemonic, in the order of their numbers. -/
def all : List Opcode :=
  [.nop, .jmp, .jez, .jgz, .jlz, .jnz, .jro, .mov, .sav, .swp, .neg, .add, .sub, .not, .and, .or,
    .xor, .shl, .shr]

/-- Position among the mnemonics. -/
def number (opcode : Opcode) : Nat :=
  all.idxOf opcode

/-- The mnemonic as it is written. -/
def name : Opcode → String
  | .nop => "NOP"
  | .jmp => "JMP"
  | .jez => "JEZ"
  | .jgz => "JGZ"
  | .jlz => "JLZ"
  | .jnz => "JNZ"
  | .jro => "JRO"
  | .mov => "MOV"
  | .sav => "SAV"
  | .swp => "SWP"
  | .neg => "NEG"
  | .add => "ADD"
  | .sub => "SUB"
  | .not => "NOT"
  | .and => "AND"
  | .or => "OR"
  | .xor => "XOR"
  | .shl => "SHL"
  | .shr => "SHR"

/-- The form of a mnemonic's operands. -/
def form : Opcode → Form
  | .nop => .fixed .idle
  | .jmp => .jump .always
  | .jez => .jump .zero
  | .jgz => .jump .positive
  | .jlz => .jump .negative
  | .jnz => .jump .nonzero
  | .jro => .jumpRelative
  | .mov => .move
  | .sav => .fixed .save
  | .swp => .fixed .swap
  | .neg => .fixed .negate
  | .add => .binary .add
  | .sub => .binary .sub
  | .not => .fixed .complement
  | .and => .binary .and
  | .or => .binary .or
  | .xor => .binary .xor
  | .shl => .binary .shiftLeft
  | .shr => .binary .shiftRight

/-- The mnemonic that a word writes, in exactly this case. -/
def ofText? (text : List Char) : Option Opcode :=
  all.find? fun opcode => opcode.name.toList = text

@[simp] theorem mem_all (opcode : Opcode) : opcode ∈ all := by
  cases opcode <;> simp [all]

end Opcode

end NodeGrid.Assembly
