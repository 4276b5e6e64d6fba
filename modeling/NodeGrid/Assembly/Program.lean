import NodeGrid.Instruction
import NodeGrid.Assembly.Error

/-!
# Programs

A program is its instructions, each with the source line it came from, and the labels with the
index of the instruction that follows them.
-/

namespace NodeGrid.Assembly

/-- An instruction and the index of the line it stands on. -/
structure Placed where
  instruction : Instruction
  line : Nat
  deriving DecidableEq, Repr

/-- A label and the index of the instruction that follows it. -/
structure Label where
  name : List Char
  index : Nat
  deriving DecidableEq, Repr

/-- A compiled program. -/
structure Program where
  code : List Placed
  labels : List Label
  deriving DecidableEq, Repr

namespace Program

/-- The program without instructions and labels. -/
def empty : Program :=
  ⟨[], []⟩

/-- The instructions in order. -/
def instructions (program : Program) : List Instruction :=
  program.code.map (·.instruction)

/-- The source line of each instruction. -/
def lines (program : Program) : List Nat :=
  program.code.map (·.line)

/-- Number of instructions. -/
def size (program : Program) : Nat :=
  program.code.length

/-- The program has no instruction. -/
def isEmpty (program : Program) : Bool :=
  program.code.isEmpty

/-- The instruction at an index. -/
def instruction? (program : Program) (index : Nat) : Option Instruction :=
  program.code[index]?.map (·.instruction)

/-- The source line of the instruction at an index. -/
def line? (program : Program) (index : Nat) : Option Nat :=
  program.code[index]?.map (·.line)

/-- Let the jump at a position go to an index.  Other instructions are left alone. -/
def pointJump (program : Program) (position index : Nat) : Program :=
  { program with
    code := program.code.modify position fun placed =>
      match placed.instruction with
      | .jump condition _ => { placed with instruction := .jump condition index }
      | _ => placed }

end Program

/-- The index that belongs to a label. -/
def labelIndex? (labels : List Label) (name : List Char) : Option Nat :=
  (labels.find? fun label => label.name = name).map (·.index)

/-- The use of a label by a jump: its name and where it stands. -/
structure Reference where
  name : List Char
  line : Nat
  startColumn : Nat
  endColumn : Nat
  deriving DecidableEq, Repr

/-- The index that a reference means; an unknown label is an error at the reference. -/
def Reference.resolve (reference : Reference) (labels : List Label) : Except CompileError Nat :=
  match labelIndex? labels reference.name with
  | some index => .ok index
  | none =>
      .error (.onLine .undefinedLabel reference.line reference.startColumn reference.endColumn)

/-- Let the jump at a position go where a reference says. -/
def Program.redirect (program : Program) (position : Nat) (reference : Reference) :
    Except CompileError Program :=
  (reference.resolve program.labels).map (program.pointJump position)

end NodeGrid.Assembly
