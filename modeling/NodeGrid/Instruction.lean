import NodeGrid.Operand

/-!
# Instructions

An instruction is data; the node that runs it gives it its effect.  What does not depend on a
node stands here: the binary operations on words and the conditions of jumps.
-/

namespace NodeGrid

/-- An operation that folds an operand into the accumulator. -/
inductive BinaryOp where
  | add
  | sub
  | and
  | or
  | xor
  | shiftLeft
  | shiftRight
  deriving DecidableEq, Repr

namespace BinaryOp

/-- A shift is by 0 to 15 places; a count outside is moved to the nearer end. -/
def shiftCount (operand : Int32) : Int32 :=
  if operand < 0 then 0 else if 15 < operand then 15 else operand

/-- The operation on 32 bits, before its result is saturated. -/
def wide (op : BinaryOp) (acc operand : Int32) : Int32 :=
  match op with
  | .add => acc + operand
  | .sub => acc - operand
  | .and => acc &&& operand
  | .or => acc ||| operand
  | .xor => acc ^^^ operand
  | .shiftLeft => acc <<< shiftCount operand
  | .shiftRight => acc >>> shiftCount operand

/-- The saturated result of an operation on two words. -/
def apply (op : BinaryOp) (acc operand : Word) : Word :=
  Word.saturate (op.wide acc.toInt32 operand.toInt32)

end BinaryOp

/-- When a jump is taken. -/
inductive Condition where
  | always
  | zero
  | positive
  | negative
  | nonzero
  deriving DecidableEq, Repr

/-- A condition looks at the accumulator alone. -/
def Condition.holds (condition : Condition) (acc : Word) : Bool :=
  match condition with
  | .always => true
  | .zero => acc = 0
  | .positive => 0 < acc
  | .negative => acc < 0
  | .nonzero => acc ≠ 0

/-- One step of a program. -/
inductive Instruction where
  /-- Combine the accumulator with an operand. -/
  | binary (op : BinaryOp) (operand : Operand)
  /-- Complement every bit of the accumulator. -/
  | complement
  /-- Change the sign of the accumulator. -/
  | negate
  /-- Copy the accumulator into the backup register. -/
  | save
  /-- Exchange the accumulator and the backup register. -/
  | swap
  /-- Copy a word. -/
  | move (source : Operand) (destination : Target)
  /-- Go on at an instruction index if the condition holds. -/
  | jump (condition : Condition) (index : Nat)
  /-- Go on that many instructions further, around the ends of the program. -/
  | jumpRelative (offset : Operand)
  deriving DecidableEq, Repr

/-- The instruction without an effect adds nothing to the accumulator. -/
def Instruction.idle : Instruction :=
  .binary .add (.target .nil)

end NodeGrid
