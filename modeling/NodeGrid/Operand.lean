import NodeGrid.Word
import NodeGrid.Port
import NodeGrid.Text.Decimal

/-!
# Operands

An operand names a place to read from or is a literal.  A destination is always a place.  Names
are recognised exactly, in upper case; a literal is a signed decimal integer of 32 bits that is
saturated into the register range.
-/

namespace NodeGrid

/-- A place that an instruction reads from or writes to. -/
inductive Target where
  | acc
  | nil
  | port (side : Port)
  | any
  | last
  deriving DecidableEq, Repr

namespace Target

/-- Every target, the ports first. -/
def all : List Target :=
  Port.all.map .port ++ [.any, .last, .acc, .nil]

/-- The word that names a target in a program. -/
def name : Target → String
  | .acc => "ACC"
  | .nil => "NIL"
  | .port side => side.name
  | .any => "ANY"
  | .last => "LAST"

/-- The target that a word names. -/
def ofText? (text : List Char) : Option Target :=
  all.find? fun target => target.name.toList = text

/-- A target is reached through the ports of the node, so using it may have to wait. -/
def isPort : Target → Bool
  | .port _ | .any | .last => true
  | .acc | .nil => false

@[simp] theorem mem_all (target : Target) : target ∈ all := by
  cases target <;> simp [all]

end Target

/-- The word that a literal denotes.  A number that needs more than 32 bits is no literal; one that
does not fit the register range is saturated. -/
def literal? (text : List Char) : Option Word :=
  let fits (value : Int) : Bool :=
    Int32.minValue.toInt ≤ value ∧ value ≤ Int32.maxValue.toInt
  ((Decimal.integer? text).filter fits).map fun value => Word.saturate (Int32.ofInt value)

/-- What an instruction takes its input from. -/
inductive Operand where
  | target (place : Target)
  | literal (value : Word)
  deriving DecidableEq, Repr

/-- The operand that a word denotes; a target's name wins over a literal. -/
def Operand.ofText? (text : List Char) : Option Operand :=
  match Target.ofText? text with
  | some place => some (.target place)
  | none => (literal? text).map .literal

end NodeGrid
