/-!
# Words

Registers and pipes hold 16-bit words.  Arithmetic is carried out on 32 bits and its result is
saturated into the register range, so a result never wraps around.
-/

namespace NodeGrid

/-- A value that a register holds and a pipe carries. -/
abbrev Word := Int16

namespace Word

/-- The least result of arithmetic and the least literal. -/
def lowest : Word := -999

/-- The greatest result of arithmetic and the greatest literal. -/
def highest : Word := 999

/-- The nearest word of the register range. -/
def saturate (value : Int32) : Word :=
  if value < lowest.toInt32 then lowest
  else if highest.toInt32 < value then highest
  else value.toInt16

/-- A word lies in the register range. -/
def InRange (word : Word) : Prop :=
  lowest ≤ word ∧ word ≤ highest

end Word

end NodeGrid
