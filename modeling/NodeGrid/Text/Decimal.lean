/-!
# Decimal numbers

Numbers written with ASCII digits.  Leading zeros are allowed and change nothing; no other script
has digits here.
-/

namespace NodeGrid.Decimal

/-- The value of an ASCII digit. -/
def digit? (char : Char) : Option Nat :=
  if '0' ≤ char ∧ char ≤ '9' then some (char.toNat - '0'.toNat) else none

/-- Read digits after a number that the digits before them write. -/
def continue? (value : Nat) : List Char → Option Nat
  | [] => some value
  | char :: rest => (digit? char).bind fun digit => continue? (10 * value + digit) rest

/-- The number that one or more digits write. -/
def natural? : List Char → Option Nat
  | [] => none
  | digits => continue? 0 digits

/-- The number that digits write after at most one sign. -/
def integer? : List Char → Option Int
  | '+' :: digits => (natural? digits).map Int.ofNat
  | '-' :: digits => (natural? digits).map fun magnitude => -Int.ofNat magnitude
  | digits => (natural? digits).map Int.ofNat

end NodeGrid.Decimal
