import NodeGrid.Text.Decimal

/-!
# Numbers, booleans and dates of TOML

A plain value is a word without blanks, so it is read as a whole and then recognised.  A date may
be followed by a blank and a time.
-/

namespace NodeGrid.Toml

/-- A character is a decimal digit. -/
def isDigit (char : Char) : Bool :=
  (Decimal.digit? char).isSome

/-- The value of a hexadecimal digit. -/
def hexDigit? (char : Char) : Option Nat :=
  if 'a' ≤ char ∧ char ≤ 'f' then some (char.toNat - 'a'.toNat + 10)
  else if 'A' ≤ char ∧ char ≤ 'F' then some (char.toNat - 'A'.toNat + 10)
  else Decimal.digit? char

/-- The value of a digit of a base up to sixteen. -/
def baseDigit? (base : Nat) (char : Char) : Option Nat :=
  (hexDigit? char).filter (· < base)

/-- The number that digits of a base write, with single underscores between digits. -/
def grouped? (base value : Nat) : List Char → Option Nat
  | [] => none
  | [digit] => (baseDigit? base digit).map (base * value + ·)
  | digit :: '_' :: rest => do grouped? base (base * value + (← baseDigit? base digit)) rest
  | digit :: rest => do grouped? base (base * value + (← baseDigit? base digit)) rest

/-- A sign and what follows it. -/
def splitSign : List Char → Bool × List Char
  | '+' :: rest => (false, rest)
  | '-' :: rest => (true, rest)
  | text => (false, text)

/-- A decimal number without a sign, which has no leading zero. -/
def decimal? (text : List Char) : Option Nat :=
  if text.head? = some '0' ∧ text ≠ ['0'] then none else grouped? 10 0 text

/-- An integer of 64 bits.  Bases other than ten have no sign. -/
def integer? (text : List Char) : Option Int :=
  let value? : Option Int :=
    match text with
    | '0' :: 'x' :: digits => (grouped? 16 0 digits).map Int.ofNat
    | '0' :: 'o' :: digits => (grouped? 8 0 digits).map Int.ofNat
    | '0' :: 'b' :: digits => (grouped? 2 0 digits).map Int.ofNat
    | _ =>
        let (negative, digits) := splitSign text
        (decimal? digits).map fun magnitude =>
          if negative then -Int.ofNat magnitude else Int.ofNat magnitude
  value?.filter fun value => Int64.minValue.toInt ≤ value ∧ value ≤ Int64.maxValue.toInt

/-- The least number that a double rounds to infinity. -/
def overflowBound : Nat :=
  1 <<< 1024 - 1 <<< 970

/-- A number of some digits, times a power of ten, is beyond the doubles.  Numbers that are far
from the bound are told by their number of digits alone. -/
def overflows (digits : Nat) (exponent : Int) : Bool :=
  let magnitude := (Nat.toDigits 10 digits).length + exponent
  if digits = 0 ∨ magnitude ≤ 308 then false
  else if 309 < magnitude then true
  else if 0 ≤ exponent then overflowBound ≤ digits * Nat.pow 10 exponent.toNat
  else overflowBound * Nat.pow 10 (-exponent).toNat ≤ digits

/-- The exponent of a float, from the letter on; where there is none it is zero. -/
def exponent? : List Char → Option Int
  | [] => some 0
  | letter :: rest =>
      if letter = 'e' ∨ letter = 'E' then
        let (negative, digits) := splitSign rest
        (grouped? 10 0 digits).map fun magnitude =>
          if negative then -Int.ofNat magnitude else Int.ofNat magnitude
      else none

/-- The digits of grouped digits. -/
def ungroup (text : List Char) : List Char :=
  text.filter (· ≠ '_')

/-- A float: digits with a fraction or an exponent, infinity, or not a number.  A float above the
doubles is refused. -/
def isFloat (text : List Char) : Bool :=
  let (negative, unsigned) := splitSign text
  let isGroupChar := fun char => isDigit char || char = '_'
  let whole := unsigned.takeWhile isGroupChar
  let (fraction, suffix) :=
    match unsigned.dropWhile isGroupChar with
    | '.' :: rest => (some (rest.takeWhile isGroupChar), rest.dropWhile isGroupChar)
    | rest => (none, rest)
  if unsigned = "inf".toList ∨ unsigned = "nan".toList then true
  else if (decimal? whole).isNone then false
  else if fraction.any fun digits => (grouped? 10 0 digits).isNone then false
  else if fraction.isNone && suffix.isEmpty then false
  else
    match exponent? suffix with
    | none => false
    | some exponent =>
        let decimals := ungroup (fraction.getD [])
        let digits := (Decimal.natural? (ungroup whole ++ decimals)).getD 0
        negative || !overflows digits (exponent - Int.ofNat decimals.length)

/-- A number of two digits that lies within bounds. -/
def isTwoDigits (lowest highest : Nat) (tens units : Char) : Bool :=
  match Decimal.digit? tens, Decimal.digit? units with
  | some ten, some unit => lowest ≤ 10 * ten + unit && 10 * ten + unit ≤ highest
  | _, _ => false

/-- Number of days of a month. -/
def daysOfMonth (year month : Nat) : Nat :=
  if month = 2 then
    if year % 4 = 0 ∧ (year % 100 ≠ 0 ∨ year % 400 = 0) then 29 else 28
  else if month = 4 ∨ month = 6 ∨ month = 9 ∨ month = 11 then 30
  else 31

/-- A date of the calendar. -/
def isDate : List Char → Bool
  | [y₁, y₂, y₃, y₄, '-', m₁, m₂, '-', d₁, d₂] =>
      match Decimal.natural? [y₁, y₂, y₃, y₄], Decimal.natural? [m₁, m₂] with
      | some year, some month =>
          1 ≤ month && month ≤ 12 && isTwoDigits 1 (daysOfMonth year month) d₁ d₂
      | _, _ => false
  | _ => false

/-- A time of the day, which may have a fraction of a second. -/
def isTime : List Char → Bool
  | h₁ :: h₂ :: ':' :: m₁ :: m₂ :: ':' :: s₁ :: s₂ :: fraction =>
      isTwoDigits 0 23 h₁ h₂ && isTwoDigits 0 59 m₁ m₂ && isTwoDigits 0 60 s₁ s₂ &&
        match fraction with
        | [] => true
        | '.' :: digits => !digits.isEmpty && digits.all isDigit
        | _ => false
  | _ => false

/-- A distance from universal time. -/
def isOffset : List Char → Bool
  | ['Z'] | ['z'] => true
  | [sign, h₁, h₂, ':', m₁, m₂] =>
      (sign = '+' || sign = '-') && isTwoDigits 0 23 h₁ h₂ && isTwoDigits 0 59 m₁ m₂
  | _ => false

/-- A time with or without an offset, as it follows a date. -/
def isZonedTime (text : List Char) : Bool :=
  let isTimeChar := fun char => isDigit char || char = ':' || char = '.'
  let offset := text.dropWhile isTimeChar
  isTime (text.takeWhile isTimeChar) && (offset.isEmpty || isOffset offset)

/-- A date and a time in one word. -/
def isDateTime (text : List Char) : Bool :=
  isDate (text.take 10) &&
    match text.drop 10 with
    | delimiter :: time => (delimiter = 'T' || delimiter = 't') && isZonedTime time
    | [] => false

/-- A value in one word that is not an integer. -/
def isOtherWord (text : List Char) : Bool :=
  text = "true".toList || text = "false".toList || isFloat text || isDate text || isTime text ||
    isDateTime text

/-- The characters of such words. -/
def isWordChar (char : Char) : Bool :=
  char.isAlphanum || char = '+' || char = '-' || char = '_' || char = '.' || char = ':'

end NodeGrid.Toml
