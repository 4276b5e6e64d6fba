import NodeGrid.Operand
import NodeGrid.Proofs.Text.Uppercase

/-!
# Writing decimal numbers

A number is written without leading zeros and with a sign only when it is negative.  Reading gives
back the number, and a word of the register range is the literal that its number denotes.
-/

namespace NodeGrid

namespace Decimal

/-- A number as it is written. -/
def written : Int → List Char
  | .ofNat magnitude => Nat.toDigits 10 magnitude
  | .negSucc less => '-' :: Nat.toDigits 10 (less + 1)

theorem digit?_digitChar {digit : Nat} (small : digit < 10) :
    digit? digit.digitChar = some digit := by
  have table : ∀ digit < 10, digit? (Nat.digitChar digit) = some digit := by decide
  exact table digit small

theorem continue?_append (value : Nat) (first second : List Char) :
    continue? value (first ++ second) =
      (continue? value first).bind fun next => continue? next second := by
  induction first generalizing value with
  | nil => rfl
  | cons char rest ih =>
      cases digit : digit? char <;> simp [continue?, digit, ih]

/-- The digits of a number, read from the left, give the number. -/
theorem continue?_toDigits (number : Nat) : continue? 0 (Nat.toDigits 10 number) = some number := by
  by_cases small : number < 10
  · rw [Nat.toDigits_of_lt_base small]
    simp [continue?, digit?_digitChar small]
  · have ih := continue?_toDigits (number / 10)
    have last : digit? (number % 10).digitChar = some (number % 10) :=
      digit?_digitChar (Nat.mod_lt number (by decide))
    rw [Nat.toDigits_of_base_le (by decide) (not_lt.1 small), continue?_append, ih]
    simp [continue?, last, Nat.div_add_mod]
  termination_by number
  decreasing_by omega

theorem natural?_toDigits (number : Nat) : natural? (Nat.toDigits 10 number) = some number := by
  have read := continue?_toDigits number
  unfold natural?
  split
  · next empty => exact absurd empty Nat.toDigits_ne_nil
  · exact read

theorem toDigits_injective {first second : Nat}
    (same : Nat.toDigits 10 first = Nat.toDigits 10 second) : first = second := by
  have read := natural?_toDigits first
  rw [same, natural?_toDigits] at read
  exact (Option.some.inj read).symm

/-- Digits without a sign are read as the number they write. -/
theorem integer?_toDigits (number : Nat) :
    integer? (Nat.toDigits 10 number) = some (Int.ofNat number) := by
  have digits : ∀ char ∈ Nat.toDigits 10 number, char.isDigit := fun char mem =>
    Nat.isDigit_of_mem_toDigits (by decide) (by decide) mem
  unfold integer?
  split
  · next signed => exact absurd (digits '+' (by simp [signed])) (by decide)
  · next signed => exact absurd (digits '-' (by simp [signed])) (by decide)
  · rw [natural?_toDigits, Option.map_some]

/-- Reading a written number gives back the number. -/
theorem integer?_written (number : Int) : integer? (written number) = some number := by
  cases number with
  | ofNat magnitude => exact integer?_toDigits magnitude
  | negSucc less =>
      rw [written, integer?, natural?_toDigits, Option.map_some]
      rfl

end Decimal

/-! ## Literals -/

/-- A word of the register range is not changed by saturating it. -/
theorem Word.saturate_toInt32 {word : Word} (inside : word.InRange) :
    Word.saturate word.toInt32 = word := by
  have low : ¬word.toInt32 < lowest.toInt32 := by
    rw [Int16.toInt32_lt, Int16.not_lt]
    exact inside.1
  have high : ¬highest.toInt32 < word.toInt32 := by
    rw [Int16.toInt32_lt, Int16.not_lt]
    exact inside.2
  rw [saturate, if_neg low, if_neg high, Int16.toInt16_toInt32]

/-- A word of the register range is the literal that its number denotes. -/
theorem literal?_written {word : Word} (inside : word.InRange) :
    literal? (Decimal.written word.toInt) = some word := by
  have low : -999 ≤ word.toInt := Int16.le_iff_toInt_le.1 inside.1
  have high : word.toInt ≤ 999 := Int16.le_iff_toInt_le.1 inside.2
  have limits : Int32.minValue.toInt = -2147483648 ∧ Int32.maxValue.toInt = 2147483647 := by decide
  have fits : Int32.minValue.toInt ≤ word.toInt ∧ word.toInt ≤ Int32.maxValue.toInt := by omega
  simp only [literal?, Decimal.integer?_written, Option.filter_some, fits, and_self, decide_true,
    if_true, Option.map_some, Int32.ofInt_int16ToInt, Word.saturate_toInt32 inside]

/-! ## Characters -/

theorem isPlain_of_isDigit {char : Char} (digit : char.isDigit) : Text.IsPlain char := by
  have table : ∀ code < 0x80, (Char.ofNat code).isDigit → Text.IsPlain (Char.ofNat code) := by
    decide +kernel
  have ascii : char.toNat < 0x80 := by
    simp only [Char.isDigit, Bool.and_eq_true, decide_eq_true_eq, UInt32.le_iff_toNat_le] at digit
    exact Nat.lt_of_le_of_lt digit.2 (by decide)
  simpa using table char.toNat ascii (by simpa using digit)

theorem isPlain_toDigits (number : Nat) : ∀ char ∈ Nat.toDigits 10 number, Text.IsPlain char :=
  fun _ mem => isPlain_of_isDigit (Nat.isDigit_of_mem_toDigits (by decide) (by decide) mem)

/-- A written number consists of digits, perhaps behind a sign. -/
theorem isPlain_written (number : Int) : ∀ char ∈ Decimal.written number, Text.IsPlain char := by
  cases number with
  | ofNat magnitude => exact isPlain_toDigits magnitude
  | negSucc less => exact List.forall_mem_cons.2 ⟨by decide, isPlain_toDigits (less + 1)⟩

end NodeGrid
