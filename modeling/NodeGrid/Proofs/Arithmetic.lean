import NodeGrid.Instruction
import Mathlib.Data.Int.Bitwise
import Mathlib.Tactic.Linarith
import Mathlib.Tactic.Positivity

/-!
# Arithmetic without bounds

Arithmetic on two words is carried out on 32 bits, where it could wrap around, and is saturated
then.  It never does wrap around: what has been computed before the saturation is the exact integer,
for any two words of 16 bits, also those beyond the register range.  So an operation is one on
integers without bounds, and saturating moves its result to the nearest integer of that range.
-/

namespace NodeGrid

/-! ## Bits of integers

An integer has a bit at every position, and those of a negative one are all set from some position
on. -/

section Bits

/-- Integers with the same bits are the same. -/
theorem eq_of_testBit_eq {first second : Int}
    (same : ∀ place, first.testBit place = second.testBit place) : first = second := by
  -- At a position beyond both numbers the bit tells the sign.
  have beyond : ∀ {number place : Nat}, number ≤ place → number.testBit place = false :=
    fun within => Nat.testBit_lt_two_pow
      (Nat.lt_two_pow_self.trans_le (Nat.pow_le_pow_right (by decide) within))
  cases first with
  | ofNat a =>
      cases second with
      | ofNat b => exact congrArg Int.ofNat (Nat.eq_of_testBit_eq same)
      | negSucc b =>
          have sign := same (a + b)
          simp [Int.testBit, beyond (Nat.le_add_right a b), beyond (Nat.le_add_left b a)] at sign
  | negSucc a =>
      cases second with
      | ofNat b =>
          have sign := same (a + b)
          simp [Int.testBit, beyond (Nat.le_add_right a b), beyond (Nat.le_add_left b a)] at sign
      | negSucc b =>
          refine congrArg Int.negSucc (Nat.eq_of_testBit_eq fun place => ?_)
          simpa [Int.testBit] using same place

/-- The bits of a number of fixed width go on with its sign. -/
theorem testBit_toInt {width : Nat} (bits : BitVec width) (place : Nat) :
    bits.toInt.testBit place = if place < width then bits.getLsbD place else bits.msb := by
  cases sign : bits.msb with
  | false =>
      have value : bits.toInt = Int.ofNat bits.toNat := by simp [BitVec.toInt_eq_msb_cond, sign]
      rw [value, Int.testBit, BitVec.testBit_toNat]
      split
      next => rfl
      next beyond => exact bits.getLsbD_of_ge place (Nat.le_of_not_lt beyond)
  | true =>
      have value : bits.toInt = Int.negSucc (~~~bits).toNat := by
        have fits := bits.isLt
        rw [BitVec.toInt_eq_msb_cond, if_pos sign, BitVec.toNat_not, Int.negSucc_eq]
        omega
      rw [value, Int.testBit, BitVec.testBit_toNat, BitVec.getLsbD_not]
      split
      next within => simp [within]
      next beyond => simp [beyond]

/-- An operation that combines numbers of fixed width bit by bit combines their values so. -/
theorem toInt_of_bitwise {width : Nat} {combine : Bool → Bool → Bool}
    {first second result : BitVec width} {value : Int}
    (bits : ∀ place < width,
      result.getLsbD place = combine (first.getLsbD place) (second.getLsbD place))
    (sign : result.msb = combine first.msb second.msb)
    (agrees : ∀ place,
      value.testBit place = combine (first.toInt.testBit place) (second.toInt.testBit place)) :
    result.toInt = value := by
  refine eq_of_testBit_eq fun place => ?_
  rw [agrees, testBit_toInt, testBit_toInt, testBit_toInt]
  split
  next within => exact bits place within
  next => exact sign

end Bits

namespace Word

/-- The nearest integer of the register range. -/
def clamp (value : Int) : Int :=
  max (-999) (min 999 value)

/-- Saturating moves a number to the nearest one of the register range. -/
theorem toInt_saturate (value : Int32) : (saturate value).toInt = clamp value.toInt := by
  unfold saturate clamp
  simp only [Int32.lt_iff_toInt_lt, show lowest.toInt32.toInt = -999 by decide,
    show highest.toInt32.toInt = 999 by decide]
  split
  next low =>
    rw [show lowest.toInt = -999 by decide]
    omega
  next low =>
    split
    next high =>
      rw [show highest.toInt = 999 by decide]
      omega
    next high =>
      -- Between the bounds the number fits 16 bits, so cutting it short keeps it.
      rw [Int32.toInt_toInt16, Int.bmod_eq_of_le (by omega) (by omega)]
      omega

/-- A number of 32 bits has room for what is computed from words. -/
theorem bmod_eq_self {value : Int} (low : -2 ^ 31 ≤ value) (high : value < 2 ^ 31) :
    value.bmod (2 ^ 32) = value :=
  Int.bmod_eq_of_le (by omega) (by omega)

/-- To complement every bit is to subtract from minus one. -/
theorem toInt_complement (word : Word) : (~~~word.toInt32).toInt = -word.toInt - 1 := by
  have low := word.le_toInt
  have high := word.toInt_lt
  rw [Int32.toInt_not, Int16.toInt_toInt32]
  exact bmod_eq_self (by omega) (by omega)

theorem toInt_negate (word : Word) : (-word.toInt32).toInt = -word.toInt := by
  have low := word.le_toInt
  have high := word.toInt_lt
  rw [Int32.toInt_neg, Int16.toInt_toInt32]
  exact bmod_eq_self (by omega) (by omega)

end Word

namespace BinaryOp

/-- The number of places of a shift: the operand, moved into the range from 0 to 15. -/
def places (operand : Int) : Nat :=
  (max 0 (min operand 15)).toNat

theorem places_le (operand : Int) : places operand ≤ 15 := by
  unfold places
  omega

/-- The operation on integers without bounds.  A shift to the left multiplies by a power of two, and
one to the right divides by it and rounds down. -/
def exact (op : BinaryOp) (acc operand : Int) : Int :=
  match op with
  | .add => acc + operand
  | .sub => acc - operand
  | .and => acc.land operand
  | .or => acc.lor operand
  | .xor => acc.xor operand
  | .shiftLeft => acc * 2 ^ places operand
  | .shiftRight => acc.fdiv (2 ^ places operand)

theorem toInt_shiftCount (operand : Int32) :
    (shiftCount operand).toInt = places operand.toInt := by
  unfold shiftCount places
  simp only [Int32.lt_iff_toInt_lt, show (0 : Int32).toInt = 0 by decide,
    show (15 : Int32).toInt = 15 by decide]
  split
  next low =>
    rw [show (0 : Int32).toInt = 0 by decide]
    omega
  next low =>
    split
    next high =>
      rw [show (15 : Int32).toInt = 15 by decide]
      omega
    next high => omega

/-- A shift is by as many places as the operand says, within its range. -/
theorem shiftCount_eq (operand : Int32) :
    shiftCount operand = Int32.ofNat (places operand.toInt) := by
  have few := places_le operand.toInt
  apply Int32.toInt_inj.1
  rw [toInt_shiftCount, Int32.toInt_ofNat_of_lt (by omega)]

/-- A count of at most 15 is taken as it is by a shift of 32 bits. -/
theorem smod_eq_self : ∀ count ≤ 15, ((Int32.ofNat count).toBitVec.smod 32).toNat = count := by
  decide

/-- Shifting a word to the left by at most 15 places shifts no bit out of 32. -/
theorem toInt_shiftLeft (word : Word) {count : Nat} (few : count ≤ 15) :
    (word.toInt32 <<< Int32.ofNat count).toInt = word.toInt * 2 ^ count := by
  have low := word.le_toInt
  have high := word.toInt_lt
  rw [← Int32.toInt_toBitVec, Int32.toBitVec_shiftLeft, BitVec.shiftLeft_eq',
    smod_eq_self count few, BitVec.shiftLeft_eq_mul_twoPow, BitVec.toInt_mul, BitVec.toInt_twoPow,
    if_neg (by omega), if_neg (by omega), Int32.toInt_toBitVec, Int16.toInt_toInt32]
  have least : (0 : Int) < 2 ^ count := by positivity
  have most : (2 : Int) ^ count ≤ 2 ^ 15 := pow_le_pow_right₀ (by decide) few
  exact Word.bmod_eq_self (by nlinarith) (by nlinarith)

theorem toInt_shiftRight (word : Word) {count : Nat} (few : count ≤ 15) :
    (word.toInt32 >>> Int32.ofNat count).toInt = word.toInt.fdiv (2 ^ count) := by
  rw [← Int32.toInt_toBitVec, Int32.toBitVec_shiftRight, BitVec.sshiftRight_eq',
    smod_eq_self count few, BitVec.toInt_sshiftRight, Int32.toInt_toBitVec, Int16.toInt_toInt32,
    Int.shiftRight_eq_div_pow, Int.fdiv_eq_ediv_of_nonneg _ (by positivity), Nat.cast_pow]
  rfl

/-- What combines two words bit by bit on 32 bits combines their values so. -/
theorem toInt_bitwise {combine : Bool → Bool → Bool} {acc operand : Word} {result : Int32}
    {value : Int}
    (bits : ∀ place < 32, result.toBitVec.getLsbD place =
      combine (acc.toInt32.toBitVec.getLsbD place) (operand.toInt32.toBitVec.getLsbD place))
    (sign : result.toBitVec.msb = combine acc.toInt32.toBitVec.msb operand.toInt32.toBitVec.msb)
    (agrees : ∀ place,
      value.testBit place = combine (acc.toInt.testBit place) (operand.toInt.testBit place)) :
    result.toInt = value := by
  rw [← Int32.toInt_toBitVec]
  refine toInt_of_bitwise bits sign ?_
  simpa only [Int32.toInt_toBitVec, Int16.toInt_toInt32] using agrees

/-- Before it is saturated, the result of an operation on two words is exact. -/
theorem toInt_wide (op : BinaryOp) (acc operand : Word) :
    (op.wide acc.toInt32 operand.toInt32).toInt = op.exact acc.toInt operand.toInt := by
  have accLow := acc.le_toInt
  have accHigh := acc.toInt_lt
  have operandLow := operand.le_toInt
  have operandHigh := operand.toInt_lt
  have count := places_le operand.toInt
  cases op with
  | add =>
      rw [wide, Int32.toInt_add, Int16.toInt_toInt32, Int16.toInt_toInt32]
      exact Word.bmod_eq_self (by omega) (by omega)
  | sub =>
      rw [wide, Int32.toInt_sub, Int16.toInt_toInt32, Int16.toInt_toInt32]
      exact Word.bmod_eq_self (by omega) (by omega)
  | and => exact toInt_bitwise (by simp [wide]) (by simp [wide]) (Int.testBit_land _ _)
  | or => exact toInt_bitwise (by simp [wide]) (by simp [wide]) (Int.testBit_lor _ _)
  | xor => exact toInt_bitwise (by simp [wide]) (by simp [wide]) (Int.testBit_lxor _ _)
  | shiftLeft =>
      rw [wide, shiftCount_eq, Int16.toInt_toInt32]
      exact toInt_shiftLeft acc count
  | shiftRight =>
      rw [wide, shiftCount_eq, Int16.toInt_toInt32]
      exact toInt_shiftRight acc count

/-- The result of an operation is the exact one, moved into the register range. -/
theorem toInt_apply (op : BinaryOp) (acc operand : Word) :
    (op.apply acc operand).toInt = Word.clamp (op.exact acc.toInt operand.toInt) := by
  rw [apply, Word.toInt_saturate, toInt_wide]

end BinaryOp

end NodeGrid
