import Mathlib.Data.Nat.Digits.Defs
import NodeGrid.Proofs.Arithmetic
import NodeGrid.Proofs.Assembly.Wording

/-!
# Which words are operands

A number is written by digits, each of which counts by its place, behind at most one sign.  Reading
goes through the digits from the left and finds this number, or finds that the word writes none.  So
a word is a literal exactly when it writes a number of 32 bits, and no name of a target does.
-/

namespace NodeGrid

namespace Decimal

/-- The number that digits write by their places, the last of which counts ones. -/
def placeValue (digits : List Char) : Nat :=
  Nat.ofDigits 10 (digits.reverse.map fun digit => digit.toNat - '0'.toNat)

/-- One or more ASCII digits and nothing else. -/
structure IsNumeral (digits : List Char) : Prop where
  filled : digits ≠ []
  ascii : ∀ char ∈ digits, char.isDigit

/-- A word writes a number with digits behind at most one sign. -/
inductive Writes : List Char → Int → Prop where
  | unsigned {digits : List Char} (numeral : IsNumeral digits) : Writes digits (placeValue digits)
  | plus {digits : List Char} (numeral : IsNumeral digits) :
      Writes ('+' :: digits) (placeValue digits)
  | minus {digits : List Char} (numeral : IsNumeral digits) :
      Writes ('-' :: digits) (-placeValue digits)

/-! ## Digits -/

theorem placeValue_cons (char : Char) (rest : List Char) :
    placeValue (char :: rest) =
      (char.toNat - '0'.toNat) * 10 ^ rest.length + placeValue rest := by
  simp only [placeValue, List.reverse_cons, List.map_append, List.map_cons, List.map_nil,
    Nat.ofDigits_append, Nat.ofDigits_singleton, List.length_map, List.length_reverse]
  ring

/-- Zeros in front count nothing. -/
theorem placeValue_zeros (zeros : Nat) (digits : List Char) :
    placeValue (List.replicate zeros '0' ++ digits) = placeValue digits := by
  induction zeros with
  | zero => rfl
  | succ zeros ih => rw [List.replicate_succ, List.cons_append, placeValue_cons, ih]; simp

theorem digit?_eq_some_iff {char : Char} {digit : Nat} :
    digit? char = some digit ↔ char.isDigit ∧ digit = char.toNat - '0'.toNat := by
  have ascii : ('0' ≤ char ∧ char ≤ '9') ↔ char.isDigit := by
    rw [Char.isDigit, Bool.and_eq_true, decide_eq_true_eq, decide_eq_true_eq]
    rfl
  unfold digit?
  by_cases inside : '0' ≤ char ∧ char ≤ '9'
  · rw [if_pos inside, and_iff_right (ascii.1 inside), Option.some.injEq, eq_comm]
  · rw [if_neg inside]
    exact iff_of_false nofun fun found => inside (ascii.2 found.1)

/-- Reading on moves what has been read by the places of the digits that follow. -/
theorem continue?_eq_some_iff {value number : Nat} {digits : List Char} :
    continue? value digits = some number ↔
      (∀ char ∈ digits, char.isDigit) ∧
        number = value * 10 ^ digits.length + placeValue digits := by
  induction digits generalizing value with
  | nil =>
      rw [continue?, Option.some.injEq, eq_comm]
      simp [placeValue]
  | cons char rest ih =>
      rw [continue?, Option.bind_eq_some_iff]
      simp only [digit?_eq_some_iff, ih, List.forall_mem_cons, placeValue_cons, List.length_cons]
      have moved : ∀ digit, (10 * value + digit) * 10 ^ rest.length + placeValue rest =
          value * 10 ^ (rest.length + 1) + (digit * 10 ^ rest.length + placeValue rest) := by
        intro digit
        ring
      constructor
      · rintro ⟨_, ⟨here, rfl⟩, others, rfl⟩
        exact ⟨⟨here, others⟩, moved _⟩
      · rintro ⟨⟨here, others⟩, rfl⟩
        exact ⟨_, ⟨here, rfl⟩, others, (moved _).symm⟩

theorem natural?_eq_some_iff {digits : List Char} {number : Nat} :
    natural? digits = some number ↔ IsNumeral digits ∧ number = placeValue digits := by
  cases digits with
  | nil => exact iff_of_false nofun fun read => read.1.filled rfl
  | cons char rest =>
      have numeral : IsNumeral (char :: rest) ↔ ∀ digit ∈ char :: rest, digit.isDigit :=
        ⟨IsNumeral.ascii, fun ascii => ⟨List.cons_ne_nil _ _, ascii⟩⟩
      rw [natural?, continue?_eq_some_iff, numeral, Nat.zero_mul, Nat.zero_add]
      · exact nofun

/-- A sign is applied to the number that the digits behind it write. -/
theorem map_natural?_eq_some_iff {digits : List Char} {signed : Nat → Int} {number : Int} :
    (natural? digits).map signed = some number ↔
      IsNumeral digits ∧ signed (placeValue digits) = number := by
  simp only [Option.map_eq_some_iff, natural?_eq_some_iff]
  constructor
  · rintro ⟨_, ⟨numeral, rfl⟩, value⟩
    exact ⟨numeral, value⟩
  · rintro ⟨numeral, value⟩
    exact ⟨_, ⟨numeral, rfl⟩, value⟩

/-! ## Signs -/

section Sign

variable {digits : List Char}

theorem IsNumeral.natural? (numeral : IsNumeral digits) :
    natural? digits = some (placeValue digits) :=
  natural?_eq_some_iff.2 ⟨numeral, rfl⟩

theorem IsNumeral.integer? (numeral : IsNumeral digits) :
    integer? digits = some (placeValue digits : Int) := by
  unfold Decimal.integer?
  split
  next => exact absurd (numeral.ascii '+' List.mem_cons_self) (by decide)
  next => exact absurd (numeral.ascii '-' List.mem_cons_self) (by decide)
  next => exact map_natural?_eq_some_iff.2 ⟨numeral, rfl⟩

/-- Zeros in front keep a numeral one, and the number that it writes. -/
theorem IsNumeral.zeros (numeral : IsNumeral digits) (count : Nat) :
    IsNumeral (List.replicate count '0' ++ digits) where
  filled := by simp [numeral.filled]
  ascii := by
    refine List.forall_mem_append.2 ⟨fun char zero => ?_, numeral.ascii⟩
    rw [List.eq_of_mem_replicate zero]
    decide

end Sign

/-- Reading a word finds the number that it writes. -/
theorem integer?_eq_some_iff {word : List Char} {number : Int} :
    integer? word = some number ↔ Writes word number := by
  constructor
  · intro read
    unfold integer? at read
    split at read
    next digits =>
      obtain ⟨numeral, rfl⟩ := map_natural?_eq_some_iff.1 read
      exact .plus numeral
    next digits =>
      obtain ⟨numeral, rfl⟩ := map_natural?_eq_some_iff.1 read
      exact .minus numeral
    next =>
      obtain ⟨numeral, rfl⟩ := map_natural?_eq_some_iff.1 read
      exact .unsigned numeral
  · intro writes
    cases writes with
    | unsigned numeral => exact numeral.integer?
    | plus numeral | minus numeral => exact map_natural?_eq_some_iff.2 ⟨numeral, rfl⟩

/-- Zeros behind the sign change nothing. -/
theorem integer?_zeros {sign digits : List Char} (signed : sign ∈ [[], ['+'], ['-']])
    (numeral : IsNumeral digits) (zeros : Nat) :
    integer? (sign ++ (List.replicate zeros '0' ++ digits)) = integer? (sign ++ digits) := by
  have padded := numeral.zeros zeros
  simp only [List.mem_cons, List.not_mem_nil, or_false] at signed
  rcases signed with rfl | rfl | rfl
  · rw [List.nil_append, List.nil_append, padded.integer?, numeral.integer?, placeValue_zeros]
  all_goals
    simp only [List.singleton_append, integer?, padded.natural?, numeral.natural?,
      placeValue_zeros]

end Decimal

/-! ## Literals and targets -/

/-- A word is a literal exactly when it writes a number of 32 bits, and then it denotes the nearest
word of the register range. -/
theorem literal?_eq_some_iff {token : List Char} {word : Word} :
    literal? token = some word ↔
      ∃ number, Decimal.Writes token number ∧ -2 ^ 31 ≤ number ∧ number ≤ 2 ^ 31 - 1 ∧
        word.toInt = max (-999) (min 999 number) := by
  have least : Int32.minValue.toInt = -2 ^ 31 := by decide
  have greatest : Int32.maxValue.toInt = 2 ^ 31 - 1 := by decide
  -- A number of 32 bits is not changed by storing it, so saturating it is clamping it.
  have saturated : ∀ number : Int, -2 ^ 31 ≤ number → number ≤ 2 ^ 31 - 1 →
      (Word.saturate (Int32.ofInt number)).toInt = max (-999) (min 999 number) := by
    intro number low high
    have same : (Int32.ofInt number).toInt = number :=
      Int32.toInt_ofInt_of_le low (by omega)
    rw [Word.toInt_saturate, same]
    rfl
  simp only [literal?, Option.map_eq_some_iff, Option.filter_eq_some_iff,
    Decimal.integer?_eq_some_iff, decide_eq_true_eq, least, greatest]
  constructor
  · rintro ⟨number, ⟨writes, low, high⟩, rfl⟩
    exact ⟨number, writes, low, high, saturated number low high⟩
  · rintro ⟨number, writes, low, high, nearest⟩
    refine ⟨number, ⟨writes, low, high⟩, Int16.toInt_inj.1 ?_⟩
    rw [saturated number low high, nearest]

/-- The words that name targets, each with its target. -/
def targetWords : List (List Char × Target) :=
  [("UP".toList, .port .up), ("DOWN".toList, .port .down), ("LEFT".toList, .port .left),
    ("RIGHT".toList, .port .right), ("ANY".toList, .any), ("LAST".toList, .last),
    ("ACC".toList, .acc), ("NIL".toList, .nil)]

theorem mem_targetWords_iff {token : List Char} {target : Target} :
    (token, target) ∈ targetWords ↔ token = target.name.toList := by
  constructor
  · have names : ∀ entry ∈ targetWords, entry.1 = entry.2.name.toList := by decide
    exact names (token, target)
  · rintro rfl
    cases target with
    | port side => cases side <;> decide
    | acc | nil | any | last => decide

theorem Target.ofText?_eq_some_iff {token : List Char} {target : Target} :
    Target.ofText? token = some target ↔ (token, target) ∈ targetWords := by
  rw [mem_targetWords_iff]
  constructor
  · intro found
    have named := List.find?_some found
    exact (of_decide_eq_true named).symm
  · rintro rfl
    exact Target.ofText?_name target

/-- The name of a target writes no number. -/
theorem literal?_of_mem_targetWords {token : List Char} {target : Target}
    (named : (token, target) ∈ targetWords) : literal? token = none := by
  have unread : ∀ entry ∈ targetWords, literal? entry.1 = none := by decide
  exact unread (token, target) named

/-- Words are told apart exactly.  A literal is one or more digits behind at most one sign that
write a number of 32 bits, and it is the nearest word of the register range.  The eight names are
targets, and no word is both.  Every word of the range is the literal that its number writes, and
zeros behind the sign change nothing. -/
theorem operands_classified :
    (∀ token word, literal? token = some word ↔
      ∃ number, Decimal.Writes token number ∧ -2 ^ 31 ≤ number ∧ number ≤ 2 ^ 31 - 1 ∧
        word.toInt = max (-999) (min 999 number)) ∧
    (∀ token target, Operand.ofText? token = some (.target target) ↔
      (token, target) ∈ targetWords) ∧
    (∀ token word, Operand.ofText? token = some (.literal word) ↔ literal? token = some word) ∧
    (∀ token target, (token, target) ∈ targetWords → literal? token = none) ∧
    (∀ word : Word, word.InRange → literal? (Decimal.written word.toInt) = some word) ∧
    (∀ sign digits zeros, sign ∈ [[], ['+'], ['-']] → Decimal.IsNumeral digits →
      literal? (sign ++ (List.replicate zeros '0' ++ digits)) = literal? (sign ++ digits)) := by
  refine ⟨fun token word => literal?_eq_some_iff, fun token target => ?_, fun token word => ?_,
    fun token target => literal?_of_mem_targetWords, fun word => literal?_written, ?_⟩
  · rw [← Target.ofText?_eq_some_iff, Operand.ofText?]
    cases Target.ofText? token <;> simp
  · rw [Operand.ofText?]
    cases named : Target.ofText? token with
    | none => simp
    | some target =>
        have unread := literal?_of_mem_targetWords (Target.ofText?_eq_some_iff.1 named)
        simp [unread]
  · intro sign digits zeros signed numeral
    rw [literal?, Decimal.integer?_zeros signed numeral, literal?]

/-- The least number of 32 bits, with zeros in front, is saturated. -/
theorem leastNumber_classified :
    Word.InRange (-999) ∧ Decimal.IsNumeral "2147483648".toList ∧
      literal? (Decimal.written (Int16.toInt (-999))) = some (-999) ∧
      literal? "-0002147483648".toList = some (-999) ∧
      literal? "-2147483649".toList = none ∧ literal? "2147483648".toList = none := by
  have inside : Word.InRange (-999) := ⟨by decide, by decide⟩
  have numeral : Decimal.IsNumeral "2147483648".toList :=
    ⟨by decide, List.all_eq_true.1 (by decide)⟩
  have ⟨_, _, _, _, written, padded⟩ := operands_classified
  refine ⟨inside, numeral, written _ inside, ?_, by decide, by decide⟩
  exact (padded ['-'] _ 3 (by decide) numeral).trans (by decide)

end NodeGrid
