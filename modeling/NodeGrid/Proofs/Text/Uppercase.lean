import Mathlib.Data.List.Induction
import NodeGrid.Text.Uppercase
import NodeGrid.Proofs.Text.Words

/-!
# Upper case and the parts of a text

Lines are divided at white space, commas, colons and hashes.  No other character has one of them in
its upper-case form, and each of them is its own upper-case form.  A class of characters that only
tells separators apart therefore finds the same parts before and after a text is put into upper
case.
-/

namespace NodeGrid.Text

/-- The code points of the characters at which lines are divided. -/
def separatorCodes : List Nat :=
  blankCodes ++ [',', ':', '#'].map Char.toNat

/-- A character at which lines are divided. -/
def isSeparator (char : Char) : Bool :=
  separatorCodes.contains char.toNat

/-! ## Characters -/

theorem isSeparator_iff {char : Char} : isSeparator char ↔ char.toNat ∈ separatorCodes := by
  simp [isSeparator]

/-- A number is the code point of its character, unless it is none and the character is zero. -/
theorem toNat_ofNat (code : Nat) :
    (Char.ofNat code).toNat = code ∨ (Char.ofNat code).toNat = 0 := by
  by_cases valid : code.isValidChar
  · exact .inl (congrArg Char.toNat (dif_pos valid))
  · exact .inr (congrArg Char.toNat (dif_neg valid))

theorem isSeparator_ofNat {code : Nat} (separator : isSeparator (Char.ofNat code)) :
    code ∈ separatorCodes := by
  have known := isSeparator_iff.1 separator
  rcases toNat_ofNat code with same | zero
  · rwa [same] at known
  -- The character zero is no separator.
  · rw [zero] at known
    exact absurd known (by decide)

/-- A separator is its own upper-case form. -/
theorem upperChar_separator {char : Char} (separator : isSeparator char) :
    upperChar char = [char] := by
  have table : ∀ code ∈ separatorCodes, upperChar (Char.ofNat code) = [Char.ofNat code] := by
    decide +kernel
  simpa using table char.toNat (isSeparator_iff.1 separator)

/-- The image of a run leaves out a code point when the run is moved to one side of it. -/
theorem UpperRun.image_ne {run : UpperRun} {code avoided : Nat} (covers : run.covers code)
    (positive : 0 < avoided)
    (aside : (avoided : Int) < run.first + run.shift ∨ run.last + run.shift < (avoided : Int)) :
    run.image code ≠ avoided := by
  simp only [UpperRun.covers, Bool.and_eq_true, decide_eq_true_eq] at covers
  simp only [UpperRun.image, Int.ofNat_eq_natCast]
  omega

/-- A separator is in the upper-case form of no other character. -/
theorem isSeparator_of_mem_upperChar {char image : Char} (mem : image ∈ upperChar char)
    (separator : isSeparator image) : isSeparator char := by
  unfold upperChar at mem
  split at mem
  case isTrue ascii =>
    have table : ∀ code < 0x80, isSeparator (Char.ofNat code).toUpper →
        isSeparator (Char.ofNat code) := by
      decide +kernel
    obtain rfl := List.mem_singleton.1 mem
    simpa using table char.toNat ascii (by simpa using separator)
  case isFalse =>
    split at mem
    case h_1 codes found =>
      have table : ∀ entry ∈ upperExpansions, ∀ code ∈ entry.2, code ∉ separatorCodes := by
        decide +kernel
      obtain ⟨code, listed, rfl⟩ := List.mem_map.1 mem
      exact absurd (isSeparator_ofNat separator)
        (table _ (List.mem_of_find?_eq_some found) code listed)
    case h_2 =>
      split at mem
      case h_1 run found =>
        have table : ∀ run ∈ upperRuns, ∀ avoided ∈ separatorCodes,
            (avoided : Int) < run.first + run.shift ∨ run.last + run.shift < (avoided : Int) := by
          decide +kernel
        have positive : ∀ code ∈ separatorCodes, 0 < code := by decide
        obtain rfl := List.mem_singleton.1 mem
        have listed := isSeparator_ofNat separator
        have covers : run.covers char.toNat := by simpa using List.find?_some found
        exact absurd rfl (UpperRun.image_ne covers (positive _ listed)
          (table run (List.mem_of_find?_eq_some found) _ listed))
      case h_2 =>
        obtain rfl := List.mem_singleton.1 mem
        exact separator

theorem eq_of_mem_upperChar {char image : Char} (mem : image ∈ upperChar char)
    (separator : isSeparator image) : image = char := by
  rw [upperChar_separator (isSeparator_of_mem_upperChar mem separator)] at mem
  exact List.mem_singleton.1 mem

theorem upperChar_ne_nil (char : Char) : upperChar char ≠ [] := by
  unfold upperChar
  split
  · simp
  · split
    case h_1 codes found =>
      have table : ∀ entry ∈ upperExpansions, entry.2 ≠ [] := by decide
      simpa using table _ (List.mem_of_find?_eq_some found)
    case h_2 => split <;> simp

/-! ## Texts -/

@[simp] theorem upper_nil : upper [] = [] := rfl

@[simp] theorem upper_cons (char : Char) (rest : List Char) :
    upper (char :: rest) = upperChar char ++ upper rest := rfl

@[simp] theorem upper_append (first second : List Char) :
    upper (first ++ second) = upper first ++ upper second := by
  simp [upper]

@[simp] theorem upper_eq_nil_iff {text : List Char} : upper text = [] ↔ text = [] := by
  cases text <;> simp [upperChar_ne_nil]

/-- A text of characters without a different upper-case form is kept as it is. -/
theorem upper_eq_self {text : List Char} (fixed : ∀ char ∈ text, upperChar char = [char]) :
    upper text = text := by
  induction text with
  | nil => rfl
  | cons char rest ih =>
      obtain ⟨same, others⟩ := List.forall_mem_cons.1 fixed
      rw [upper_cons, same, ih others, List.singleton_append]

theorem isSeparator_of_isBlank {char : Char} (blank : isBlank char) : isSeparator char := by
  have listed : char.toNat ∈ blankCodes := by simpa [isBlank] using blank
  exact isSeparator_iff.2 (List.mem_append_left _ listed)

/-- An ASCII character that divides no line and is its own upper-case form. -/
def IsPlain (char : Char) : Prop :=
  char.toNat < 0x80 ∧ isSeparator char = false ∧ upperChar char = [char]

instance (char : Char) : Decidable (IsPlain char) :=
  inferInstanceAs (Decidable (_ ∧ _))

theorem IsPlain.isBlank {char : Char} (plain : IsPlain char) : isBlank char = false := by
  cases blank : Text.isBlank char with
  | false => rfl
  | true =>
      have separator := isSeparator_of_isBlank blank
      rw [plain.2.1] at separator
      cases separator

theorem IsPlain.ne {char mark : Char} (plain : IsPlain char) (separator : isSeparator mark) :
    char ≠ mark := by
  rintro rfl
  rw [plain.2.1] at separator
  cases separator

/-- A class to which the characters of an upper-case form belong exactly when the character itself
does. -/
def Caseless (accept : Char → Bool) : Prop :=
  ∀ char, ∀ image ∈ upperChar char, accept image = accept char

/-- A class that only tells separators apart is caseless. -/
theorem caseless_of_separators {accept : Char → Bool} (default : Bool)
    (elsewhere : ∀ char, isSeparator char = false → accept char = default) :
    Caseless accept := by
  intro char image mem
  cases separator : isSeparator char with
  | true =>
      rw [upperChar_separator separator, List.mem_singleton] at mem
      rw [mem]
  | false =>
      have outside : isSeparator image = false := by
        cases inside : isSeparator image with
        | false => rfl
        | true => rw [isSeparator_of_mem_upperChar mem inside] at separator; cases separator
      rw [elsewhere char separator, elsewhere image outside]

namespace Caseless

variable {accept : Char → Bool}

theorem not (caseless : Caseless accept) : Caseless (!accept ·) := by
  intro char image mem
  exact congrArg Bool.not (caseless char image mem)

theorem takeWhile_upper (caseless : Caseless accept) (text : List Char) :
    (upper text).takeWhile accept = upper (text.takeWhile accept) := by
  induction text with
  | nil => rfl
  | cons char rest ih =>
      cases inside : accept char with
      | true =>
          have all : ∀ image ∈ upperChar char, accept image := fun image mem => by
            rw [caseless char image mem, inside]
          rw [upper_cons, List.takeWhile_append_of_pos all, ih,
            List.takeWhile_cons_of_pos inside, upper_cons]
      | false =>
          rw [List.takeWhile_cons_of_neg (by simp [inside]), upper_cons]
          cases image : upperChar char with
          | nil => exact absurd image (upperChar_ne_nil char)
          | cons head tail =>
              have outside : accept head = false := by
                rw [caseless char head (by simp [image]), inside]
              rw [List.cons_append, List.takeWhile_cons_of_neg (by simp [outside]), upper_nil]

theorem dropWhile_upper (caseless : Caseless accept) (text : List Char) :
    (upper text).dropWhile accept = upper (text.dropWhile accept) := by
  have parts : upper (text.takeWhile accept) ++ (upper text).dropWhile accept =
      upper (text.takeWhile accept) ++ upper (text.dropWhile accept) := by
    rw [← upper_append, List.takeWhile_append_dropWhile, ← caseless.takeWhile_upper,
      List.takeWhile_append_dropWhile]
  exact List.append_cancel_left parts

/-- The words of a text in upper case are its words in upper case. -/
theorem words_upper (caseless : Caseless accept) (text : List Char) :
    words accept (upper text) = (words accept text).map upper := by
  -- By recursion on the text: behind a character outside the class, and behind the first word.
  match text with
  | [] => rfl
  | char :: rest =>
      cases inside : accept char with
      | false =>
          have outside : ∀ image ∈ upperChar char, accept image = false := fun image mem => by
            rw [caseless char image mem, inside]
          rw [words_cons_of_not inside, ← words_upper caseless rest, upper_cons,
            words_append_of_not outside]
      | true =>
          have shorter : ((char :: rest).dropWhile accept).length < (char :: rest).length := by
            rw [List.dropWhile_cons_of_pos inside]
            exact Nat.lt_succ_of_le (List.dropWhile_suffix accept).length_le
          have filled : (char :: rest).takeWhile accept ≠ [] := by simp [inside]
          rw [words_takeWhile, caseless.takeWhile_upper, caseless.dropWhile_upper,
            words_upper caseless ((char :: rest).dropWhile accept), words_takeWhile (char :: rest)]
          simp [filled]
  termination_by text.length
  decreasing_by
    · exact Nat.lt_succ_self _
    · exact shorter

end Caseless

/-! ## White space -/

theorem caseless_isBlank : Caseless isBlank := by
  refine caseless_of_separators false fun char other => ?_
  cases blank : isBlank char with
  | false => rfl
  | true => rw [isSeparator_of_isBlank blank] at other; cases other

theorem trimEnd_upper (text : List Char) : trimEnd (upper text) = upper (trimEnd text) := by
  induction text using List.reverseRecOn with
  | nil => rfl
  | append_singleton rest char ih =>
      have single : upper [char] = upperChar char := by simp
      cases blank : isBlank char with
      | true =>
          have blanks : ∀ image ∈ upperChar char, isBlank image := fun image mem => by
            rw [caseless_isBlank char image mem, blank]
          rw [upper_append, single, trimEnd_append blanks, ih,
            trimEnd_append (List.forall_mem_singleton.2 blank)]
      | false =>
          have ends : upperChar char ≠ [] := upperChar_ne_nil char
          have last : isBlank ((upperChar char).getLast ends) = false := by
            rw [caseless_isBlank char _ (List.getLast_mem ends), blank]
          rw [trimEnd_concat rest blank, upper_append, single, ← List.dropLast_concat_getLast ends,
            ← List.append_assoc, trimEnd_concat _ last]

end NodeGrid.Text
