import NodeGrid.Proofs.Text.Uppercase

/-!
# Upper case put into upper case

A text in upper case is its own upper-case form.  The code points that change and those that they
change into are written as sets of bits, which have nothing in common.  So no character of an
upper-case form changes again.
-/

namespace NodeGrid.Text

/-! ## Sets of code points as numbers -/

/-- The number whose bits are at these code points. -/
def codeBits (codes : List Nat) : Nat :=
  codes.foldr (fun code bits => 1 <<< code ||| bits) 0

/-- The number whose bits are at the code points of these groups. -/
def groupBits (groups : List (List Nat)) : Nat :=
  groups.foldr (fun codes bits => codeBits codes ||| bits) 0

theorem testBit_codeBits {codes : List Nat} {code : Nat} :
    (codeBits codes).testBit code ↔ code ∈ codes := by
  induction codes with
  | nil => simp [codeBits]
  | cons first others ih =>
      have split : codeBits (first :: others) = 1 <<< first ||| codeBits others := rfl
      rw [split, Nat.testBit_or, Bool.or_eq_true, ih, Nat.one_shiftLeft, Nat.testBit_two_pow,
        decide_eq_true_eq, List.mem_cons, eq_comm]

theorem testBit_groupBits {groups : List (List Nat)} {code : Nat} :
    (groupBits groups).testBit code ↔ ∃ codes ∈ groups, code ∈ codes := by
  induction groups with
  | nil => simp [groupBits]
  | cons first others ih =>
      have split : groupBits (first :: others) = codeBits first ||| groupBits others := rfl
      rw [split, Nat.testBit_or, Bool.or_eq_true, testBit_codeBits, ih]
      simp

/-! ## Code points that change -/

/-- The code points of a run. -/
def UpperRun.codes (run : UpperRun) : List Nat :=
  List.range' run.first ((run.last - run.first) / run.step + 1) run.step

/-- The code points that have another upper-case form. -/
def changingCodes : List (List Nat) :=
  List.range' 'a'.toNat 26 :: upperExpansions.map (·.1) :: upperRuns.map UpperRun.codes

/-- The code points of the upper-case forms of those above ASCII. -/
def imageCodes : List (List Nat) :=
  upperExpansions.map (·.2) ++ upperRuns.map fun run => run.codes.map run.image

theorem UpperRun.mem_codes {run : UpperRun} {code : Nat} (covers : run.covers code) :
    code ∈ run.codes := by
  simp only [UpperRun.covers, Bool.and_eq_true, decide_eq_true_eq] at covers
  obtain ⟨⟨above, below⟩, steps⟩ := covers
  refine List.mem_range'.2 ⟨(code - run.first) / run.step, ?_, ?_⟩
  · exact Nat.lt_succ_of_le (Nat.div_le_div_right (by omega))
  · rw [Nat.mul_div_cancel' (Nat.dvd_of_mod_eq_zero steps)]
    omega

/-- What a code point changes into does not change. -/
theorem not_changing_of_image {code : Nat} (image : ∃ codes ∈ imageCodes, code ∈ codes) :
    ¬∃ codes ∈ changingCodes, code ∈ codes := by
  have apart : groupBits changingCodes &&& groupBits imageCodes = 0 := by
    decide +kernel
  intro changing
  have bit := congrArg (Nat.testBit · code) apart
  rw [Nat.testBit_and, testBit_groupBits.2 changing, testBit_groupBits.2 image] at bit
  simp at bit

/-- A character that does not change is its own upper-case form. -/
theorem upperChar_of_not_changing {char : Char}
    (fixed : ¬∃ codes ∈ changingCodes, char.toNat ∈ codes) : upperChar char = [char] := by
  simp only [not_exists, not_and] at fixed
  obtain ⟨letter, others⟩ := List.forall_mem_cons.1 fixed
  obtain ⟨expands, covered⟩ := List.forall_mem_cons.1 others
  have plain : upperExpansions.find? (fun entry => entry.1 = char.toNat) = none := by
    refine List.find?_eq_none.2 fun entry listed same => expands ?_
    exact List.mem_map.2 ⟨entry, listed, by simpa using same⟩
  have alone : upperRuns.find? (fun run => run.covers char.toNat) = none := by
    refine List.find?_eq_none.2 fun run listed covers => ?_
    exact covered _ (List.mem_map_of_mem listed) (UpperRun.mem_codes covers)
  rw [upperChar, plain, alone]
  split
  next ascii =>
    have table : ∀ code < 0x80, code ∉ List.range' 'a'.toNat 26 →
        (Char.ofNat code).toUpper = Char.ofNat code := by
      decide +kernel
    have same := table char.toNat ascii letter
    rw [Char.ofNat_toNat] at same
    rw [same]
  next => rfl

theorem upperChar_of_image {code : Nat} (image : ∃ codes ∈ imageCodes, code ∈ codes) :
    upperChar (Char.ofNat code) = [Char.ofNat code] := by
  rcases toNat_ofNat code with same | zero
  · exact upperChar_of_not_changing (by rw [same]; exact not_changing_of_image image)
  · rw [show Char.ofNat code = Char.ofNat 0 from Char.toNat_inj.1 zero]
    decide

/-- A character of an upper-case form is its own upper-case form. -/
theorem upperChar_of_mem_upperChar {char image : Char} (mem : image ∈ upperChar char) :
    upperChar image = [image] := by
  unfold upperChar at mem
  split at mem
  case isTrue ascii =>
    have table : ∀ code < 0x80,
        upperChar (Char.ofNat code).toUpper = [(Char.ofNat code).toUpper] := by
      decide +kernel
    obtain rfl := List.mem_singleton.1 mem
    simpa using table char.toNat ascii
  case isFalse other =>
    split at mem
    case h_1 codes found =>
      obtain ⟨code, listed, rfl⟩ := List.mem_map.1 mem
      refine upperChar_of_image ⟨codes, List.mem_append_left _ ?_, listed⟩
      exact List.mem_map.2 ⟨_, List.mem_of_find?_eq_some found, rfl⟩
    case h_2 plain =>
      split at mem
      case h_1 run found =>
        have covers : run.covers char.toNat := by simpa using List.find?_some found
        obtain rfl := List.mem_singleton.1 mem
        refine upperChar_of_image ⟨run.codes.map run.image, List.mem_append_right _ ?_, ?_⟩
        · exact List.mem_map.2 ⟨run, List.mem_of_find?_eq_some found, rfl⟩
        · exact List.mem_map_of_mem (UpperRun.mem_codes covers)
      case h_2 alone =>
        obtain rfl := List.mem_singleton.1 mem
        rw [upperChar, if_neg other, plain, alone]

/-- A text in upper case is its own upper-case form. -/
theorem upper_upper (text : List Char) : upper (upper text) = upper text := by
  refine upper_eq_self fun image mem => ?_
  obtain ⟨char, -, listed⟩ := List.mem_flatMap.1 mem
  exact upperChar_of_mem_upperChar listed

end NodeGrid.Text
