import Mathlib.Data.List.Infix
import NodeGrid.Text.Bytes

/-!
# Offsets

A number of bytes is an offset of a text when it leads to one of its ends or between two of its
characters.  Any other number that the text is long enough for leads inside of a character.  The
part of a text that has room in some bytes ends at the last offset that they reach, so it has all
offsets of the text up to their number.
-/

namespace NodeGrid.Text

/-- A part is the longest initial part of a text that has room in a number of bytes. -/
structure IsLongestPrefix (room : Nat) (text part : List Char) : Prop where
  initial : part <+: text
  fits : byteLength part ≤ room
  longest : ∀ other, other <+: text → byteLength other ≤ room → other <+: part

/-- Some initial part of a text has this number of bytes. -/
def IsOffset (text : List Char) (offset : Nat) : Prop :=
  ∃ before, before <+: text ∧ byteLength before = offset

/-- A number of bytes leads behind the first byte of a character, and not behind its last one. -/
def IsInside (text : List Char) (offset : Nat) : Prop :=
  ∃ before char, before ++ [char] <+: text ∧ byteLength before < offset ∧
    offset < byteLength before + char.utf8Size

variable {text : List Char} {offset room : Nat}

theorem byteLength_le_of_sublist {text longer : List Char} (sublist : text.Sublist longer) :
    byteLength text ≤ byteLength longer := by
  induction sublist with
  | slnil => exact le_rfl
  | cons char _ ih => exact ih.trans (Nat.le_add_left _ _)
  | cons_cons char _ ih => exact Nat.add_le_add_left ih _

theorem isLongestPrefix_fitting (room : Nat) (text : List Char) :
    IsLongestPrefix room text (fitting room text) := by
  induction text generalizing room with
  | nil =>
      exact
        { initial := List.prefix_rfl
          fits := Nat.zero_le room
          longest := fun _ initial _ => initial }
  | cons char rest ih =>
      have part := ih (room - char.utf8Size)
      by_cases fits : char.utf8Size ≤ room
      · rw [fitting, if_pos fits]
        exact
          { initial := (List.prefix_cons_inj char).2 part.initial
            fits := by
              have others := part.fits
              rw [byteLength_cons]
              omega
            longest := by
              intro other initial short
              cases other with
              | nil => exact List.nil_prefix
              | cons first others =>
                  obtain ⟨rfl, behind⟩ := List.cons_prefix_cons.1 initial
                  rw [byteLength_cons] at short
                  exact (List.prefix_cons_inj first).2 (part.longest others behind (by omega)) }
      · rw [fitting, if_neg fits]
        exact
          { initial := List.nil_prefix
            fits := Nat.zero_le room
            longest := by
              intro other initial short
              cases other with
              | nil => exact List.nil_prefix
              | cons first others =>
                  obtain ⟨rfl, -⟩ := List.cons_prefix_cons.1 initial
                  rw [byteLength_cons] at short
                  omega }

/-- An offset does not lead inside of a character. -/
theorem IsOffset.not_isInside (between : IsOffset text offset) : ¬IsInside text offset := by
  rintro ⟨part, char, longer, above, below⟩
  obtain ⟨before, initial, rfl⟩ := between
  -- Of two initial parts one is initial in the other, and neither fits in.
  cases List.prefix_or_prefix_of_prefix initial longer with
  | inl shorter =>
      cases List.prefix_concat_iff.1 shorter with
      | inl same =>
          rw [same, byteLength_append, byteLength_cons, byteLength_nil] at below
          omega
      | inr short => exact absurd (byteLength_le_of_sublist short.sublist) (not_le.2 above)
  | inr long =>
      have bytes := byteLength_le_of_sublist long.sublist
      rw [byteLength_append, byteLength_cons, byteLength_nil] at bytes
      omega

/-- Up to the end of a text, a number of bytes leads between characters or inside of one. -/
theorem isOffset_iff_not_isInside (reached : offset ≤ byteLength text) :
    IsOffset text offset ↔ ¬IsInside text offset := by
  refine ⟨IsOffset.not_isInside, fun outside => ?_⟩
  obtain ⟨⟨rest, whole⟩, fits, longest⟩ := isLongestPrefix_fitting offset text
  refine ⟨fitting offset text, ⟨rest, whole⟩, ?_⟩
  by_contra short
  cases rest with
  | nil =>
      rw [List.append_nil] at whole
      rw [whole] at fits short
      omega
  | cons char others =>
      have initial : fitting offset text ++ [char] <+: text :=
        ⟨others, by rw [List.append_assoc, List.singleton_append, whole]⟩
      -- The next character does not fit, so the number leads inside of it.
      refine outside ⟨_, char, initial, by omega, ?_⟩
      by_contra room
      have bytes : byteLength (fitting offset text ++ [char]) ≤ offset := by
        rw [byteLength_append, byteLength_cons, byteLength_nil]
        omega
      have lengths := (longest _ initial bytes).length_le
      rw [List.length_append, List.length_singleton] at lengths
      omega

/-- A text that is cut keeps the offsets up to the room that there is. -/
theorem isOffset_fitting_iff (within : offset ≤ room) :
    IsOffset (fitting room text) offset ↔ IsOffset text offset := by
  have cut := isLongestPrefix_fitting room text
  constructor
  · rintro ⟨before, initial, bytes⟩
    exact ⟨before, initial.trans cut.initial, bytes⟩
  · rintro ⟨before, initial, rfl⟩
    exact ⟨before, cut.longest before initial within, rfl⟩

end NodeGrid.Text
