import Mathlib.Data.List.DropRight
import NodeGrid.Proofs.Assembly.Line

/-!
# Where the parts of a line stand

Reading hands on what is left of a line together with an offset, and every token records the offset
at which it was found.  The invariant is that what is left is the end of the line and that the
offset counts the bytes before it.  So a token can be found again in the line by its offset alone,
and it is cut at characters.
-/

namespace NodeGrid

open Text

/-! ## Trimming -/

namespace Text

theorem trimEnd_eq_rdropWhile (text : List Char) : trimEnd text = text.rdropWhile isBlank := rfl

theorem trimEnd_isPrefix (text : List Char) : trimEnd text <+: text :=
  List.rdropWhile_prefix isBlank text

/-- No white space is left at the end. -/
theorem isBlank_getLast_trimEnd {text : List Char} {char : Char}
    (last : char ∈ (trimEnd text).getLast?) : isBlank char = false := by
  obtain ⟨filled, rfl⟩ := List.mem_getLast?_eq_getLast last
  simpa only [trimEnd_eq_rdropWhile, Bool.not_eq_true] using
    List.rdropWhile_last_not isBlank text filled

/-- A text that starts with another character than white space is not trimmed to nothing, and it
starts as before. -/
theorem head?_trimEnd {text : List Char} (starts : ∀ char ∈ text.head?, isBlank char = false) :
    (trimEnd text).head? = text.head? := by
  obtain ⟨blanks, whole⟩ := trimEnd_isPrefix text
  cases trimmed : trimEnd text with
  | cons char rest => rw [← whole, trimmed, List.cons_append, List.head?_cons, List.head?_cons]
  | nil =>
      have blank := trimEnd_eq_nil_iff.1 trimmed
      cases text with
      | nil => rfl
      | cons char rest =>
          have other := starts char rfl
          rw [blank char List.mem_cons_self] at other
          cases other

theorem byteLength_pos {text : List Char} (filled : text ≠ []) : 0 < byteLength text := by
  cases text with
  | nil => exact absurd rfl filled
  | cons char rest => exact Nat.add_pos_left char.utf8Size_pos _

end Text

namespace Assembly

/-- What is left of a line is its end, and the offset counts the bytes before it. -/
def Remainder.EndOf (rest : Remainder) (text : List Char) : Prop :=
  ∃ before, text = before ++ rest.text ∧ rest.offset = byteLength before

/-- A token is a piece of a line that starts at the offset of the token.  It is not empty, and there
is no white space at either end of it. -/
structure Token.StandsIn (token : Token) (text : List Char) : Prop where
  piece : ∃ before after, text = before ++ token.text ++ after ∧ token.start = byteLength before
  filled : token.text ≠ []
  starts : ∀ char ∈ token.text.head?, isBlank char = false
  ends : ∀ char ∈ token.text.getLast?, isBlank char = false

namespace Remainder

variable {rest : Remainder} {text : List Char}

theorem endOf_start (text : List Char) : (⟨0, text⟩ : Remainder).EndOf text :=
  ⟨[], rfl, rfl⟩

namespace EndOf

/-- Passing over a piece moves the offset behind it. -/
theorem pass (ends : rest.EndOf text) {piece after : List Char}
    (next : rest.text = piece ++ after) :
    (⟨rest.offset + byteLength piece, after⟩ : Remainder).EndOf text := by
  obtain ⟨before, whole, counted⟩ := ends
  refine ⟨before ++ piece, ?_, ?_⟩
  · rw [whole, next, List.append_assoc]
  · rw [byteLength_append, counted]

theorem skip (ends : rest.EndOf text) (accept : Char → Bool) : (rest.skip accept).EndOf text :=
  ends.pass List.takeWhile_append_dropWhile.symm

theorem skipBlank (ends : rest.EndOf text) : rest.skipBlank.EndOf text :=
  ends.skip isBlank

theorem skipComma (ends : rest.EndOf text) : rest.skipComma.EndOf text := by
  unfold Remainder.skipComma
  split
  next after comma =>
    have next : rest.text = [','] ++ after := comma
    exact ends.pass next
  next => exact ends

/-- A token of the piece that comes next stands in the line. -/
theorem token? (ends : rest.EndOf text) {piece : List Char} {token : Token}
    (found : rest.token? piece = some token) (next : piece <+: rest.text)
    (solid_start : ∀ char ∈ piece.head?, isBlank char = false)
    (solid_end : ∀ char ∈ piece.getLast?, isBlank char = false) : token.StandsIn text := by
  unfold Remainder.token? at found
  split at found
  next => cases found
  next filled =>
    cases found
    obtain ⟨before, whole, counted⟩ := ends
    obtain ⟨after, behind⟩ := next
    exact
      { piece := ⟨before, after, by rw [whole, ← behind, List.append_assoc], counted⟩
        filled
        starts := solid_start
        ends := solid_end }

/-- A word of a class without white space stands in the line. -/
theorem word? (ends : rest.EndOf text) {accept : Char → Bool} {token : Token}
    (solid : ∀ char, accept char → isBlank char = false)
    (found : rest.word? accept = some token) : token.StandsIn text := by
  have inside : ∀ char ∈ rest.text.takeWhile accept, isBlank char = false :=
    fun char member => solid char (List.mem_takeWhile_imp member)
  exact ends.token? found (List.takeWhile_prefix accept)
    (fun char first => inside char (List.mem_of_mem_head? first))
    (fun char last => inside char (List.mem_of_mem_getLast? last))

/-- All that is left behind white space, trimmed, stands in the line. -/
theorem trimmed (ends : rest.EndOf text) {token : Token}
    (found : rest.skipBlank.token? (trimEnd rest.skipBlank.text) = some token) :
    token.StandsIn text := by
  have starts : ∀ char ∈ rest.skipBlank.text.head?, isBlank char = false := by
    intro char first
    have stops := List.head?_dropWhile_not isBlank rest.text
    rw [← skipBlank_text, Option.mem_def.1 first] at stops
    simpa using stops
  apply ends.skipBlank.token? found (trimEnd_isPrefix _)
  · rw [head?_trimEnd starts]
    exact starts
  · exact fun char => isBlank_getLast_trimEnd

end EndOf

end Remainder

theorem not_isBlank_of_isOperandChar (char : Char) (inside : isOperandChar char) :
    isBlank char = false := by
  simp only [isOperandChar, Bool.and_eq_true, Bool.not_eq_true'] at inside
  exact inside.2

theorem not_isBlank_of_isMnemonicChar (char : Char) (inside : isMnemonicChar char) :
    isBlank char = false := by
  simpa [isMnemonicChar] using inside

/-! ## Statements -/

/-- The tokens of a statement by their place: the mnemonic, the two operands, and what is left
over. -/
def Statement.place? (statement : Statement) : Nat → Option Token
  | 0 => some statement.mnemonic
  | 1 => statement.first
  | 2 => statement.second
  | 3 => statement.excess
  | _ => none

/-- The tokens of the operands stand in the line. -/
theorem Remainder.EndOf.readOperands {rest : Remainder} {text : List Char} (ends : rest.EndOf text)
    {mnemonic : Token} (stands : mnemonic.StandsIn text) {place : Nat} {token : Token}
    (there : (readOperands mnemonic rest).place? place = some token) : token.StandsIn text := by
  have atFirst := ends.skipBlank
  have atSecond := (atFirst.skip isOperandChar).skipBlank.skipComma.skipBlank
  have behind := atSecond.skip isOperandChar
  match place with
  | 0 =>
      cases there
      exact stands
  | 1 => exact atFirst.word? not_isBlank_of_isOperandChar there
  | 2 => exact atSecond.word? not_isBlank_of_isOperandChar there
  | 3 => exact behind.trimmed there
  | _ + 4 => cases there

/-- The tokens of a statement stand in the line. -/
theorem Remainder.EndOf.readStatement {rest : Remainder} {text : List Char}
    (ends : rest.EndOf text) {statement : Statement} (found : readStatement rest = some statement)
    {place : Nat} {token : Token} (there : statement.place? place = some token) :
    token.StandsIn text := by
  obtain ⟨mnemonic, word, rfl⟩ := Option.map_eq_some_iff.1 found
  have stands := ends.skipBlank.word? not_isBlank_of_isMnemonicChar word
  exact (ends.skipBlank.skip isMnemonicChar).readOperands stands there

/-! ## Lines -/

section Label

variable {rest : Remainder} {text line : List Char} (ends : rest.EndOf text)
variable (content : rest.text = Source.content line) (labelled : Source.IsLabelled line)
include ends content labelled

/-- The name of a label stands in the line. -/
theorem Remainder.EndOf.label :
    (⟨trimEnd (Source.beforeColon line), rest.offset⟩ : Token).StandsIn text := by
  have whole : Source.beforeColon line ++ Source.fromColon line = rest.text := by
    rw [content]
    exact List.takeWhile_append_dropWhile
  have solid : ∀ char ∈ (Source.beforeColon line).head?, isBlank char = false := by
    intro char first
    have stops := List.head?_dropWhile_not isBlank (stripComment line)
    obtain ⟨others, before⟩ := List.head?_eq_some_iff.1 first
    rw [← Source.content, ← content, ← whole, before, List.cons_append, List.head?_cons] at stops
    simpa using stops
  have filled : trimEnd (Source.beforeColon line) ≠ [] := by
    intro empty
    have same := head?_trimEnd solid
    rw [empty] at same
    exact labelled.2 (List.head?_eq_none_iff.1 same.symm)
  have found : rest.token? (trimEnd (Source.beforeColon line)) =
      some ⟨trimEnd (Source.beforeColon line), rest.offset⟩ := by
    rw [Remainder.token?, if_neg filled]
  apply ends.token? found ((trimEnd_isPrefix _).trans ⟨_, whole⟩)
  · rw [head?_trimEnd solid]
    exact solid
  · exact fun char => isBlank_getLast_trimEnd

/-- What follows the colon of a label is the end of the line. -/
theorem Remainder.EndOf.afterColon :
    (⟨rest.offset + byteLength (Source.beforeColon line) + 1,
      (Source.fromColon line).tail⟩ : Remainder).EndOf text := by
  obtain ⟨after, colon⟩ := Source.head?_fromColon labelled.1
  have whole : rest.text = (Source.beforeColon line ++ [':']) ++ after := by
    rw [content, List.append_assoc, List.singleton_append, ← colon]
    exact List.takeWhile_append_dropWhile.symm
  have passed := ends.pass whole
  rw [byteLength_append, ← Nat.add_assoc] at passed
  rw [colon]
  exact passed

end Label

namespace Line

variable {line : List Char}

theorem endOf_content (line : List Char) :
    (Remainder.skipBlank ⟨0, stripComment line⟩).EndOf (stripComment line) :=
  (Remainder.endOf_start _).skipBlank

/-- A line is not read when there is white space in the name of its label, which is then given
back. -/
theorem read_eq_error {label : Token} (fails : Line.read line = .error label) :
    Source.labelName? line = some label.text ∧ label.text.any isBlank ∧
      label.StandsIn (stripComment line) := by
  unfold Line.read at fails
  rw [readLabel_eq rfl] at fails
  by_cases labelled : Source.IsLabelled line
  · rw [if_pos labelled] at fails
    dsimp only at fails
    split at fails
    next other refused =>
      split at refused
      next blank =>
        cases refused
        cases fails
        exact ⟨if_pos labelled, blank, (endOf_content line).label rfl labelled⟩
      next => cases refused
    next => cases fails
  · rw [if_neg labelled] at fails
    cases fails

/-- The tokens of a line that is read stand in it, and there is no white space in its label. -/
theorem standsIn_of_read {parts : Line} (read : Line.read line = .ok parts) :
    (∀ label ∈ parts.label,
        label.text.any isBlank = false ∧ label.StandsIn (stripComment line)) ∧
      ∀ statement ∈ parts.statement, ∀ place token, statement.place? place = some token →
        token.StandsIn (stripComment line) := by
  unfold Line.read at read
  rw [readLabel_eq rfl] at read
  by_cases labelled : Source.IsLabelled line
  · rw [if_pos labelled] at read
    dsimp only at read
    split at read
    next => cases read
    next label rest found =>
      split at found
      next => cases found
      next solid =>
        cases found
        cases read
        constructor
        · rintro _ ⟨⟩
          exact ⟨Bool.eq_false_iff.2 solid, (endOf_content line).label rfl labelled⟩
        · intro statement found place token there
          exact ((endOf_content line).afterColon rfl labelled).readStatement found there
  · rw [if_neg labelled] at read
    cases read
    exact ⟨nofun, fun statement found place token there =>
      (endOf_content line).readStatement found there⟩

end Line

end Assembly

end NodeGrid
