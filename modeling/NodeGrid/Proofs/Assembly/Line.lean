import NodeGrid.Assembly.Line
import NodeGrid.Proofs.Text.Uppercase

/-!
# What stands on a line

A line is described here as text, without positions: the name of its label, its instruction part,
the mnemonic and the operands, which are all words of the rest, however many there are.  Reading a
line finds exactly these parts.  A statement has room for two operands only, and the last section
says which of the words it holds.  Putting a line into upper case puts its parts into upper case.
-/

namespace NodeGrid.Assembly

open Text

/-! ## The parts as text -/

namespace Source

/-- What stands on a line, without the comment and the white space in front. -/
def content (line : List Char) : List Char :=
  (stripComment line).dropWhile isBlank

/-- What stands before the first colon, or everything. -/
def beforeColon (line : List Char) : List Char :=
  (content line).takeWhile (· ≠ ':')

/-- The first colon and what follows it. -/
def fromColon (line : List Char) : List Char :=
  (content line).dropWhile (· ≠ ':')

/-- There is a colon on the line and something before it. -/
def IsLabelled (line : List Char) : Prop :=
  fromColon line ≠ [] ∧ beforeColon line ≠ []

instance (line : List Char) : Decidable (IsLabelled line) :=
  inferInstanceAs (Decidable (_ ∧ _))

/-- The name of the label on a line, as it is written. -/
def labelName? (line : List Char) : Option (List Char) :=
  if IsLabelled line then some (trimEnd (beforeColon line)) else none

/-- The instruction part of a line: everything, or what follows the colon of the label. -/
def statement (line : List Char) : List Char :=
  (if IsLabelled line then (fromColon line).tail else content line).dropWhile isBlank

/-- There is an instruction part on the line. -/
def HasStatement (line : List Char) : Prop :=
  statement line ≠ []

instance (line : List Char) : Decidable (HasStatement line) :=
  inferInstanceAs (Decidable (_ ≠ _))

/-- The mnemonic on a line, as it is written. -/
def mnemonic (line : List Char) : List Char :=
  (statement line).takeWhile isMnemonicChar

/-- What follows the mnemonic. -/
def arguments (line : List Char) : List Char :=
  (statement line).dropWhile isMnemonicChar

/-- The operands on a line, as they are written: the maximal runs of characters that are neither
commas nor white space. -/
def operands (line : List Char) : List (List Char) :=
  words isOperandChar (arguments line)

end Source

theorem hash_notMem_stripComment (line : List Char) : '#' ∉ stripComment line := by
  intro hash
  cases List.mem_takeWhile_imp hash

/-! ## Upper case -/

theorem caseless_isMnemonicChar : Caseless isMnemonicChar :=
  caseless_isBlank.not

theorem caseless_ne {mark : Char} (separator : isSeparator mark) : Caseless (· ≠ mark) := by
  refine caseless_of_separators true fun char other => ?_
  rw [decide_eq_true_eq]
  rintro rfl
  rw [separator] at other
  cases other

theorem caseless_isOperandChar : Caseless isOperandChar := by
  intro char image mem
  have no_comma : Caseless (· ≠ ',') := caseless_ne (by decide)
  have comma := no_comma char image mem
  simp only [isOperandChar, caseless_isBlank char image mem]
  simp_all

namespace Source

theorem content_upper (line : List Char) : content (upper line) = upper (content line) := by
  have comment : stripComment (upper line) = upper (stripComment line) :=
    (caseless_ne (by decide)).takeWhile_upper line
  rw [content, comment, caseless_isBlank.dropWhile_upper, content]

theorem beforeColon_upper (line : List Char) :
    beforeColon (upper line) = upper (beforeColon line) := by
  rw [beforeColon, content_upper, (caseless_ne (by decide)).takeWhile_upper, beforeColon]

theorem fromColon_upper (line : List Char) : fromColon (upper line) = upper (fromColon line) := by
  rw [fromColon, content_upper, (caseless_ne (by decide)).dropWhile_upper, fromColon]

theorem isLabelled_upper {line : List Char} : IsLabelled (upper line) ↔ IsLabelled line := by
  simp [IsLabelled, beforeColon_upper, fromColon_upper]

theorem labelName?_upper (line : List Char) :
    labelName? (upper line) = (labelName? line).map upper := by
  unfold labelName?
  by_cases labelled : IsLabelled line
  · rw [if_pos (isLabelled_upper.2 labelled), if_pos labelled, beforeColon_upper, trimEnd_upper,
      Option.map_some]
  · rw [if_neg (mt isLabelled_upper.1 labelled), if_neg labelled, Option.map_none]

theorem head?_fromColon {line : List Char} (found : fromColon line ≠ []) :
    ∃ after, fromColon line = ':' :: after := by
  have stops := List.head?_dropWhile_not (· ≠ ':') (content line)
  cases rest : fromColon line with
  | nil => exact absurd rest found
  | cons mark after =>
      rw [← fromColon, rest] at stops
      exact ⟨after, by simpa using stops⟩

theorem statement_upper (line : List Char) : statement (upper line) = upper (statement line) := by
  unfold statement
  by_cases labelled : IsLabelled line
  · obtain ⟨after, colon⟩ := head?_fromColon labelled.1
    have kept : upperChar ':' = [':'] := upperChar_separator (by decide)
    rw [if_pos (isLabelled_upper.2 labelled), if_pos labelled, fromColon_upper, colon, upper_cons,
      kept, List.singleton_append, List.tail_cons, List.tail_cons, caseless_isBlank.dropWhile_upper]
  · rw [if_neg (mt isLabelled_upper.1 labelled), if_neg labelled, content_upper,
      caseless_isBlank.dropWhile_upper]

theorem hasStatement_upper {line : List Char} : HasStatement (upper line) ↔ HasStatement line := by
  simp [HasStatement, statement_upper]

theorem mnemonic_upper (line : List Char) : mnemonic (upper line) = upper (mnemonic line) := by
  rw [mnemonic, statement_upper, caseless_isMnemonicChar.takeWhile_upper, mnemonic]

theorem arguments_upper (line : List Char) : arguments (upper line) = upper (arguments line) := by
  rw [arguments, statement_upper, caseless_isMnemonicChar.dropWhile_upper, arguments]

theorem operands_upper (line : List Char) :
    operands (upper line) = (operands line).map upper := by
  rw [operands, arguments_upper, caseless_isOperandChar.words_upper, operands]

end Source

/-! ## Reading finds the parts -/

/-- The text of a token that may be missing. -/
def textOf? (token : Option Token) : Option (List Char) :=
  token.map (·.text)

@[simp] theorem textOf?_none : textOf? none = none := rfl

@[simp] theorem textOf?_some (token : Token) : textOf? (some token) = some token.text := rfl

@[simp] theorem textOf?_eq_none_iff {token : Option Token} : textOf? token = none ↔ token = none :=
  Option.map_eq_none_iff

theorem textOf?_eq_some_iff {token : Option Token} {text : List Char} :
    textOf? token = some text ↔ ∃ found, token = some found ∧ found.text = text :=
  Option.map_eq_some_iff

namespace Remainder

variable (rest : Remainder)

@[simp] theorem skip_text (accept : Char → Bool) :
    (rest.skip accept).text = rest.text.dropWhile accept := rfl

@[simp] theorem skipBlank_text : rest.skipBlank.text = rest.text.dropWhile isBlank := rfl

theorem skipComma_comma {after : List Char} (comma : rest.text = ',' :: after) :
    rest.skipComma.text = after := by
  simp [skipComma, comma]

theorem skipComma_other (other : rest.text.head? ≠ some ',') : rest.skipComma = rest := by
  unfold skipComma
  split
  · next comma => exact absurd (by rw [comma]; rfl) other
  · rfl

theorem token?_eq_none_iff {text : List Char} : rest.token? text = none ↔ text = [] := by
  unfold token?
  split <;> simp_all

theorem token?_text (text : List Char) :
    textOf? (rest.token? text) = if text = [] then none else some text := by
  unfold token?
  split <;> rfl

theorem word?_eq_none_iff {accept : Char → Bool} :
    rest.word? accept = none ↔ rest.text.takeWhile accept = [] :=
  rest.token?_eq_none_iff

theorem word?_eq_some {accept : Char → Bool} {token : Token}
    (found : rest.word? accept = some token) :
    token.text = rest.text.takeWhile accept := by
  unfold word? token? at found
  split at found
  · cases found
  · cases found; rfl

theorem words_skipBlank : words isOperandChar rest.skipBlank.text = words isOperandChar rest.text :=
  words_dropWhile (fun char blank => by simp [isOperandChar, blank]) rest.text

theorem words_skipComma :
    words isOperandChar rest.skipComma.text = words isOperandChar rest.text := by
  by_cases comma : rest.text.head? = some ','
  · obtain ⟨after, rest_eq⟩ := List.head?_eq_some_iff.1 comma
    rw [rest.skipComma_comma rest_eq, rest_eq, words_cons_of_not (by decide)]
  · rw [rest.skipComma_other comma]

/-- The word that comes next and the words behind it are all words. -/
theorem words_word? (accept : Char → Bool) :
    words accept rest.text =
      (textOf? (rest.word? accept)).toList ++ words accept (rest.skip accept).text := by
  rw [words_takeWhile, word?, token?_text, skip_text]
  split
  · next empty => simp [empty]
  · next filled => simp [filled]

end Remainder

section Operands

variable {mnemonic : Token} {rest : Remainder}

/-- Unless something is left over, the words behind the mnemonic are what the two places hold. -/
theorem readOperands_words (all_read : (readOperands mnemonic rest).excess = none) :
    words isOperandChar rest.text =
      (textOf? (readOperands mnemonic rest).first).toList ++
        (textOf? (readOperands mnemonic rest).second).toList := by
  let atFirst := rest.skipBlank
  let atSecond := ((atFirst.skip isOperandChar).skipBlank.skipComma).skipBlank
  let atExcess := (atSecond.skip isOperandChar).skipBlank
  have nothing : words isOperandChar atExcess.text = [] := by
    have blank : trimEnd atExcess.text = [] := atExcess.token?_eq_none_iff.1 all_read
    refine words_eq_nil_iff.2 fun char mem => ?_
    simp [isOperandChar, trimEnd_eq_nil_iff.1 blank char mem]
  calc words isOperandChar rest.text
      = words isOperandChar atFirst.text := rest.words_skipBlank.symm
    _ = (textOf? (atFirst.word? isOperandChar)).toList ++ words isOperandChar atSecond.text := by
        rw [atFirst.words_word?, Remainder.words_skipBlank, Remainder.words_skipComma,
          Remainder.words_skipBlank]
    _ = (textOf? (atFirst.word? isOperandChar)).toList ++
          ((textOf? (atSecond.word? isOperandChar)).toList ++
            words isOperandChar atExcess.text) := by
        rw [atSecond.words_word?, Remainder.words_skipBlank]
    _ = _ := by rw [nothing, List.append_nil]; rfl

/-- The first place stays empty when nothing follows or a comma comes first. -/
theorem readOperands_first_eq_none (empty : (readOperands mnemonic rest).first = none) :
    ∀ char ∈ (rest.text.dropWhile isBlank).head?, char = ',' := by
  intro char first
  have no_word : rest.skipBlank.text.takeWhile isOperandChar = [] :=
    rest.skipBlank.word?_eq_none_iff.1 empty
  have stops := List.head?_dropWhile_not isBlank rest.text
  cases after : rest.text.dropWhile isBlank with
  | nil => rw [after] at first; cases first
  | cons head tail =>
      rw [after] at first stops
      obtain rfl : head = char := by simpa using first
      by_contra other
      have inside : isOperandChar head := by simp_all [isOperandChar]
      rw [Remainder.skipBlank_text, after, List.takeWhile_cons_of_pos inside] at no_word
      cases no_word

/-- A run of operand characters, something to pass over and another run are read as two operands
with nothing left over; an empty run is no operand. -/
theorem readOperands_runs {first tail second : List Char}
    (starts : rest.text.dropWhile isBlank = first ++ tail)
    (inside : ∀ char ∈ first, isOperandChar char)
    (ends : ∀ char ∈ tail.head?, isOperandChar char = false)
    (passes : ∀ offset, (Remainder.mk offset tail).skipBlank.skipComma.skipBlank.text = second)
    (inside' : ∀ char ∈ second, isOperandChar char) :
    textOf? (readOperands mnemonic rest).first = (if first = [] then none else some first) ∧
      textOf? (readOperands mnemonic rest).second = (if second = [] then none else some second) ∧
      (readOperands mnemonic rest).excess = none := by
  let atFirst := rest.skipBlank
  let atSecond := ((atFirst.skip isOperandChar).skipBlank.skipComma).skipBlank
  have word : atFirst.text.takeWhile isOperandChar = first := by
    rw [Remainder.skipBlank_text, starts, takeWhile_append_run inside ends]
  have left : (atFirst.skip isOperandChar).text = tail := by
    rw [Remainder.skip_text, Remainder.skipBlank_text, starts, dropWhile_append_run inside ends]
  have there : atSecond.text = second := by
    rw [← passes (atFirst.skip isOperandChar).offset, ← left]
  have word' : atSecond.text.takeWhile isOperandChar = second := by
    rw [there, List.takeWhile_eq_self_iff.2 inside']
  have nothing : ((atSecond.skip isOperandChar).skipBlank).text = [] := by
    rw [Remainder.skipBlank_text, Remainder.skip_text, there, List.dropWhile_eq_nil_iff.2 inside',
      List.dropWhile_nil]
  refine ⟨?_, ?_, ?_⟩
  · exact (atFirst.token?_text _).trans (by rw [word])
  · exact (atSecond.token?_text _).trans (by rw [word'])
  · exact (Remainder.token?_eq_none_iff _).2 (by rw [nothing, trimEnd_nil])

end Operands

/-- A statement is read exactly when something other than white space is left. -/
theorem readStatement_eq_none_iff {rest : Remainder} :
    readStatement rest = none ↔ rest.text.dropWhile isBlank = [] := by
  have stops := List.head?_dropWhile_not isBlank rest.text
  rw [readStatement, Option.map_eq_none_iff, Remainder.word?_eq_none_iff, Remainder.skipBlank_text]
  cases after : rest.text.dropWhile isBlank with
  | nil => simp
  | cons head tail =>
      rw [after] at stops
      have inside : isMnemonicChar head := by simpa [isMnemonicChar] using stops
      simp [inside]

/-- A statement is its first word, read as the mnemonic, and what follows, read as operands. -/
theorem readStatement_eq_some {rest : Remainder} {statement : Statement}
    (read : readStatement rest = some statement) :
    ∃ mnemonic after, statement = readOperands mnemonic after ∧
      mnemonic.text = (rest.text.dropWhile isBlank).takeWhile isMnemonicChar ∧
      after.text = (rest.text.dropWhile isBlank).dropWhile isMnemonicChar := by
  obtain ⟨mnemonic, word, rfl⟩ := Option.map_eq_some_iff.1 read
  exact ⟨mnemonic, _, rfl, rest.skipBlank.word?_eq_some word, rfl⟩

section Label

variable {text : List Char} {rest : Remainder}

theorem readLabel_eq (content : rest.text = Source.content text) :
    readLabel rest =
      if Source.IsLabelled text then
        let label : Token := ⟨trimEnd (Source.beforeColon text), rest.offset⟩
        if label.text.any isBlank then .error label
        else
          .ok (some label,
            ⟨rest.offset + byteLength (Source.beforeColon text) + 1, (Source.fromColon text).tail⟩)
      else .ok (none, rest) := by
  unfold readLabel
  rw [content, ← Source.beforeColon, ← Source.fromColon]
  cases colon : Source.fromColon text with
  | nil =>
      have bare : ¬Source.IsLabelled text := fun labelled => labelled.1 colon
      rw [if_neg bare]
  | cons mark after =>
      by_cases nothing : Source.beforeColon text = []
      · have bare : ¬Source.IsLabelled text := fun labelled => labelled.2 nothing
        simp [nothing, bare]
      · have labelled : Source.IsLabelled text := ⟨by simp [colon], nothing⟩
        simp [nothing, labelled]

/-- Reading a label takes the name of the label, and then the instruction part is left. -/
theorem readLabel_eq_ok {label : Option Token} {after : Remainder}
    (content : rest.text = Source.content text) (read : readLabel rest = .ok (label, after)) :
    textOf? label = Source.labelName? text ∧
      after.text.dropWhile isBlank = Source.statement text := by
  rw [readLabel_eq content] at read
  unfold Source.labelName? Source.statement
  split at read
  · next labelled =>
      simp only at read
      split at read
      · cases read
      · cases read
        simp [labelled]
  · next bare =>
      cases read
      simp [bare, content]

/-- A label without white space is read. -/
theorem exists_readLabel (content : rest.text = Source.content text)
    (solid : ∀ name ∈ Source.labelName? text, name.any isBlank = false) :
    ∃ parts, readLabel rest = .ok parts := by
  rw [readLabel_eq content]
  unfold Source.labelName? at solid
  split
  · next labelled =>
      simp only [solid _ (if_pos labelled)]
      exact ⟨_, rfl⟩
  · exact ⟨_, rfl⟩

end Label

/-- A line that is read has the label and the instruction part that stand on it. -/
theorem Line.read_eq_ok {text : List Char} {line : Line} (read : Line.read text = .ok line) :
    textOf? line.label = Source.labelName? text ∧
      ∃ rest : Remainder, rest.text.dropWhile isBlank = Source.statement text ∧
        line.statement = readStatement rest := by
  unfold Line.read at read
  split at read
  · cases read
  · next label rest labelled =>
      cases read
      obtain ⟨name, left⟩ := readLabel_eq_ok rfl labelled
      exact ⟨name, rest, left, rfl⟩

/-- A line is read when there is no white space in its label. -/
theorem Line.exists_read {text : List Char}
    (solid : ∀ name ∈ Source.labelName? text, name.any isBlank = false) :
    ∃ line, Line.read text = .ok line := by
  obtain ⟨⟨label, rest⟩, labelled⟩ :
      ∃ parts, readLabel (Remainder.skipBlank ⟨0, stripComment text⟩) = .ok parts :=
    exists_readLabel rfl solid
  exact ⟨_, by rw [Line.read, labelled]⟩

/-- A line that is read has a statement exactly when it has an instruction part. -/
theorem Line.statement_isSome_iff {text : List Char} {line : Line}
    (read : Line.read text = .ok line) : line.statement.isSome ↔ Source.HasStatement text := by
  obtain ⟨-, rest, left, statement⟩ := Line.read_eq_ok read
  rw [statement, Source.HasStatement, ← left, ne_eq, ← readStatement_eq_none_iff,
    Option.isSome_iff_ne_none]

/-- The statement on a line that is read is its mnemonic and the reading of what follows. -/
theorem Line.statement_eq_some {text : List Char} {line : Line} {statement : Statement}
    (read : Line.read text = .ok line) (found : line.statement = some statement) :
    ∃ mnemonic after, statement = readOperands mnemonic after ∧
      mnemonic.text = Source.mnemonic text ∧ after.text = Source.arguments text := by
  obtain ⟨-, rest, left, same⟩ := Line.read_eq_ok read
  rw [same] at found
  obtain ⟨mnemonic, after, shape, word, tail⟩ := readStatement_eq_some found
  rw [left] at word tail
  exact ⟨mnemonic, after, shape, word, tail⟩

end NodeGrid.Assembly
