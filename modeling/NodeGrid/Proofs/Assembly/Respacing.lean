import NodeGrid.Proofs.Assembly.Line

/-!
# White space and comments on a line

White space at the ends of a line and a comment behind it are no part of what the line says.  What
they leave behind for the reader is at most white space at the end of the text, and no step of
reading sees that: every step takes the same word as without it, or none, and hands on a text that
has only such white space more.  Offsets move, so words are compared by their texts.
-/

namespace NodeGrid.Assembly

open Text

/-! ## Computations side by side -/

section Parallel

variable {α β γ δ ε ε' : Type}

/-- Two computations fail together or succeed together, and what they end with is related. -/
inductive Parallel (errors : ε → ε' → Prop) (values : α → β → Prop) :
    Except ε α → Except ε' β → Prop where
  | error {error : ε} {other : ε'} (related : errors error other) :
      Parallel errors values (.error error) (.error other)
  | ok {value : α} {other : β} (related : values value other) :
      Parallel errors values (.ok value) (.ok other)

variable {errors : ε → ε' → Prop} {values : α → β → Prop} {results : γ → δ → Prop}

/-- Computations that go on with related values go on side by side. -/
theorem Parallel.bind {first : Except ε α} {second : Except ε' β} {next : α → Except ε γ}
    {next' : β → Except ε' δ} (parallel : Parallel errors values first second)
    (continues : ∀ value other, values value other →
      Parallel errors results (next value) (next' other)) :
    Parallel errors results (first >>= next) (second >>= next') := by
  cases parallel with
  | error related => exact .error related
  | ok related => exact continues _ _ related

end Parallel

/-! ## White space at the end -/

/-- A text is another one with white space behind it. -/
def Padded (text padded : List Char) : Prop :=
  ∃ blanks, padded = text ++ blanks ∧ ∀ char ∈ blanks, isBlank char

namespace Padded

variable {text padded further : List Char} {accept : Char → Bool}

theorem refl (text : List Char) : Padded text text :=
  ⟨[], (List.append_nil text).symm, nofun⟩

theorem trans (first : Padded text padded) (second : Padded padded further) :
    Padded text further := by
  obtain ⟨blanks, rfl, blank⟩ := first
  obtain ⟨blanks', rfl, blank'⟩ := second
  exact ⟨blanks ++ blanks', List.append_assoc _ _ _, List.forall_mem_append.2 ⟨blank, blank'⟩⟩

theorem upper (more : Padded text padded) : Padded (Text.upper text) (Text.upper padded) := by
  obtain ⟨blanks, rfl, blank⟩ := more
  refine ⟨Text.upper blanks, upper_append _ _, ?_⟩
  rwa [upper_eq_self fun char member =>
    upperChar_separator (isSeparator_of_isBlank (blank char member))]

theorem dropBlank (more : Padded text padded) :
    Padded (text.dropWhile isBlank) (padded.dropWhile isBlank) := by
  obtain ⟨blanks, rfl, blank⟩ := more
  rw [List.dropWhile_append]
  split
  next empty =>
    rw [List.dropWhile_eq_nil_iff.2 blank, List.isEmpty_iff.1 empty]
    exact refl []
  next => exact ⟨blanks, rfl, blank⟩

section Class

variable (refuses : ∀ char, isBlank char → accept char = false)
include refuses

theorem head_refused {blanks : List Char} (blank : ∀ char ∈ blanks, isBlank char) :
    ∀ char ∈ blanks.head?, accept char = false :=
  fun char first => refuses char (blank char (List.mem_of_mem_head? first))

/-- A word ends before the white space that was added. -/
theorem takeWhile_eq (more : Padded text padded) :
    padded.takeWhile accept = text.takeWhile accept := by
  obtain ⟨blanks, rfl, blank⟩ := more
  by_cases inside : ∀ char ∈ text, accept char
  · rw [takeWhile_append_run inside (head_refused refuses blank),
      List.takeWhile_eq_self_iff.2 inside]
  · rw [List.takeWhile_append, if_neg]
    exact fun whole => inside (List.takeWhile_eq_self_iff.1
      ((List.takeWhile_prefix accept).eq_of_length whole))

theorem dropWhile (more : Padded text padded) :
    Padded (text.dropWhile accept) (padded.dropWhile accept) := by
  have same := more.takeWhile_eq refuses
  obtain ⟨blanks, rfl, blank⟩ := more
  refine ⟨blanks, ?_, blank⟩
  refine @List.append_cancel_left _ (text.takeWhile accept) _ _ ?_
  rw [← List.append_assoc, List.takeWhile_append_dropWhile, ← same,
    List.takeWhile_append_dropWhile]

end Class

theorem trimEnd_eq (more : Padded text padded) : trimEnd padded = trimEnd text := by
  obtain ⟨blanks, rfl, blank⟩ := more
  exact trimEnd_append blank text

end Padded

/-! ## Reading side by side -/

/-- Two statements have the same words in the same places. -/
structure Statement.SameWords (statement other : Statement) : Prop where
  mnemonic : other.mnemonic.text = statement.mnemonic.text
  first : textOf? other.first = textOf? statement.first
  second : textOf? other.second = textOf? statement.second
  excess : textOf? other.excess = textOf? statement.excess

/-- Two lines have the same words in the same places. -/
structure Line.SameWords (parts other : Line) : Prop where
  label : textOf? other.label = textOf? parts.label
  statement : Option.Rel Statement.SameWords parts.statement other.statement

theorem not_isOperandChar_of_isBlank (char : Char) (blank : isBlank char) :
    isOperandChar char = false := by
  simp [isOperandChar, blank]

theorem not_isMnemonicChar_of_isBlank (char : Char) (blank : isBlank char) :
    isMnemonicChar char = false := by
  simp [isMnemonicChar, blank]

namespace Padded

section Remainder

variable {rest other : Remainder} (more : Padded rest.text other.text)
include more

theorem word?_text {accept : Char → Bool} (refuses : ∀ char, isBlank char → accept char = false) :
    textOf? (other.word? accept) = textOf? (rest.word? accept) := by
  rw [Remainder.word?, Remainder.word?, Remainder.token?_text, Remainder.token?_text,
    more.takeWhile_eq refuses]

theorem lastToken_text :
    textOf? (other.token? (trimEnd other.text)) = textOf? (rest.token? (trimEnd rest.text)) := by
  rw [Remainder.token?_text, Remainder.token?_text, more.trimEnd_eq]

theorem skipBlank : Padded rest.skipBlank.text other.skipBlank.text :=
  more.dropBlank

theorem skip {accept : Char → Bool} (refuses : ∀ char, isBlank char → accept char = false) :
    Padded (rest.skip accept).text (other.skip accept).text :=
  more.dropWhile refuses

theorem skipComma : Padded rest.skipComma.text other.skipComma.text := by
  obtain ⟨blanks, padded, blank⟩ := more
  cases text : rest.text with
  | nil =>
      have ends : other.text.head? ≠ some ',' := by
        intro comma
        rw [padded, text, List.nil_append] at comma
        cases blank ',' (List.mem_of_mem_head? comma)
      rw [rest.skipComma_other (by simp [text]), other.skipComma_other ends, text]
      exact ⟨blanks, by rw [padded, text], blank⟩
  | cons char after =>
      rw [text, List.cons_append] at padded
      by_cases comma : char = ','
      · subst comma
        rw [rest.skipComma_comma text, other.skipComma_comma padded]
        exact ⟨blanks, rfl, blank⟩
      · rw [rest.skipComma_other (by simp [text, comma]),
          other.skipComma_other (by simp [padded, comma]), text, padded]
        exact ⟨blanks, rfl, blank⟩

end Remainder

variable {rest other : Remainder}

theorem readOperands {mnemonic mnemonic' : Token} (same : mnemonic'.text = mnemonic.text)
    (more : Padded rest.text other.text) :
    (Assembly.readOperands mnemonic rest).SameWords (Assembly.readOperands mnemonic' other) := by
  have atFirst := more.skipBlank
  have atComma := (atFirst.skip not_isOperandChar_of_isBlank).skipBlank
  have atSecond := atComma.skipComma.skipBlank
  have atExcess := (atSecond.skip not_isOperandChar_of_isBlank).skipBlank
  exact
    { mnemonic := same
      first := atFirst.word?_text not_isOperandChar_of_isBlank
      second := atSecond.word?_text not_isOperandChar_of_isBlank
      excess := atExcess.lastToken_text }

theorem readStatement (more : Padded rest.text other.text) :
    Option.Rel Statement.SameWords (Assembly.readStatement rest)
      (Assembly.readStatement other) := by
  have atMnemonic := more.skipBlank
  have behind := atMnemonic.skip not_isMnemonicChar_of_isBlank
  have word := atMnemonic.word?_text not_isMnemonicChar_of_isBlank
  dsimp only [Assembly.readStatement]
  cases found : rest.skipBlank.word? isMnemonicChar with
  | none =>
      rw [found, textOf?_none, textOf?_eq_none_iff] at word
      rw [word]
      exact .none
  | some mnemonic =>
      rw [found, textOf?_some, textOf?_eq_some_iff] at word
      obtain ⟨mnemonic', found', same⟩ := word
      rw [found']
      exact .some (behind.readOperands same)

/-- A colon is found where it was, or there is still none. -/
theorem readLabel (more : Padded rest.text other.text) :
    Parallel (fun label label' : Token => label'.text = label.text)
      (fun parts parts' : Option Token × Remainder =>
        textOf? parts'.1 = textOf? parts.1 ∧ Padded parts.2.text parts'.2.text)
      (Assembly.readLabel rest) (Assembly.readLabel other) := by
  obtain ⟨blanks, padded, blank⟩ := more
  have no_colon : ∀ char ∈ blanks, decide (char ≠ ':') = true := ne_of_isBlank (by decide) blank
  have behind : other.text.dropWhile (· ≠ ':') =
      if rest.text.dropWhile (· ≠ ':') = [] then []
      else rest.text.dropWhile (· ≠ ':') ++ blanks := by
    simp only [padded, List.dropWhile_append, List.isEmpty_iff,
      List.dropWhile_eq_nil_iff.2 no_colon]
  unfold Assembly.readLabel
  cases colon : rest.text.dropWhile (· ≠ ':') with
  | nil =>
      rw [colon, if_pos rfl] at behind
      rw [behind]
      exact .ok ⟨rfl, blanks, padded, blank⟩
  | cons mark after =>
      have before : other.text.takeWhile (· ≠ ':') = rest.text.takeWhile (· ≠ ':') := by
        refine @List.append_cancel_right _ _ (mark :: after ++ blanks) _ ?_
        rw [colon, if_neg (List.cons_ne_nil _ _)] at behind
        rw [← behind, List.takeWhile_append_dropWhile, behind, ← List.append_assoc, ← colon,
          List.takeWhile_append_dropWhile, padded]
      rw [colon, if_neg (List.cons_ne_nil _ _), List.cons_append] at behind
      simp only [behind, before]
      split
      next => exact .ok ⟨rfl, blanks, padded, blank⟩
      next =>
        split
        next => exact .error rfl
        next => exact .ok ⟨rfl, blanks, rfl, blank⟩

end Padded

/-- Lines whose contents differ in white space at the end are read with the same words. -/
theorem Line.read_padded {line other : List Char}
    (more : Padded (Source.content line) (Source.content other)) :
    Parallel (fun label label' : Token => label'.text = label.text) Line.SameWords
      (Line.read line) (Line.read other) := by
  have start : Padded (Remainder.skipBlank ⟨0, stripComment line⟩).text
      (Remainder.skipBlank ⟨0, stripComment other⟩).text := more
  have labelled := start.readLabel
  unfold Line.read
  generalize readLabel (Remainder.skipBlank ⟨0, stripComment line⟩) = first,
    readLabel (Remainder.skipBlank ⟨0, stripComment other⟩) = second at labelled ⊢
  cases labelled with
  | error same => exact .error same
  | ok related => exact .ok ⟨related.1, related.2.readStatement⟩

/-! ## Respaced lines -/

/-- A line becomes another one by white space at its ends and by comments behind it. -/
inductive Respaced (line : List Char) : List Char → Prop where
  | same : Respaced line line
  | before {blanks text : List Char} (blank : ∀ char ∈ blanks, isBlank char)
      (respaced : Respaced line text) : Respaced line (blanks ++ text)
  | behind {blanks text : List Char} (blank : ∀ char ∈ blanks, isBlank char)
      (respaced : Respaced line text) : Respaced line (text ++ blanks)
  | comment {text : List Char} (remark : List Char) (respaced : Respaced line text) :
      Respaced line (text ++ '#' :: remark)

namespace Source

variable {blanks text : List Char}

theorem content_before (blank : ∀ char ∈ blanks, isBlank char) :
    content (blanks ++ text) = content text := by
  rw [content, stripComment, List.takeWhile_append_of_pos (ne_of_isBlank (by decide) blank),
    List.dropWhile_append_of_pos blank]
  rfl

theorem content_comment (remark : List Char) : content (text ++ '#' :: remark) = content text := by
  have same : stripComment (text ++ '#' :: remark) = stripComment text := by
    unfold stripComment
    rw [List.takeWhile_append]
    split
    next whole =>
      rw [(List.takeWhile_prefix _).eq_of_length whole]
      simp
    next => rfl
  rw [content, content, same]

theorem content_behind (blank : ∀ char ∈ blanks, isBlank char) :
    Padded (content text) (content (text ++ blanks)) := by
  have padded : Padded (stripComment text) (stripComment (text ++ blanks)) := by
    unfold stripComment
    rw [List.takeWhile_append]
    split
    next whole =>
      rw [(List.takeWhile_prefix _).eq_of_length whole]
      exact ⟨_, rfl, fun char member => blank char ((List.takeWhile_prefix _).mem member)⟩
    next => exact .refl _
  exact padded.dropBlank

end Source

namespace Respaced

variable {line other : List Char} (respaced : Respaced line other)
include respaced

theorem content : Padded (Source.content line) (Source.content other) := by
  induction respaced with
  | same => exact .refl _
  | before blank _ ih => rwa [Source.content_before blank]
  | behind blank _ ih => exact ih.trans (Source.content_behind blank)
  | comment remark _ ih => rwa [Source.content_comment]

/-- A line says the same after respacing. -/
theorem read_upper :
    Parallel (fun label label' : Token => label'.text = label.text) Line.SameWords
      (Line.read (upper line)) (Line.read (upper other)) := by
  refine Line.read_padded ?_
  rw [Source.content_upper, Source.content_upper]
  exact respaced.content.upper

/-- Respacing only adds characters. -/
theorem sublist : line.Sublist other := by
  induction respaced with
  | same => exact .refl _
  | before _ _ ih => exact ih.trans (List.sublist_append_right _ _)
  | behind _ _ ih | comment _ _ ih => exact ih.trans (List.sublist_append_left _ _)

end Respaced

end NodeGrid.Assembly
