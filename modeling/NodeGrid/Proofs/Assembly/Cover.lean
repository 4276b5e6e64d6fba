import NodeGrid.Proofs.Assembly.Cursor

/-!
# Reading loses nothing of a line

Read from left to right, a line without its comment is made of tokens, of white space, and of marks
that are passed over.  Each operation on what is left of the line puts some of these in front of
what the next operations find, so the line as a whole is made of the tokens that are read.  The only
marks are the colon of a label and one comma, and everything else that can be seen is part of just
one token.
-/

namespace NodeGrid.Assembly

open Text

/-! ## What a text is made of -/

/-- A text that begins at an offset is made of these tokens, of characters that stand as marks at
these offsets, and of white space. -/
inductive Tiled : Nat → List Char → List Token → List (Nat × Char) → Prop where
  | nothing (offset : Nat) : Tiled offset [] [] []
  | blank {offset : Nat} {char : Char} {text : List Char} {tokens : List Token}
      {marks : List (Nat × Char)} (blank : isBlank char)
      (rest : Tiled (offset + char.utf8Size) text tokens marks) :
      Tiled offset (char :: text) tokens marks
  | mark {offset : Nat} (char : Char) {text : List Char} {tokens : List Token}
      {marks : List (Nat × Char)} (rest : Tiled (offset + char.utf8Size) text tokens marks) :
      Tiled offset (char :: text) tokens ((offset, char) :: marks)
  | token {offset : Nat} {piece text : List Char} {tokens : List Token}
      {marks : List (Nat × Char)} (filled : piece ≠ [])
      (rest : Tiled (offset + byteLength piece) text tokens marks) :
      Tiled offset (piece ++ text) (⟨piece, offset⟩ :: tokens) marks

/-- The byte at an offset is part of a token. -/
def Token.Holds (token : Token) (offset : Nat) : Prop :=
  token.start ≤ offset ∧ offset < token.stop

/-- Of tokens that stand one behind the other, one at most holds a byte. -/
theorem Token.eq_of_holds {tokens : List Token}
    (ordered : tokens.Pairwise fun token next => token.stop ≤ next.start) {first second : Token}
    (member : first ∈ tokens) (among : second ∈ tokens) {offset : Nat} (holds : first.Holds offset)
    (shares : second.Holds offset) : first = second := by
  obtain ⟨starts, stops⟩ := holds
  obtain ⟨starts', stops'⟩ := shares
  induction tokens with
  | nil => cases member
  | cons token rest ih =>
      obtain ⟨behind, others⟩ := List.pairwise_cons.1 ordered
      rcases List.mem_cons.1 member with rfl | later
      · rcases List.mem_cons.1 among with rfl | next
        · rfl
        · have apart := behind second next
          omega
      · rcases List.mem_cons.1 among with rfl | next
        · have apart := behind first later
          omega
        · exact ih others later next

namespace Tiled

section Places

variable {offset : Nat} {text : List Char} {tokens : List Token} {marks : List (Nat × Char)}

/-- The tokens stand one behind the other, between the first offset and the end. -/
theorem ordered (tiled : Tiled offset text tokens marks) :
    tokens.Pairwise (fun token next => token.stop ≤ next.start) ∧
      ∀ token ∈ tokens, offset ≤ token.start ∧ token.stop ≤ offset + byteLength text := by
  induction tiled with
  | nothing offset => simp
  | blank blank rest ih | mark char rest ih =>
      refine ⟨ih.1, fun token member => ?_⟩
      have inside := ih.2 token member
      rw [byteLength_cons]
      omega
  | token filled rest ih =>
      rw [List.pairwise_cons, List.forall_mem_cons, byteLength_append]
      refine ⟨⟨fun next member => (ih.2 next member).1, ih.1⟩, ?_, fun next member => ?_⟩
      · simp only [Token.stop]
        omega
      · have inside := ih.2 next member
        omega

/-- A mark is part of no token. -/
theorem not_holds_of_mark (tiled : Tiled offset text tokens marks) :
    ∀ mark ∈ marks, offset ≤ mark.1 ∧ ∀ token ∈ tokens, ¬token.Holds mark.1 := by
  induction tiled with
  | nothing offset => simp
  | blank blank rest ih =>
      intro mark member
      obtain ⟨behind, free⟩ := ih mark member
      exact ⟨by omega, free⟩
  | @mark offset char text tokens marks rest ih =>
      have size := char.utf8Size_pos
      intro mark member
      rcases List.mem_cons.1 member with rfl | later
      · refine ⟨Nat.le_refl _, fun token among holds => ?_⟩
        have inside := (rest.ordered.2 token among).1
        have begins : token.start ≤ offset := holds.1
        omega
      · obtain ⟨behind, free⟩ := ih mark later
        exact ⟨by omega, free⟩
  | token filled rest ih =>
      intro mark member
      obtain ⟨behind, free⟩ := ih mark member
      rw [List.forall_mem_cons]
      exact ⟨by omega, fun holds => Nat.not_lt.2 behind holds.2, free⟩

/-- What is neither white space nor a mark is part of a token. -/
theorem holds_of_visible (tiled : Tiled offset text tokens marks) {before after : List Char}
    {char : Char} (place : text = before ++ char :: after) (visible : isBlank char = false) :
    (∃ token ∈ tokens, token.Holds (offset + byteLength before)) ∨
      (offset + byteLength before, char) ∈ marks := by
  induction tiled generalizing before with
  | nothing offset => simp at place
  | blank blank rest ih =>
      cases before with
      | nil =>
          cases place
          rw [visible] at blank
          cases blank
      | cons other before =>
          cases place
          rw [byteLength_cons, ← Nat.add_assoc]
          exact ih rfl
  | mark first rest ih =>
      cases before with
      | nil =>
          cases place
          exact .inr List.mem_cons_self
      | cons other before =>
          cases place
          rw [byteLength_cons, ← Nat.add_assoc]
          exact (ih rfl).imp_right (List.mem_cons_of_mem _)
  | token filled rest ih =>
      -- The character stands behind the token or within it.
      rcases List.append_eq_append_iff.1 place with ⟨more, rfl, behind⟩ | ⟨more, rfl, behind⟩
      · rw [byteLength_append, ← Nat.add_assoc]
        exact (ih behind).imp_left fun ⟨next, member, holds⟩ =>
          ⟨next, List.mem_cons_of_mem _ member, holds⟩
      · cases more with
        | nil =>
            rw [List.append_nil] at filled ih ⊢
            exact (@ih [] behind.symm).imp_left fun ⟨next, member, holds⟩ =>
              ⟨next, List.mem_cons_of_mem _ member, holds⟩
        | cons other more =>
            cases behind
            have size := char.utf8Size_pos
            refine .inl ⟨_, List.mem_cons_self, Nat.le_add_right _ _, ?_⟩
            simp only [Token.stop, byteLength_append, byteLength_cons]
            omega

end Places

/-! ## Operations in front of the rest -/

section Front

variable {tokens : List Token} {marks : List (Nat × Char)}

theorem blanks {offset : Nat} {before text : List Char} (blank : ∀ char ∈ before, isBlank char)
    (tiled : Tiled (offset + byteLength before) text tokens marks) :
    Tiled offset (before ++ text) tokens marks := by
  induction before generalizing offset with
  | nil => exact tiled
  | cons char before ih =>
      obtain ⟨first, others⟩ := List.forall_mem_cons.1 blank
      refine .blank first (ih others ?_)
      rwa [Nat.add_assoc]

variable {rest : Remainder}

theorem skipBlank (tiled : Tiled rest.skipBlank.offset rest.skipBlank.text tokens marks) :
    Tiled rest.offset rest.text tokens marks := by
  have tiles := tiled.blanks fun char => List.mem_takeWhile_imp
  rwa [Remainder.skipBlank_text, List.takeWhile_append_dropWhile] at tiles

theorem token? {piece behind : List Char} (split : rest.text = piece ++ behind)
    (tiled : Tiled (rest.offset + byteLength piece) behind tokens marks) :
    Tiled rest.offset rest.text ((rest.token? piece).toList ++ tokens) marks := by
  unfold Remainder.token?
  rw [split]
  by_cases empty : piece = []
  · subst empty
    exact tiled
  · rw [if_neg empty]
    exact .token empty tiled

theorem word? {accept : Char → Bool}
    (tiled : Tiled (rest.skip accept).offset (rest.skip accept).text tokens marks) :
    Tiled rest.offset rest.text ((rest.word? accept).toList ++ tokens) marks :=
  token? List.takeWhile_append_dropWhile.symm tiled

theorem skipComma (tiled : Tiled rest.skipComma.offset rest.skipComma.text tokens marks) :
    ∃ comma : Option Nat,
      Tiled rest.offset rest.text tokens (comma.toList.map (·, ',') ++ marks) := by
  by_cases comma : rest.text.head? = some ','
  · obtain ⟨after, text⟩ := List.head?_eq_some_iff.1 comma
    obtain ⟨offset, _⟩ := rest
    cases text
    exact ⟨some offset, .mark ',' tiled⟩
  · rw [rest.skipComma_other comma] at tiled
    exact ⟨none, tiled⟩

/-- A piece is a token with white space behind it. -/
theorem trimmed {piece behind : List Char} (split : rest.text = piece ++ behind)
    (tiled : Tiled (rest.offset + byteLength piece) behind tokens marks) :
    Tiled rest.offset rest.text ((rest.token? (trimEnd piece)).toList ++ tokens) marks := by
  have parts : trimEnd piece ++ piece.rtakeWhile isBlank = piece :=
    List.rdropWhile_append_rtakeWhile
  rw [← parts, List.append_assoc] at split
  refine token? split (blanks (fun char => List.mem_rtakeWhile_imp) ?_)
  rwa [Nat.add_assoc, ← byteLength_append, parts]

theorem lastToken (rest : Remainder) :
    Tiled rest.offset rest.text (rest.token? (trimEnd rest.text)).toList [] := by
  have tiled := trimmed (List.append_nil rest.text).symm (nothing _)
  rwa [List.append_nil] at tiled

end Front

end Tiled

/-! ## The parts of a line -/

/-- The tokens of the operands, in order. -/
def Statement.operands (statement : Statement) : List Token :=
  statement.first.toList ++ statement.second.toList

/-- The tokens of a statement, in order. -/
def Statement.tokens (statement : Statement) : List Token :=
  statement.mnemonic :: (statement.operands ++ statement.excess.toList)

namespace Line

/-- The tokens of the operands of a line, in order. -/
def operands (parts : Line) : List Token :=
  parts.statement.elim [] Statement.operands

/-- The tokens of a line, in order. -/
def tokens (parts : Line) : List Token :=
  parts.label.toList ++ parts.statement.elim [] Statement.tokens

/-- The tokens of a line but what is left over at its end, in order. -/
def words (parts : Line) : List Token :=
  parts.label.toList ++
    parts.statement.elim [] fun statement => statement.mnemonic :: statement.operands

/-- The offset of the colon that ends the label. -/
def colon? (parts : Line) (line : List Char) : Option Nat :=
  if parts.label.isSome then findByte? ':' (stripComment line) else none

end Line

namespace Tiled

theorem readOperands (mnemonic : Token) (rest : Remainder) : ∃ comma : Option Nat,
    let statement := Assembly.readOperands mnemonic rest
    Tiled rest.offset rest.text (statement.operands ++ statement.excess.toList)
      (comma.toList.map (·, ',')) := by
  let atFirst := rest.skipBlank
  let atComma := (atFirst.skip isOperandChar).skipBlank
  let atSecond := atComma.skipComma.skipBlank
  let atExcess := (atSecond.skip isOperandChar).skipBlank
  have second : Tiled atSecond.offset atSecond.text _ _ := (lastToken atExcess).skipBlank.word?
  obtain ⟨comma, tiled⟩ := second.skipBlank.skipComma
  have first : Tiled atFirst.offset atFirst.text _ _ := tiled.skipBlank.word?
  refine ⟨comma, ?_⟩
  rw [List.append_nil] at first
  have all := first.skipBlank
  rwa [← List.append_assoc] at all

theorem readStatement (rest : Remainder) : ∃ comma : Option Nat,
    Tiled rest.offset rest.text ((Assembly.readStatement rest).elim [] Statement.tokens)
      (comma.toList.map (·, ',')) := by
  let atMnemonic := rest.skipBlank
  rw [Assembly.readStatement]
  cases word : atMnemonic.word? isMnemonicChar with
  | none =>
      have empty : atMnemonic.text = [] :=
        readStatement_eq_none_iff.1 (by rw [Assembly.readStatement, word, Option.map_none])
      have tiled : Tiled atMnemonic.offset atMnemonic.text [] [] := empty ▸ nothing _
      exact ⟨none, tiled.skipBlank⟩
  | some mnemonic =>
      obtain ⟨comma, behind⟩ := readOperands mnemonic (atMnemonic.skip isMnemonicChar)
      have tiled : Tiled atMnemonic.offset atMnemonic.text _ _ := behind.word?
      rw [word] at tiled
      exact ⟨comma, tiled.skipBlank⟩

end Tiled

namespace Line

variable {line : List Char} {parts : Line}

/-- A line without its comment is made of the tokens that are read and of white space, but for the
colon of the label and a comma. -/
theorem tiled_of_read (read : Line.read line = .ok parts) : ∃ comma : Option Nat,
    Tiled 0 (stripComment line) parts.tokens
      ((parts.colon? line).toList.map (·, ':') ++ comma.toList.map (·, ',')) := by
  unfold Line.read at read
  rw [← Source.remainder, readLabel_eq rfl] at read
  by_cases labelled : Source.IsLabelled line
  · obtain ⟨after, colon⟩ := Source.head?_fromColon labelled.1
    rw [if_pos labelled, colon, List.tail_cons] at read
    dsimp only at read
    split at read
    next => cases read
    next label rest found =>
      split at found
      next => cases found
      next =>
        cases found
        cases read
        obtain ⟨comma, tiled⟩ := Tiled.readStatement
          ⟨(Source.remainder line).offset + byteLength (Source.beforeColon line) + 1, after⟩
        have marked := tiled.mark ':'
        have split := Source.beforeColon_append_fromColon line
        rw [colon] at split
        have named := Tiled.trimmed split.symm marked
        have filled := ((Source.endOf_remainder line).label rfl labelled).filled
        rw [Remainder.token?, if_neg filled] at named
        refine ⟨comma, ?_⟩
        rw [colon?, Option.isSome_some, if_pos rfl, Source.findByte?_colon, if_neg labelled.1]
        exact named.skipBlank
  · rw [if_neg labelled] at read
    cases read
    obtain ⟨comma, tiled⟩ := Tiled.readStatement (Source.remainder line)
    exact ⟨comma, tiled.skipBlank⟩

theorem mem_tokens {token : Token} : token ∈ parts.tokens ↔
    token ∈ parts.label ∨
      ∃ statement ∈ parts.statement, ∃ place, statement.place? place = some token := by
  have places : ∀ statement : Statement,
      token ∈ statement.tokens ↔ ∃ place, statement.place? place = some token := by
    intro statement
    simp only [Statement.tokens, Statement.operands, List.mem_cons, List.mem_append,
      Option.mem_toList]
    constructor
    · rintro (rfl | (first | second) | excess)
      · exact ⟨0, rfl⟩
      · exact ⟨1, first⟩
      · exact ⟨2, second⟩
      · exact ⟨3, excess⟩
    · rintro ⟨place, there⟩
      match place with
      | 0 => exact .inl (Option.some.inj there).symm
      | 1 => exact .inr (.inl (.inl there))
      | 2 => exact .inr (.inl (.inr there))
      | 3 => exact .inr (.inr there)
      | _ + 4 => cases there
  rw [tokens, List.mem_append, Option.mem_toList]
  cases parts.statement with
  | none => simp
  | some statement => simp [places]

/-- A token is cut out of the line before the comment. -/
theorem slice?_of_read (read : Line.read line = .ok parts) {token : Token}
    (member : token ∈ parts.tokens) :
    token.text ≠ [] ∧ token.stop ≤ byteLength (stripComment line) ∧
      slice? line token.start token.stop = some token.text := by
  have stands : token.StandsIn (stripComment line) := by
    obtain ⟨label, places⟩ := standsIn_of_read read
    rcases mem_tokens.1 member with label_eq | ⟨statement, found, place, there⟩
    · exact (label token label_eq).2
    · exact places statement found place token there
  obtain ⟨before, after, whole, counted⟩ := stands.piece
  have commented : stripComment line ++ line.dropWhile (· ≠ '#') = line :=
    List.takeWhile_append_dropWhile
  refine ⟨stands.filled, ?_, ?_⟩
  · rw [whole, Token.stop, counted, byteLength_append, byteLength_append]
    exact Nat.le_add_right _ _
  · rw [← commented, whole, List.append_assoc, Token.stop, counted]
    exact slice?_append _ _ _

end Line

theorem Remainder.accept_of_word? {rest : Remainder} {accept : Char → Bool} {token : Token}
    (found : rest.word? accept = some token) : ∀ char ∈ token.text, accept char := by
  rw [rest.word?_eq_some found]
  exact fun char => List.mem_takeWhile_imp

/-- Operands contain neither white space nor commas. -/
theorem isOperandChar_of_readOperands {mnemonic : Token} {rest : Remainder} {token : Token}
    (member : token ∈ (readOperands mnemonic rest).operands) :
    ∀ char ∈ token.text, isOperandChar char := by
  rcases List.mem_append.1 member with first | second
  · exact Remainder.accept_of_word? (Option.mem_toList.1 first)
  · exact Remainder.accept_of_word? (Option.mem_toList.1 second)

namespace Line

variable {line : List Char} {parts : Line}

theorem isOperandChar_of_read (read : Line.read line = .ok parts) {token : Token}
    (member : token ∈ parts.operands) : ∀ char ∈ token.text, isOperandChar char := by
  obtain ⟨-, rest, -, statement⟩ := read_eq_ok read
  cases found : parts.statement with
  | none => simp [operands, found] at member
  | some some_statement =>
      rw [statement] at found
      obtain ⟨mnemonic, after, rfl, -⟩ := readStatement_eq_some found
      rw [operands, statement, found] at member
      exact isOperandChar_of_readOperands member

/-- No token but what is left over contains white space. -/
theorem not_isBlank_of_read (read : Line.read line = .ok parts) {token : Token}
    (member : token ∈ parts.words) : ∀ char ∈ token.text, isBlank char = false := by
  intro char inside
  rcases List.mem_append.1 member with label | word
  · have solid := ((standsIn_of_read read).1 token (Option.mem_toList.1 label)).1
    simpa using List.any_eq_false.1 solid char inside
  · cases found : parts.statement with
    | none => simp [found] at word
    | some statement =>
        rw [found, Option.elim_some] at word
        rcases List.mem_cons.1 word with rfl | operand
        · obtain ⟨mnemonic, after, rfl, text, -⟩ := statement_eq_some read found
          rw [show (readOperands mnemonic after).mnemonic = mnemonic from rfl, text] at inside
          exact not_isBlank_of_isMnemonicChar char (List.mem_takeWhile_imp inside)
        · refine not_isBlank_of_isOperandChar char ?_
          exact isOperandChar_of_read read (by rwa [operands, found]) char inside

/-- The parts that are read leave out nothing of a line. -/
structure Exhausts (parts : Line) (line : List Char) : Prop where
  /-- Every token is the piece of the line between its offsets, before the comment. -/
  pieces : ∀ token ∈ parts.tokens, token.text ≠ [] ∧ token.stop ≤ byteLength (stripComment line) ∧
    slice? line token.start token.stop = some token.text
  ordered : parts.tokens.Pairwise fun token next => token.stop ≤ next.start
  solid : ∀ token ∈ parts.words, ∀ char ∈ token.text, isBlank char = false
  operands : ∀ token ∈ parts.operands, ',' ∉ token.text
  /-- Every character that can be seen belongs to just one token, but for the colon that ends the
  label and one comma at most. -/
  covered : ∃ comma : Option Nat, ∀ before char after,
    stripComment line = before ++ char :: after → isBlank char = false →
      let offset := byteLength before
      ((∃! token, token ∈ parts.tokens ∧ token.Holds offset) ∧
          parts.colon? line ≠ some offset ∧ comma ≠ some offset) ∨
        ((∀ token ∈ parts.tokens, ¬token.Holds offset) ∧
          (parts.colon? line = some offset ∧ char = ':' ∨ comma = some offset ∧ char = ','))

theorem exhausts_of_read (read : Line.read line = .ok parts) : parts.Exhausts line := by
  obtain ⟨comma, tiled⟩ := tiled_of_read read
  refine ⟨fun token => slice?_of_read read, tiled.ordered.1, fun token => not_isBlank_of_read read,
    ?operands, comma, ?covered⟩
  case operands =>
    intro token member inside
    cases isOperandChar_of_read read member ',' inside
  case covered =>
    intro before char after place visible offset
    have free : ∀ mark, parts.colon? line = some offset ∧ mark = ':' ∨
        comma = some offset ∧ mark = ',' → ∀ token ∈ parts.tokens, ¬token.Holds offset := by
      intro mark marked
      refine (tiled.not_holds_of_mark (offset, mark) (List.mem_append.2 ?_)).2
      rcases marked with ⟨colon, rfl⟩ | ⟨comma, rfl⟩
      · exact .inl (by simp [colon])
      · exact .inr (by simp [comma])
    rcases tiled.holds_of_visible place visible with ⟨token, member, holds⟩ | marked
    · rw [Nat.zero_add] at holds
      refine .inl ⟨⟨token, ⟨member, holds⟩, fun other there => ?_⟩, fun colon => ?_, fun comma => ?_⟩
      · exact Token.eq_of_holds tiled.ordered.1 there.1 member there.2 holds
      · exact free ':' (.inl ⟨colon, rfl⟩) token member holds
      · exact free ',' (.inr ⟨comma, rfl⟩) token member holds
    · have mark : parts.colon? line = some offset ∧ char = ':' ∨
          comma = some offset ∧ char = ',' := by
        simpa [offset, eq_comm (a := char)] using marked
      exact .inr ⟨free char mark, mark⟩

/-- A line is not read exactly when what stands before its first colon is more than one word, and
then this text is given back, with its place. -/
theorem read_eq_error_iff {line : List Char} {token : Token} :
    Line.read line = .error token ↔
      Source.fromColon line ≠ [] ∧ Source.beforeColon line ≠ [] ∧
        (∃ char ∈ trimEnd (Source.beforeColon line), isBlank char) ∧
        token = ⟨trimEnd (Source.beforeColon line),
          byteLength ((stripComment line).takeWhile isBlank)⟩ := by
  unfold Line.read
  rw [← Source.remainder, readLabel_eq rfl, ← Source.offset_remainder, ← and_assoc,
    ← Source.IsLabelled, ← List.any_eq_true]
  by_cases labelled : Source.IsLabelled line
  · rw [if_pos labelled]
    by_cases blank : (trimEnd (Source.beforeColon line)).any isBlank
    · simp [labelled, blank, eq_comm]
    · simp [blank]
  · simp [labelled]

/-- Reading a line by byte offsets never cuts it within a character.  If there is a result, its
tokens are pieces of the line before the comment, in order and apart, in which there is no white
space but in what is left over, and no comma in an operand; they leave out nothing that can be seen
but the colon of the label and one comma.  There is none only for a label with white space in it,
which is given back. -/
theorem read_loses_nothing (line : List Char) :
    Cursor.read line = some (Line.read line) ∧
    (∀ parts, Line.read line = .ok parts → parts.Exhausts line) ∧
    ∀ token, Line.read line = .error token ↔
      Source.fromColon line ≠ [] ∧ Source.beforeColon line ≠ [] ∧
        (∃ char ∈ trimEnd (Source.beforeColon line), isBlank char) ∧
        token = ⟨trimEnd (Source.beforeColon line),
          byteLength ((stripComment line).takeWhile isBlank)⟩ :=
  ⟨Cursor.read_eq line, fun _ => exhausts_of_read, fun _ => read_eq_error_iff⟩

/-- One comma is passed over, and the next one is left over with what follows it. -/
example : (Line.read "Ω:ADD ,1 ,2 # 3".toList).map (·.tokens) =
    .ok [⟨"Ω".toList, 0⟩, ⟨"ADD".toList, 3⟩, ⟨"1".toList, 8⟩, ⟨",2".toList, 10⟩] := by
  decide +kernel

end Line

end NodeGrid.Assembly
