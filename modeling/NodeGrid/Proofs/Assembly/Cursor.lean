import NodeGrid.Proofs.Assembly.Place

/-!
# Reading a line by byte offsets

Here a line is read by a cursor that knows nothing but the line and the byte at which it stands.
Whatever it looks at it cuts out of the line between two offsets, and there is nothing to cut out
where an offset lies within a character, behind the end, or before the other one.  The offset of the
colon is found apart from the cursor, and the ends of tokens are sums of lengths.  No cut ever fails,
and the cursor reads what is read from the remainders of the line.
-/

namespace NodeGrid

open Text

/-! ## Cutting a text at bytes -/

namespace Text

/-- What is left of a text behind a number of bytes, if a character begins there or the text
ends. -/
def dropBytes? : List Char → Nat → Option (List Char)
  | text, 0 => some text
  | [], _ + 1 => none
  | char :: rest, count + 1 =>
      if char.utf8Size ≤ count + 1 then dropBytes? rest (count + 1 - char.utf8Size) else none

/-- The part of a text that has this number of bytes, if there is one. -/
def takeBytes? : List Char → Nat → Option (List Char)
  | _, 0 => some []
  | [], _ + 1 => none
  | char :: rest, count + 1 =>
      if char.utf8Size ≤ count + 1 then
        (takeBytes? rest (count + 1 - char.utf8Size)).map (char :: ·)
      else none

/-- The part of a text between two byte offsets, if both lie between characters and in order. -/
def slice? (text : List Char) (start stop : Nat) : Option (List Char) :=
  if start ≤ stop then (dropBytes? text start).bind (takeBytes? · (stop - start)) else none

/-- The byte offset at which a character stands first. -/
def findByte? (mark : Char) (text : List Char) : Option Nat :=
  if mark ∈ text then some (byteLength (text.takeWhile (· ≠ mark))) else none

@[simp] theorem dropBytes?_zero (text : List Char) : dropBytes? text 0 = some text := by
  cases text <;> rfl

@[simp] theorem takeBytes?_zero (text : List Char) : takeBytes? text 0 = some [] := by
  cases text <;> rfl

theorem dropBytes?_cons_add (char : Char) (rest : List Char) (count : Nat) :
    dropBytes? (char :: rest) (char.utf8Size + count) = dropBytes? rest count := by
  obtain ⟨more, size⟩ := Nat.exists_eq_succ_of_ne_zero (Nat.ne_of_gt char.utf8Size_pos)
  rw [show char.utf8Size + count = more + count + 1 by omega, dropBytes?, if_pos (by omega)]
  congr 1
  omega

theorem takeBytes?_cons_add (char : Char) (rest : List Char) (count : Nat) :
    takeBytes? (char :: rest) (char.utf8Size + count) =
      (takeBytes? rest count).map (char :: ·) := by
  obtain ⟨more, size⟩ := Nat.exists_eq_succ_of_ne_zero (Nat.ne_of_gt char.utf8Size_pos)
  rw [show char.utf8Size + count = more + count + 1 by omega, takeBytes?, if_pos (by omega),
    show more + count + 1 - char.utf8Size = count by omega]

/-- A text can be cut behind each of its initial parts. -/
theorem dropBytes?_append (before after : List Char) :
    dropBytes? (before ++ after) (byteLength before) = some after := by
  induction before with
  | nil => simp
  | cons char before ih => rw [List.cons_append, byteLength_cons, dropBytes?_cons_add, ih]

theorem takeBytes?_append (piece after : List Char) :
    takeBytes? (piece ++ after) (byteLength piece) = some piece := by
  induction piece with
  | nil => simp
  | cons char piece ih =>
      rw [List.cons_append, byteLength_cons, takeBytes?_cons_add, ih, Option.map_some]

/-- A piece of a text is cut out between its offsets. -/
theorem slice?_append (before piece after : List Char) :
    slice? (before ++ piece ++ after) (byteLength before) (byteLength before + byteLength piece) =
      some piece := by
  rw [slice?, if_pos (Nat.le_add_right _ _), List.append_assoc, dropBytes?_append, Option.bind_some,
    Nat.add_sub_cancel_left, takeBytes?_append]

/-- Where a character begins, all of it lies within the text. -/
theorem le_byteLength_of_dropBytes? {text rest : List Char} {char : Char} {count : Nat}
    (left : dropBytes? text count = some (char :: rest)) :
    count + char.utf8Size ≤ byteLength text := by
  fun_induction dropBytes? text count with
  | case1 text =>
      cases left
      simp
  | case2 => cases left
  | case3 first others count fits ih =>
      have inside := ih left
      simp only [byteLength_cons]
      omega
  | case4 => cases left

end Text

namespace Assembly

/-! ## The cursor -/

/-- A line and the byte at which it is being read. -/
structure Cursor where
  line : List Char
  position : Nat
  deriving DecidableEq, Repr

namespace Cursor

/-- What is still to be read. -/
def rest? (cursor : Cursor) : Option (List Char) :=
  dropBytes? cursor.line cursor.position

/-- Pass over characters of a class, one by one. -/
def skip (accept : Char → Bool) (cursor : Cursor) : Option Cursor :=
  match _ : dropBytes? cursor.line cursor.position with
  | none => none
  | some [] => some cursor
  | some (char :: _) =>
      if accept char then skip accept ⟨cursor.line, cursor.position + char.utf8Size⟩
      else some cursor
termination_by byteLength cursor.line - cursor.position
decreasing_by
  have inside := le_byteLength_of_dropBytes? ‹_›
  have size := char.utf8Size_pos
  omega

/-- Pass over one comma, if it comes next. -/
def skipComma (cursor : Cursor) : Option Cursor :=
  cursor.rest?.map fun text =>
    if text.head? = some ',' then ⟨cursor.line, cursor.position + 1⟩ else cursor

/-- The token between two offsets, unless it is empty. -/
def token? (cursor : Cursor) (start stop : Nat) : Option (Option Token) :=
  if start < stop then (slice? cursor.line start stop).map fun text => some ⟨text, start⟩
  else some none

/-- The token of the characters of a class that come next, and the cursor behind it. -/
def word (accept : Char → Bool) (cursor : Cursor) : Option (Option Token × Cursor) := do
  let behind ← cursor.skip accept
  let token ← cursor.token? cursor.position behind.position
  pure (token, behind)

/-- The token up to an offset, without the white space at its end. -/
def tokenUntil (stop : Nat) (cursor : Cursor) : Option (Option Token) := do
  let text ← slice? cursor.line cursor.position stop
  cursor.token? cursor.position (cursor.position + byteLength (trimEnd text))

/-- The token of all that is left, without the white space at its end. -/
def lastToken (cursor : Cursor) : Option (Option Token) := do
  let text ← cursor.rest?
  cursor.token? cursor.position (cursor.position + byteLength (trimEnd text))

/-- Read the label, and go on behind the colon. -/
def readLabel (cursor : Cursor) : Option (Except Token (Option Token × Cursor)) :=
  match findByte? ':' cursor.line with
  | none => some (.ok (none, cursor))
  | some colon =>
      if cursor.position < colon then do
        match ← cursor.tokenUntil colon with
        | none => pure (.ok (none, ⟨cursor.line, colon + 1⟩))
        | some label =>
            if label.text.any isBlank then pure (.error label)
            else pure (.ok (some label, ⟨cursor.line, colon + 1⟩))
      else some (.ok (none, cursor))

/-- Read the operands that follow a mnemonic. -/
def readOperands (mnemonic : Token) (cursor : Cursor) : Option Statement := do
  let atFirst ← cursor.skip isBlank
  let (first, behindFirst) ← atFirst.word isOperandChar
  let atComma ← behindFirst.skip isBlank
  let behindComma ← atComma.skipComma
  let atSecond ← behindComma.skip isBlank
  let (second, behindSecond) ← atSecond.word isOperandChar
  let atExcess ← behindSecond.skip isBlank
  let excess ← atExcess.lastToken
  pure { mnemonic, first, second, excess }

/-- Read the instruction part, if there is one. -/
def readStatement (cursor : Cursor) : Option (Option Statement) := do
  let atMnemonic ← cursor.skip isBlank
  let (mnemonic?, behind) ← atMnemonic.word isMnemonicChar
  match mnemonic? with
  | none => pure none
  | some mnemonic => (behind.readOperands mnemonic).map some

/-- Read a line.  There is no result if a cut fails. -/
def read (line : List Char) : Option (Except Token Line) := do
  let start ← skip isBlank ⟨stripComment line, 0⟩
  match ← start.readLabel with
  | .error label => pure (.error label)
  | .ok (label, behind) =>
      let statement ← behind.readStatement
      pure (.ok { label, statement })

end Cursor

/-! ## No cut fails -/

namespace Remainder

/-- The cursor at the beginning of what is left of a line. -/
def cursor (rest : Remainder) (line : List Char) : Cursor :=
  ⟨line, rest.offset⟩

@[simp] theorem line_cursor (rest : Remainder) (line : List Char) :
    (rest.cursor line).line = line := rfl

@[simp] theorem position_cursor (rest : Remainder) (line : List Char) :
    (rest.cursor line).position = rest.offset := rfl

namespace EndOf

variable {rest : Remainder} {line : List Char} (ends : rest.EndOf line)
include ends

theorem dropBytes?_eq : dropBytes? line rest.offset = some rest.text := by
  obtain ⟨before, whole, counted⟩ := ends
  rw [whole, counted, dropBytes?_append]

theorem slice?_eq {piece : List Char} (next : piece <+: rest.text) :
    slice? line rest.offset (rest.offset + byteLength piece) = some piece := by
  obtain ⟨before, whole, counted⟩ := ends
  obtain ⟨after, behind⟩ := next
  rw [whole, ← behind, counted, ← List.append_assoc, slice?_append]

theorem cursor_skip (accept : Char → Bool) :
    (rest.cursor line).skip accept = some ((rest.skip accept).cursor line) := by
  obtain ⟨offset, text⟩ := rest
  induction text generalizing offset with
  | nil =>
      rw [Cursor.skip, cursor]
      split
      next nothing => cases nothing.symm.trans ends.dropBytes?_eq
      next => rfl
      next char after left => cases left.symm.trans ends.dropBytes?_eq
  | cons char text ih =>
      rw [Cursor.skip, cursor]
      split
      next nothing => cases nothing.symm.trans ends.dropBytes?_eq
      next nothing => cases nothing.symm.trans ends.dropBytes?_eq
      next first after left =>
        cases left.symm.trans ends.dropBytes?_eq
        have passed : (⟨offset + char.utf8Size, text⟩ : Remainder).EndOf line := by
          simpa using ends.pass (show _ = [char] ++ text from rfl)
        cases accepted : accept char with
        | false => simp [Remainder.skip, accepted, cursor]
        | true =>
            rw [if_pos rfl]
            refine (ih _ passed).trans ?_
            simp [Remainder.skip, accepted, cursor, Nat.add_assoc]

theorem cursor_skipComma :
    (rest.cursor line).skipComma = some (rest.skipComma.cursor line) := by
  rw [Cursor.skipComma, Cursor.rest?]
  simp only [cursor, ends.dropBytes?_eq, Option.map_some, Option.some.injEq]
  split
  next comma =>
    obtain ⟨after, text⟩ := List.head?_eq_some_iff.1 comma
    simp [Remainder.skipComma, text]
  next other => rw [rest.skipComma_other other]

theorem cursor_skipBlank :
    (rest.cursor line).skip isBlank = some (rest.skipBlank.cursor line) :=
  ends.cursor_skip isBlank

/-- The token of the piece that comes next is cut out. -/
theorem cursor_token? {piece : List Char} (next : piece <+: rest.text) :
    (rest.cursor line).token? rest.offset (rest.offset + byteLength piece) =
      some (rest.token? piece) := by
  unfold Cursor.token? Remainder.token?
  by_cases empty : piece = []
  · subst empty
    simp
  · have positive := byteLength_pos empty
    rw [if_pos (by omega), if_neg empty, cursor, ends.slice?_eq next, Option.map_some]

theorem cursor_word (accept : Char → Bool) :
    (rest.cursor line).word accept =
      some (rest.word? accept, (rest.skip accept).cursor line) := by
  have token : (rest.cursor line).token? rest.offset (rest.skip accept).offset =
      some (rest.word? accept) := ends.cursor_token? (List.takeWhile_prefix accept)
  simp only [Cursor.word, ends.cursor_skip, bind, Option.bind_some, pure, position_cursor, token]

theorem cursor_lastToken :
    (rest.cursor line).lastToken = some (rest.token? (trimEnd rest.text)) := by
  simp only [Cursor.lastToken, Cursor.rest?, cursor, ends.dropBytes?_eq, bind, Option.bind_some]
  exact ends.cursor_token? (trimEnd_isPrefix _)

theorem cursor_readOperands (mnemonic : Token) :
    (rest.cursor line).readOperands mnemonic = some (Assembly.readOperands mnemonic rest) := by
  have atFirst := ends.skipBlank
  have behindFirst := atFirst.skip isOperandChar
  have atComma := behindFirst.skipBlank
  have behindComma := atComma.skipComma
  have atSecond := behindComma.skipBlank
  have behindSecond := atSecond.skip isOperandChar
  simp only [Cursor.readOperands, bind, pure, Option.bind_some, ends.cursor_skipBlank,
    atFirst.cursor_word, behindFirst.cursor_skipBlank, atComma.cursor_skipComma,
    behindComma.cursor_skipBlank, atSecond.cursor_word, behindSecond.cursor_skipBlank,
    behindSecond.skipBlank.cursor_lastToken]
  rfl

theorem cursor_readStatement :
    (rest.cursor line).readStatement = some (Assembly.readStatement rest) := by
  have atMnemonic := ends.skipBlank
  simp only [Cursor.readStatement, bind, pure, Option.bind_some, ends.cursor_skipBlank,
    atMnemonic.cursor_word, Assembly.readStatement]
  cases rest.skipBlank.word? isMnemonicChar with
  | none => rfl
  | some mnemonic => simp only [(atMnemonic.skip _).cursor_readOperands, Option.map_some]

end EndOf

end Remainder

namespace Source

/-- What stands on a line without the comment, behind the white space in front. -/
def remainder (line : List Char) : Remainder :=
  Remainder.skipBlank ⟨0, stripComment line⟩

theorem endOf_remainder (line : List Char) : (remainder line).EndOf (stripComment line) :=
  Line.endOf_content line

theorem offset_remainder (line : List Char) :
    (remainder line).offset = byteLength ((stripComment line).takeWhile isBlank) :=
  Nat.zero_add _

theorem beforeColon_append_fromColon (line : List Char) :
    beforeColon line ++ fromColon line = content line :=
  List.takeWhile_append_dropWhile

/-- The first colon of a line stands in its content. -/
theorem findByte?_colon (line : List Char) :
    findByte? ':' (stripComment line) =
      if fromColon line = [] then none
      else some ((remainder line).offset + byteLength (beforeColon line)) := by
  have split : (stripComment line).takeWhile isBlank ++ content line = stripComment line :=
    List.takeWhile_append_dropWhile
  have passes : ∀ char ∈ (stripComment line).takeWhile isBlank, decide (char ≠ ':') = true :=
    ne_of_isBlank (by decide) fun char => List.mem_takeWhile_imp
  have found : (stripComment line).takeWhile (· ≠ ':') =
      (stripComment line).takeWhile isBlank ++ beforeColon line := by
    conv_lhs => rw [← split, List.takeWhile_append_of_pos passes]
    rfl
  have present : ':' ∈ stripComment line ↔ fromColon line ≠ [] := by
    rw [fromColon, ne_eq, List.dropWhile_eq_nil_iff, ← split, List.mem_append]
    constructor
    · rintro (blank | behind) all
      · simpa using passes ':' blank
      · simpa using all ':' behind
    · intro some_other
      by_contra absent
      exact some_other (ne_of_notMem fun member => absent (.inr member))
  unfold findByte?
  by_cases colon : fromColon line = []
  · rw [if_neg (fun member => present.1 member colon), if_pos colon]
  · rw [if_pos (present.2 colon), if_neg colon, found, byteLength_append, offset_remainder]

end Source

/-- What stands before the first colon is cut out as the label. -/
theorem Cursor.readLabel_remainder (line : List Char) :
    ((Source.remainder line).cursor (stripComment line)).readLabel =
      some ((Assembly.readLabel (Source.remainder line)).map fun parts =>
        (parts.1, parts.2.cursor (stripComment line))) := by
  have ends := Source.endOf_remainder line
  have whole := Source.beforeColon_append_fromColon line
  rw [readLabel_eq rfl, Cursor.readLabel]
  simp only [Remainder.line_cursor, Remainder.position_cursor, Source.findByte?_colon]
  by_cases colon : Source.fromColon line = []
  · rw [if_pos colon, if_neg fun labelled => labelled.1 colon]
    rfl
  rw [if_neg colon]
  by_cases nothing : Source.beforeColon line = []
  · rw [if_neg fun labelled => labelled.2 nothing, nothing]
    simp [Remainder.cursor, Except.map]
  · have labelled : Source.IsLabelled line := ⟨colon, nothing⟩
    have positive := byteLength_pos nothing
    have cut := ends.slice?_eq ⟨_, whole⟩
    have token := ends.cursor_token? ((trimEnd_isPrefix _).trans ⟨_, whole⟩)
    rw [Remainder.token?, if_neg (ends.label rfl labelled).filled] at token
    have before : (Source.remainder line).offset <
        (Source.remainder line).offset + byteLength (Source.beforeColon line) := by omega
    simp only [if_pos labelled, if_pos before, Cursor.tokenUntil, Remainder.line_cursor,
      Remainder.position_cursor, cut, token, bind, Option.bind_some, pure]
    split <;> rfl

/-- What is left behind a label is the end of the line. -/
theorem Line.endOf_readLabel {line : List Char} {label : Option Token} {after : Remainder}
    (read : readLabel (Source.remainder line) = .ok (label, after)) :
    after.EndOf (stripComment line) := by
  rw [readLabel_eq rfl] at read
  by_cases labelled : Source.IsLabelled line
  · rw [if_pos labelled] at read
    dsimp only at read
    split at read
    next => cases read
    next =>
      cases read
      exact (endOf_content line).afterColon rfl labelled
  · rw [if_neg labelled] at read
    cases read
    exact endOf_content line

/-- The cursor reads every line, and reads it as it is. -/
theorem Cursor.read_eq (line : List Char) : Cursor.read line = some (Line.read line) := by
  have start := Remainder.endOf_start (stripComment line)
  have label := readLabel_remainder line
  simp only [Cursor.read, bind, pure, Line.read]
  rw [show (⟨stripComment line, 0⟩ : Cursor) = Remainder.cursor ⟨0, stripComment line⟩ _ from rfl,
    start.cursor_skipBlank, Option.bind_some, ← Source.remainder, label, Option.bind_some]
  cases read : Assembly.readLabel (Source.remainder line) with
  | error label => rfl
  | ok parts =>
      simp only [Except.map, (Line.endOf_readLabel read).cursor_readStatement, Option.bind_some]

end Assembly

end NodeGrid
