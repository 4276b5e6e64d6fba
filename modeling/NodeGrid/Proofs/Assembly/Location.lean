import NodeGrid.Proofs.Assembly.Verdict

/-!
# Where an error points to

An error names a line and two byte offsets.  Unless it is about the number of lines or the length of
one, the offsets mark a piece of the kept text of that line, and this piece is what is at fault.
-/

namespace NodeGrid.Assembly

open Text

/-- The piece of a text between two byte offsets.  It is cut at characters, stands before any
comment, and is neither empty nor has white space at its ends. -/
structure Marks (text : List Char) (start stop : Nat) (piece : List Char) : Prop where
  cut : ∃ before after, text = before ++ piece ++ after ∧ start = byteLength before ∧
    stop = byteLength (before ++ piece) ∧ '#' ∉ before ++ piece
  filled : start < stop
  inside : stop ≤ byteLength text
  starts : ∀ char ∈ piece.head?, isBlank char = false
  ends : ∀ char ∈ piece.getLast?, isBlank char = false

/-- The piece at an offset of the line with this index is what a fault of the kept text is about. -/
inductive Culprit (kept : List (List Char)) (index start : Nat) (piece : List Char) :
    Fault → Prop where
  /-- What stands before the first colon has white space in it. -/
  | unexpectedToken {text : List Char} (here : kept[index]? = some text)
      (label : Source.labelName? text = some piece) (blank : piece.any isBlank) :
      Culprit kept index start piece .unexpectedToken
  /-- The label is that of an earlier line. -/
  | duplicateLabel {text other : List Char} {earlier : Nat} (here : kept[index]? = some text)
      (label : Source.labelName? text = some piece) (before : earlier < index)
      (there : kept[earlier]? = some other) (known : Source.labelName? other = some piece) :
      Culprit kept index start piece .duplicateLabel
  /-- The operand of a jump is the label of no line. -/
  | undefinedLabel {text : List Char} {parts : Line} {statement : Statement} {opcode : Opcode}
      {condition : Condition} (here : kept[index]? = some text)
      (read : Line.read text = .ok parts) (found : parts.statement = some statement)
      (known : Opcode.ofText? statement.mnemonic.text = some opcode)
      (jumps : opcode.form = .jump condition) (operand : statement.first = some ⟨piece, start⟩)
      (unknown : ∀ other ∈ kept, Source.labelName? other ≠ some piece) :
      Culprit kept index start piece .undefinedLabel
  /-- It is a token that is wrong with the statement. -/
  | illFormed {text : List Char} {parts : Line} {statement : Statement} {fault : Fault}
      (here : kept[index]? = some text) (read : Line.read text = .ok parts)
      (found : parts.statement = some statement) (blames : statement.Blames fault ⟨piece, start⟩) :
      Culprit kept index start piece fault

/-- A token that stands before the comment of a line is marked by its offsets. -/
theorem Token.StandsIn.marks {token : Token} {text : List Char}
    (stands : token.StandsIn (stripComment text)) :
    Marks text token.start token.stop token.text := by
  obtain ⟨⟨before, after, whole, counted⟩, filled, starts, ends⟩ := stands
  obtain ⟨comment, split⟩ := List.takeWhile_prefix (l := text) (· ≠ '#')
  have cut : text = before ++ token.text ++ (after ++ comment) := by
    rw [← List.append_assoc, ← whole]
    exact split.symm
  have clean : '#' ∉ before ++ token.text := by
    intro mark
    refine hash_notMem_stripComment text ?_
    rw [whole]
    exact List.mem_append_left _ mark
  have stop : token.stop = byteLength (before ++ token.text) := by
    rw [byteLength_append, ← counted]
    rfl
  exact
    { cut := ⟨before, after ++ comment, cut, counted, stop, clean⟩
      filled := Nat.lt_add_of_pos_right (byteLength_pos filled)
      inside := by
        rw [stop, cut, byteLength_append _ (after ++ comment)]
        exact Nat.le_add_right _ _
      starts
      ends }

section Compile

variable {capacity limits : Extent} {source : List (List Char)}

/-- The text of every line is kept, unless there are too many. -/
theorem kept_of_le (few : source.length ≤ (limits.within capacity).lines) :
    (compile capacity limits source).kept = source.map (keptText capacity) := by
  simp only [compile, if_neg (not_lt.2 few)]

variable {bounds : Extent}

/-- A line that is not too long is kept in upper case. -/
theorem getElem?_kept {index : Nat} {line : List Char} (here : source[index]? = some line)
    (fits : isOverlong capacity bounds line = false) :
    (source.map (keptText capacity))[index]? = some (upper line) := by
  rw [List.getElem?_map, here, Option.map_some, keptText_eq_upper fits]

/-- A line that defines a label is kept with this label. -/
theorem exists_kept_of_defines {name : List Char} {place : Nat}
    (defines : Source.Defines source name place)
    (fits : ∀ line, source[place]? = some line → isOverlong capacity bounds line = false) :
    ∃ other, (source.map (keptText capacity))[place]? = some other ∧
      Source.labelName? other = some name := by
  obtain ⟨line, written, there, named, rfl⟩ := defines
  refine ⟨upper line, getElem?_kept there (fits line there), ?_⟩
  rw [Source.labelName?_upper, named, Option.map_some]

/-- A line that is not at fault is not too long. -/
theorem isOverlong_eq_false {earlier : List (List Char)} {line : List Char}
    (sound : ¬AtFault capacity bounds earlier line) :
    isOverlong capacity bounds line = false := by
  rw [Bool.eq_false_iff]
  intro long
  cases isOverlong_iff.1 long with
  | inl wide => exact sound (.inl wide)
  | inr loses => exact sound (.inr (.inl loses))

/-- The error of the first line at fault marks what is at fault, unless it is that the line is too
long. -/
theorem LineFault.marks_culprit {index : Nat} {line : List Char} {error : CompileError}
    (least : IsLeast {index | AtFaultAt capacity bounds source index} index)
    (here : source[index]? = some line)
    (fault : LineFault capacity bounds (source.take index) line error)
    (short : error.fault ≠ .lineTooLong) :
    ∃ text piece, (source.map (keptText capacity))[index]? = some text ∧
      Marks text error.startColumn error.endColumn piece ∧
      Culprit (source.map (keptText capacity)) index error.startColumn piece error.fault := by
  cases fault with
  | tooLong => exact absurd rfl short
  | @malformedLabel label fits refused =>
      have there := getElem?_kept here fits
      obtain ⟨named, blank, stands⟩ := Line.read_eq_error refused
      exact ⟨upper line, label.text, there, stands.marks, .unexpectedToken there named blank⟩
  | @repeatedLabel parts label place fits read labelled known =>
      have there := getElem?_kept here fits
      have stands := ((Line.standsIn_of_read read).1 label labelled).2
      have named : Source.labelName? (upper line) = some label.text := by
        rw [← (Line.read_eq_ok read).1, labelled, textOf?_some]
      obtain ⟨other, written, found, named', same⟩ := known
      have before : place < index := by
        by_contra beyond
        rw [List.getElem?_take_eq_none (not_lt.1 beyond)] at found
        cases found
      rw [List.getElem?_take_of_lt before] at found
      have sound : ∀ line, source[place]? = some line →
          isOverlong capacity bounds line = false := by
        intro line there
        apply isOverlong_eq_false
        intro faulty
        exact absurd (least.2 ⟨line, there, faulty⟩) (not_le.2 before)
      have defines : Source.Defines source label.text place :=
        ⟨other, written, found, named', same⟩
      obtain ⟨text, kept, known⟩ := exists_kept_of_defines defines sound
      exact ⟨upper line, label.text, there, stands.marks,
        .duplicateLabel there named before kept known⟩
  | @illFormed parts statement flaw fits read _ found fails =>
      have there := getElem?_kept here fits
      have blames := Statement.operation_eq_error fails
      obtain ⟨place, placed⟩ := blames.exists_place
      have stands := (Line.standsIn_of_read read).2 statement found place flaw.token placed
      exact ⟨upper line, flaw.token.text, there, stands.marks, .illFormed there read found blames⟩

/-- When no line is at fault, the label of a jump that no line defines is marked by its offsets. -/
theorem marks_undefinedLabel (sound : ∀ index, ¬AtFaultAt capacity bounds source index)
    {index : Nat} {line : List Char} {condition : Condition} {label : Token}
    (here : source[index]? = some line) (asks : Asks line (.jump condition label))
    (undefined : ∀ place, ¬Source.Defines source label.text place) :
    ∃ text, (source.map (keptText capacity))[index]? = some text ∧
      Marks text label.start label.stop label.text ∧
      Culprit (source.map (keptText capacity)) index label.start label.text .undefinedLabel := by
  have short : ∀ {place : Nat} {line : List Char}, source[place]? = some line →
      isOverlong capacity bounds line = false := by
    intro place line there
    exact isOverlong_eq_false fun faulty => sound place ⟨line, there, faulty⟩
  obtain ⟨parts, statement, read, found, asked⟩ := asks
  obtain ⟨opcode, known, jumps, first⟩ := Statement.first_eq_of_jump asked
  have there := getElem?_kept here (short here)
  have stands := (Line.standsIn_of_read read).2 statement found 1 label first
  have unknown : ∀ other ∈ source.map (keptText capacity),
      Source.labelName? other ≠ some label.text := by
    intro other kept named
    obtain ⟨place, placed⟩ := List.mem_iff_getElem?.1 kept
    rw [List.getElem?_map] at placed
    obtain ⟨written, inside, rfl⟩ := Option.map_eq_some_iff.1 placed
    rw [keptText_eq_upper (short inside), Source.labelName?_upper] at named
    obtain ⟨name, named, same⟩ := Option.map_eq_some_iff.1 named
    exact undefined place ⟨written, name, inside, named, same⟩
  exact ⟨upper line, there, stands.marks, .undefinedLabel there read found known jumps first unknown⟩

end Compile

/-- An error that is not about the number of lines or the length of a line names a line that is kept
and marks the piece of it that is at fault. -/
theorem compile_marks_culprit {capacity limits : Extent}
    (countable : (limits.within capacity).lines ≤ maxPosition) {source : List (List Char)}
    {error : CompileError} (fails : (compile capacity limits source).outcome = .error error)
    (few : error.fault ≠ .tooManyLines) (short : error.fault ≠ .lineTooLong) :
    ∃ index text piece, error.line = index + 1 ∧
      (compile capacity limits source).kept[index]? = some text ∧
      Marks text error.startColumn error.endColumn piece ∧
      Culprit (compile capacity limits source).kept index error.startColumn piece error.fault := by
  have counted := length_le_of_fault_ne fails few
  rw [kept_of_le counted]
  cases compile_eq_error counted fails with
  | inl faulty =>
      obtain ⟨index, line, least, here, fault⟩ := faulty
      obtain ⟨text, piece, there, marks, culprit⟩ := fault.marks_culprit least here short
      have number := fault.line_eq_succ countable counted here
      exact ⟨index, text, piece, number, there, marks, culprit⟩
  | inr undefined =>
      obtain ⟨sound, index, line, condition, label, -, here, asks, unknown, rfl⟩ := undefined
      obtain ⟨text, there, marks, culprit⟩ := marks_undefinedLabel sound here asks unknown
      have number := number_of_getElem? countable counted here
      exact ⟨index, text, label.text, number, there, marks, culprit⟩

/-- A source with a letter whose upper case is longer, and then a destination outside ASCII. -/
def foreignLetters : List (List Char) :=
  ["ß: NOP".toList, "mov 5 ä # store".toList]

/-- The destination is marked by its two bytes. -/
theorem foreignLetters_marks_culprit :
    (Extent.within .standard ⟨64, 64⟩).lines ≤ maxPosition ∧
      (compile ⟨64, 64⟩ .standard foreignLetters).outcome =
        .error ⟨.invalidOperand .notTarget, 2, 6, 8⟩ ∧
      ∃ index text piece, 2 = index + 1 ∧
        (compile ⟨64, 64⟩ .standard foreignLetters).kept[index]? = some text ∧
        Marks text 6 8 piece ∧
        Culprit (compile ⟨64, 64⟩ .standard foreignLetters).kept index 6 piece
          (.invalidOperand .notTarget) := by
  have countable : (Extent.within .standard ⟨64, 64⟩).lines ≤ maxPosition := by decide
  have fails : (compile ⟨64, 64⟩ .standard foreignLetters).outcome =
      .error ⟨.invalidOperand .notTarget, 2, 6, 8⟩ := by
    decide
  exact ⟨countable, fails, compile_marks_culprit countable fails nofun nofun⟩

end NodeGrid.Assembly
