import NodeGrid.Proofs.Assembly.Labels
import NodeGrid.Proofs.Assembly.Place
import NodeGrid.Proofs.Text.Idempotence

/-!
# Jumping to a label by its name

The name of a label is whatever stands before a colon in one piece, and a jump takes the word that
follows its mnemonic.  A line with a jump to a name is read here for all names that labels can have.
Names are in upper case, so they are kept as they are, and there is no white space, colon or hash in
them.  But there may be commas, and a word ends at a comma.  So a name with a comma cannot be given
to a jump, while every other name can.
-/

namespace NodeGrid.Assembly

open Text

/-- The line that jumps to a name. -/
def jumpLine (name : List Char) : List Char :=
  "JMP ".toList ++ name

/-- A program with one more instruction, a jump on this line. -/
def Program.withJump (program : Program) (index line : Nat) : Program :=
  ⟨program.code ++ [⟨.jump .always index, line⟩], program.labels⟩

/-- What the names of labels have in common. -/
structure IsName (name : List Char) : Prop where
  filled : name ≠ []
  raised : upper name = name
  solid : ∀ char ∈ name, isBlank char = false
  no_colon : ':' ∉ name
  no_hash : '#' ∉ name

/-! ## Names of labels -/

namespace Source

/-- A label that is read has the name of a label. -/
theorem isName_of_labelName? {line written : List Char} {parts : Line}
    (read : Line.read (upper line) = .ok parts) (named : labelName? line = some written) :
    IsName (upper written) := by
  have label := (Line.read_eq_ok read).1
  rw [labelName?_upper, named, Option.map_some] at label
  obtain ⟨token, there, text⟩ := textOf?_eq_some_iff.1 label
  obtain ⟨solid, stands⟩ := (Line.standsIn_of_read read).1 token there
  rw [text] at solid
  have named' := (labelName?_upper line).trans (congrArg _ named)
  unfold labelName? at named'
  split at named'
  next =>
    have trimmed : trimEnd (beforeColon (upper line)) = upper written := Option.some.inj named'
    have inside : ∀ char ∈ upper written, char ∈ beforeColon (upper line) := by
      intro char member
      rw [← trimmed] at member
      exact (trimEnd_isPrefix _).mem member
    exact
      { filled := text ▸ stands.filled
        raised := upper_upper written
        solid := by simpa using solid
        no_colon := fun colon => by simpa using List.mem_takeWhile_imp (inside ':' colon)
        no_hash := fun hash => hash_notMem_stripComment (upper line)
          ((List.dropWhile_suffix _).mem ((List.takeWhile_prefix _).mem (inside '#' hash))) }
  next => cases named'

end Source

/-- The labels of a program that is compiled have such names. -/
theorem isName_of_compile {capacity limits : Extent} {source : List (List Char)} {program : Program}
    (compiled : (compile capacity limits source).outcome = .ok program) {label : Label}
    (known : label ∈ program.labels) : IsName label.name := by
  obtain ⟨-, fit, describes⟩ := compile_eq_ok_iff.1 compiled
  rw [describes.labels] at known
  obtain ⟨index, ⟨line, written, here, named, same⟩, -⟩ := Source.mem_labels_iff.1 known
  obtain ⟨-, parts, read⟩ := fit line (List.mem_of_getElem? here)
  rw [← same]
  exact Source.isName_of_labelName? read named

/-! ## A line with a jump -/

namespace IsName

variable {name : List Char} (is_name : IsName name)
include is_name

theorem upper_jumpLine : upper (jumpLine name) = jumpLine name := by
  rw [jumpLine, upper_append, is_name.raised]
  rfl

theorem content_jumpLine : Source.content (jumpLine name) = jumpLine name := by
  have no_hash : '#' ∉ jumpLine name :=
    List.not_mem_append (by decide) is_name.no_hash
  rw [Source.content, stripComment, List.takeWhile_eq_self_iff.2 (ne_of_notMem no_hash)]
  rfl

theorem not_isLabelled_jumpLine : ¬Source.IsLabelled (jumpLine name) := by
  have no_colon : ':' ∉ jumpLine name :=
    List.not_mem_append (by decide) is_name.no_colon
  have nothing : Source.fromColon (jumpLine name) = [] := by
    rw [Source.fromColon, is_name.content_jumpLine,
      List.dropWhile_eq_nil_iff.2 (ne_of_notMem no_colon)]
  exact fun labelled => labelled.1 nothing

theorem labelName?_jumpLine : Source.labelName? (jumpLine name) = none :=
  if_neg is_name.not_isLabelled_jumpLine

theorem statement_jumpLine : Source.statement (jumpLine name) = jumpLine name := by
  rw [Source.statement, if_neg is_name.not_isLabelled_jumpLine, is_name.content_jumpLine]
  rfl

theorem mnemonic_jumpLine : Source.mnemonic (jumpLine name) = "JMP".toList := by
  rw [Source.mnemonic, is_name.statement_jumpLine]
  rfl

theorem arguments_jumpLine : Source.arguments (jumpLine name) = ' ' :: name := by
  rw [Source.arguments, is_name.statement_jumpLine]
  rfl

/-- The line is read as a jump with what is read from the name as its operands. -/
theorem exists_read_jumpLine : ∃ parts mnemonic after,
    Line.read (upper (jumpLine name)) = .ok parts ∧
      parts.statement = some (readOperands mnemonic after) ∧ mnemonic.text = "JMP".toList ∧
      after.text = ' ' :: name := by
  obtain ⟨parts, read⟩ : ∃ parts, Line.read (upper (jumpLine name)) = .ok parts := by
    refine Line.exists_read fun written named => ?_
    rw [Source.labelName?_upper, is_name.labelName?_jumpLine] at named
    cases named
  have has : parts.statement.isSome := by
    rw [Line.statement_isSome_iff read, is_name.upper_jumpLine, Source.HasStatement,
      is_name.statement_jumpLine]
    exact List.cons_ne_nil _ _
  obtain ⟨statement, found⟩ := Option.isSome_iff_exists.1 has
  obtain ⟨mnemonic, after, rfl, word, tail⟩ := Line.statement_eq_some read found
  rw [is_name.upper_jumpLine] at word tail
  exact ⟨parts, mnemonic, after, read, found, word.trans is_name.mnemonic_jumpLine,
    tail.trans is_name.arguments_jumpLine⟩

end IsName

/-! ## The operand -/

theorem dropWhile_isBlank_of_solid {text : List Char}
    (solid : ∀ char ∈ text, isBlank char = false) : text.dropWhile isBlank = text := by
  cases text with
  | nil => rfl
  | cons char rest => exact List.dropWhile_cons_of_neg (by simp [solid char List.mem_cons_self])

section Operands

variable {mnemonic : Token} {rest : Remainder} {word behind : List Char}

/-- When one operand is read and a comma stands behind it, nothing follows the comma. -/
theorem behind_comma_eq_nil (starts : rest.text.dropWhile isBlank = word ++ ',' :: behind)
    (inside : ∀ char ∈ word, isOperandChar char) (solid : ∀ char ∈ behind, isBlank char = false)
    (second : (readOperands mnemonic rest).second = none)
    (excess : (readOperands mnemonic rest).excess = none) : behind = [] := by
  let atComma := (rest.skipBlank.skip isOperandChar).skipBlank
  let atSecond := atComma.skipComma.skipBlank
  have at_comma : atComma.text = ',' :: behind := by
    rw [Remainder.skipBlank_text, Remainder.skip_text, Remainder.skipBlank_text, starts,
      dropWhile_append_run inside (by simp [isOperandChar])]
    exact List.dropWhile_cons_of_neg (by decide)
  have at_second : atSecond.text = behind := by
    rw [Remainder.skipBlank_text, Remainder.skipComma_comma _ at_comma,
      dropWhile_isBlank_of_solid solid]
  have no_word : behind.takeWhile isOperandChar = [] := by
    rw [← at_second]
    exact atSecond.word?_eq_none_iff.1 second
  have passed : behind.dropWhile isOperandChar = behind := by
    have split : behind.takeWhile isOperandChar ++ behind.dropWhile isOperandChar = behind :=
      List.takeWhile_append_dropWhile
    rwa [no_word, List.nil_append] at split
  have blank : trimEnd (atSecond.skip isOperandChar).skipBlank.text = [] :=
    (Remainder.token?_eq_none_iff _).1 excess
  rw [Remainder.skipBlank_text, Remainder.skip_text, at_second, passed,
    dropWhile_isBlank_of_solid solid, trimEnd_eq_nil_iff] at blank
  refine List.eq_nil_iff_forall_not_mem.2 fun char member => ?_
  have visible := solid char member
  rw [blank char member] at visible
  cases visible

end Operands

/-- A word is all of a name, or all but a comma at its end. -/
structure Denotes (name word : List Char) : Prop where
  filled : word ≠ []
  no_comma : ',' ∉ word
  whole : name = word ∨ name = word ++ [',']

namespace IsName

variable {name : List Char} (is_name : IsName name)
include is_name

theorem isOperandChar_of_ne_comma {char : Char} (member : char ∈ name) (other : char ≠ ',') :
    isOperandChar char := by
  simp [isOperandChar, is_name.solid char member, other]

section Operands

variable {mnemonic : Token} {rest : Remainder} {word : List Char}
variable (there : rest.text = ' ' :: name)
include there

theorem skipBlank_text : rest.skipBlank.text = name := by
  rw [Remainder.skipBlank_text, there, List.dropWhile_cons_of_pos (by decide),
    dropWhile_isBlank_of_solid is_name.solid]

/-- When just one operand is read from a name, nothing but a comma follows it. -/
theorem denotes_of_readOperands (first : textOf? (readOperands mnemonic rest).first = some word)
    (second : (readOperands mnemonic rest).second = none)
    (excess : (readOperands mnemonic rest).excess = none) : Denotes name word := by
  obtain ⟨token, found, text⟩ := textOf?_eq_some_iff.1 first
  have taken : name.takeWhile isOperandChar = word := by
    rw [← text, rest.skipBlank.word?_eq_some found, is_name.skipBlank_text there]
  have inside : ∀ char ∈ word, isOperandChar char := by
    rw [← taken]
    exact fun char => List.mem_takeWhile_imp
  have split : word ++ name.dropWhile isOperandChar = name := by
    rw [← taken, List.takeWhile_append_dropWhile]
  refine ⟨?filled, fun comma => absurd (inside ',' comma) (by decide), ?whole⟩
  case filled =>
    rintro rfl
    have nothing : rest.skipBlank.word? isOperandChar = none := by
      rw [Remainder.word?_eq_none_iff, is_name.skipBlank_text there, taken]
    cases nothing.symm.trans found
  case whole =>
    have stops := List.head?_dropWhile_not isOperandChar name
    cases tail : name.dropWhile isOperandChar with
    | nil =>
        rw [tail, List.append_nil] at split
        exact .inl split.symm
    | cons mark behind =>
        rw [tail] at split stops
        have inner : ∀ char ∈ mark :: behind, char ∈ name := fun char member =>
          split ▸ List.mem_append_right word member
        obtain rfl : mark = ',' := by
          by_contra other
          simp [is_name.isOperandChar_of_ne_comma (inner mark List.mem_cons_self) other] at stops
        have solid : ∀ char ∈ behind, isBlank char = false := fun char member =>
          is_name.solid char (inner char (List.mem_cons_of_mem _ member))
        have starts := (is_name.skipBlank_text there).trans split.symm
        obtain rfl := behind_comma_eq_nil starts inside solid second excess
        exact .inr split.symm

/-- A word of a name is read as the only operand. -/
theorem readOperands_of_denotes (denotes : Denotes name word) :
    textOf? (readOperands mnemonic rest).first = some word ∧
      (readOperands mnemonic rest).second = none ∧ (readOperands mnemonic rest).excess = none := by
  have starts : rest.text.dropWhile isBlank = name := is_name.skipBlank_text there
  obtain ⟨filled, no_comma, whole⟩ := denotes
  have inner : ∀ char ∈ word, char ∈ name := by
    rcases whole with rfl | rfl
    · exact fun char => id
    · exact fun char => List.mem_append_left _
  have inside : ∀ char ∈ word, isOperandChar char := fun char member =>
    is_name.isOperandChar_of_ne_comma (inner char member) fun comma => no_comma (comma ▸ member)
  rcases whole with rfl | rfl
  · have alone : rest.text.dropWhile isBlank = name ++ [] := by rw [starts, List.append_nil]
    simpa [filled] using readOperands_runs alone inside (by simp) (fun _ => rfl) (by simp)
  · simpa [filled] using
      readOperands_runs starts inside (by simp [isOperandChar]) (fun _ => rfl) (by simp)

end Operands

/-- A line that jumps to a name stands for the jump to the label that a word of the name names. -/
theorem standsFor_iff {labels : List Label} {instruction : Instruction} :
    StandsFor labels (jumpLine name) instruction ↔
      ∃ word index, Denotes name word ∧ labelIndex? labels word = some index ∧
        instruction = .jump .always index := by
  obtain ⟨parts, mnemonic, rest, read, found, jumps, there⟩ := is_name.exists_read_jumpLine
  have opcode : Opcode.ofText? (readOperands mnemonic rest).mnemonic.text = some .jmp := by
    rw [show (readOperands mnemonic rest).mnemonic = mnemonic from rfl, jumps]
    decide
  constructor
  · rintro ⟨operation, asks, becomes⟩
    obtain ⟨_, known, all_read, takes⟩ :=
      Statement.operation_eq_ok_iff.1 ((asks_iff read found).1 asks)
    rw [opcode] at known
    cases known
    cases takes with
    | jump only alone =>
        obtain ⟨index, listed, rfl⟩ := becomes
        have first := congrArg textOf? only
        exact ⟨_, index, is_name.denotes_of_readOperands there first alone all_read, listed, rfl⟩
  · rintro ⟨word, index, denotes, listed, rfl⟩
    obtain ⟨first, alone, all_read⟩ := is_name.readOperands_of_denotes there denotes
    obtain ⟨token, only, rfl⟩ := textOf?_eq_some_iff.1 first
    have asked := Statement.operation_eq_ok_iff.2 ⟨_, opcode, all_read, .jump only alone⟩
    exact ⟨_, (asks_iff read found).2 asked, index, listed, rfl⟩

end IsName

/-! ## One more line -/

section Compile

variable {capacity limits : Extent} {source : List (List Char)} {program : Program}

/-- When a source compiles, it compiles with one more line if the line stands for an instruction,
which is added to the program. -/
theorem compile_concat_iff (compiled : (compile capacity limits source).outcome = .ok program)
    {line : List Char} (unnamed : Source.labelName? line = none) (has : Source.HasStatement line)
    (fits : Fits capacity limits (source ++ [line])) {other : Program} :
    (compile capacity limits (source ++ [line])).outcome = .ok other ↔
      ∃ instruction, StandsFor program.labels line instruction ∧
        other = ⟨program.code ++ [⟨instruction, source.length⟩], program.labels⟩ := by
  obtain ⟨-, fit, describes⟩ := compile_eq_ok_iff.1 compiled
  have labels : Source.labels (source ++ [line]) = program.labels := by
    rw [Source.labels_concat, unnamed, describes.labels]
    exact List.append_nil _
  have statements : Source.statements (source ++ [line]) =
      Source.statements source ++ [(line, source.length)] := by
    rw [Source.statements_concat, if_pos has]
  rw [compile_eq_ok_iff]
  constructor
  · rintro ⟨-, -, more⟩
    obtain ⟨whole, names⟩ := other
    obtain rfl : names = program.labels := more.labels.trans labels
    have code := more.code
    rw [statements] at code
    -- All but the last instruction are what the source amounts to.
    have first : Program.Describes ⟨whole.take (Source.statements source).length, program.labels⟩
        source :=
      ⟨describes.labels, describes.distinct, List.forall₂_take_append _ _ _ code⟩
    have taken := congrArg Program.code (first.unique describes)
    have last := List.forall₂_drop_append _ _ _ code
    obtain ⟨⟨instruction, place⟩, rest, ⟨same, stands⟩, nothing, dropped⟩ :=
      List.forall₂_cons_right_iff.1 last
    cases nothing
    cases same
    refine ⟨instruction, stands, ?_⟩
    rw [← taken, ← dropped, List.take_append_drop]
  · rintro ⟨instruction, stands, rfl⟩
    have reads : ∃ parts, Line.read (upper line) = .ok parts :=
      Line.exists_read (by simp [Source.labelName?_upper, unnamed])
    refine ⟨fits.lines, ?_, labels.symm, describes.distinct, ?_⟩
    · refine List.forall_mem_append.2 ⟨fit, List.forall_mem_singleton.2 ⟨?_, reads⟩⟩
      exact fits.columns line (by simp)
    · rw [statements]
      exact List.rel_append describes.code (.cons ⟨rfl, stands⟩ .nil)

/-- A label whose name holds no comma can be jumped to from one more line.  The line for a name with
a comma does not compile, unless there is only a comma behind the name of another label; then it
jumps there. -/
theorem label_reached_unless_comma
    (compiled : (compile capacity limits source).outcome = .ok program) {label : Label}
    (known : label ∈ program.labels)
    (fits : Fits capacity limits (source ++ [jumpLine label.name])) :
    (',' ∉ label.name →
      (compile capacity limits (source ++ [jumpLine label.name])).outcome =
        .ok (program.withJump label.index source.length)) ∧
    (',' ∈ label.name → ∀ other,
      (compile capacity limits (source ++ [jumpLine label.name])).outcome = .ok other ↔
        ∃ named ∈ program.labels, ',' ∉ named.name ∧ label.name = named.name ++ [','] ∧
          other = program.withJump named.index source.length) := by
  have is_name := isName_of_compile compiled known
  have distinct := (compile_describes compiled).distinct
  have has : Source.HasStatement (jumpLine label.name) := by
    rw [Source.HasStatement, is_name.statement_jumpLine]
    exact List.cons_ne_nil _ _
  have extended := @compile_concat_iff _ _ _ _ compiled _ is_name.labelName?_jumpLine has fits
  constructor
  · intro no_comma
    refine extended.2 ⟨_, is_name.standsFor_iff.2 ⟨label.name, label.index, ?_, ?_, rfl⟩, rfl⟩
    · exact ⟨is_name.filled, no_comma, .inl rfl⟩
    · exact (labelIndex?_eq_some_iff distinct).2 known
  · intro comma other
    rw [extended]
    constructor
    · rintro ⟨_, stands, rfl⟩
      obtain ⟨word, index, denotes, listed, rfl⟩ := is_name.standsFor_iff.1 stands
      refine ⟨⟨word, index⟩, (labelIndex?_eq_some_iff distinct).1 listed, denotes.no_comma, ?_, rfl⟩
      refine denotes.whole.resolve_left fun same => denotes.no_comma ?_
      rwa [← same]
    · rintro ⟨named, there, no_comma, whole, rfl⟩
      refine ⟨_, is_name.standsFor_iff.2 ⟨named.name, named.index, ?_, ?_, rfl⟩, rfl⟩
      · exact ⟨(isName_of_compile compiled there).filled, no_comma, .inr whole⟩
      · exact (labelIndex?_eq_some_iff distinct).2 there

end Compile

/-- A source with two labels, one of which is the other with a comma behind it. -/
def commaLabels : List (List Char) :=
  ["loop: NOP".toList, "loop,: SWP".toList]

/-- The jumps to both of them go to the one without a comma. -/
theorem commaLabels_reached : ∃ program,
    (compile ⟨64, 64⟩ .standard commaLabels).outcome = .ok program ∧
      program.labels = [⟨"LOOP".toList, 0⟩, ⟨"LOOP,".toList, 1⟩] ∧
      Fits ⟨64, 64⟩ .standard (commaLabels ++ [jumpLine "LOOP".toList]) ∧
      Fits ⟨64, 64⟩ .standard (commaLabels ++ [jumpLine "LOOP,".toList]) ∧
      (compile ⟨64, 64⟩ .standard (commaLabels ++ [jumpLine "LOOP".toList])).outcome =
        .ok (program.withJump 0 2) ∧
      (compile ⟨64, 64⟩ .standard (commaLabels ++ [jumpLine "LOOP,".toList])).outcome =
        .ok (program.withJump 0 2) := by
  have compiled : (compile ⟨64, 64⟩ .standard commaLabels).outcome =
      .ok ⟨[⟨.idle, 0⟩, ⟨.swap, 1⟩], [⟨"LOOP".toList, 0⟩, ⟨"LOOP,".toList, 1⟩]⟩ := by
    decide
  have fits : Fits ⟨64, 64⟩ .standard (commaLabels ++ [jumpLine "LOOP".toList]) :=
    ⟨by decide, by decide⟩
  have fits' : Fits ⟨64, 64⟩ .standard (commaLabels ++ [jumpLine "LOOP,".toList]) :=
    ⟨by decide, by decide⟩
  have plain := label_reached_unless_comma compiled List.mem_cons_self fits
  have comma := label_reached_unless_comma compiled
    (List.mem_cons_of_mem _ List.mem_cons_self) fits'
  refine ⟨_, compiled, rfl, fits, fits', plain.1 (by decide), ?_⟩
  exact (comma.2 (by decide) _).2 ⟨_, List.mem_cons_self, by decide, rfl, rfl⟩

/-- A comma within a name makes two operands of it. -/
theorem commaInside_not_reached : ∃ program,
    (compile ⟨64, 64⟩ .standard ["A,B: NOP".toList]).outcome = .ok program ∧
      ⟨"A,B".toList, 0⟩ ∈ program.labels ∧
      Fits ⟨64, 64⟩ .standard (["A,B: NOP".toList] ++ [jumpLine "A,B".toList]) ∧
      (compile ⟨64, 64⟩ .standard (["A,B: NOP".toList] ++ [jumpLine "A,B".toList])).outcome =
        .error ⟨.invalidOperand .excess, 2, 6, 7⟩ := by
  have compiled : (compile ⟨64, 64⟩ .standard ["A,B: NOP".toList]).outcome =
      .ok ⟨[⟨.idle, 0⟩], [⟨"A,B".toList, 0⟩]⟩ := by
    decide
  exact ⟨_, compiled, List.mem_cons_self, ⟨by decide, by decide⟩, by decide⟩

end NodeGrid.Assembly
