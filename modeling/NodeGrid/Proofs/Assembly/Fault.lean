import NodeGrid.Proofs.Assembly.Blame
import NodeGrid.Proofs.Assembly.Labels

/-!
# The first line at fault

A line can be at fault on its own, given the labels of the lines before it.  Here the faults of a
line are listed, and each comes with its error.  A line that is not too long is read onto a draft of
the lines before it exactly when it is not at fault; so reading lines in order stops at the first
line at fault, with the error of that line.
-/

namespace NodeGrid.Assembly

open Text

/-! ## Faults of lines -/

/-- The error that says what is wrong with a line behind some others.  That the line is too long
comes first, then comes its label, and then its instruction part. -/
inductive LineFault (capacity bounds : Extent) (earlier : List (List Char)) (line : List Char) :
    CompileError → Prop where
  | tooLong (long : isOverlong capacity bounds line = true) :
      LineFault capacity bounds earlier line
        (.onLine .lineTooLong earlier.length bounds.columns bounds.columns)
  | malformedLabel {label : Token} (fits : isOverlong capacity bounds line = false)
      (refused : Line.read (upper line) = .error label) :
      LineFault capacity bounds earlier line (.onToken .unexpectedToken earlier.length label)
  | repeatedLabel {parts : Line} {label : Token} {index : Nat}
      (fits : isOverlong capacity bounds line = false)
      (read : Line.read (upper line) = .ok parts) (labelled : parts.label = some label)
      (known : Source.Defines earlier label.text index) :
      LineFault capacity bounds earlier line (.onToken .duplicateLabel earlier.length label)
  | illFormed {parts : Line} {statement : Statement} {flaw : Flaw}
      (fits : isOverlong capacity bounds line = false)
      (read : Line.read (upper line) = .ok parts)
      (fresh : ∀ label ∈ parts.label, ∀ index, ¬Source.Defines earlier label.text index)
      (found : parts.statement = some statement) (fails : statement.operation = .error flaw) :
      LineFault capacity bounds earlier line (.onToken flaw.fault earlier.length flaw.token)

/-- A line behind some others is at fault on its own: it is too long, there is white space in the
name of its label, an earlier line defines the same label, or its instruction part asks for
nothing. -/
def AtFault (capacity bounds : Extent) (earlier : List (List Char)) (line : List Char) : Prop :=
  bounds.columns < line.length ∨ capacity.columns < byteLength (upper line) ∨
    (∃ name, Source.labelName? line = some name ∧ name.any isBlank) ∨
    (∃ name index, Source.labelName? line = some name ∧
      Source.Defines earlier (upper name) index) ∨
    Source.HasStatement line ∧ ∀ operation, ¬Asks line operation

theorem isOverlong_iff {capacity bounds : Extent} {line : List Char} :
    isOverlong capacity bounds line = true ↔
      bounds.columns < line.length ∨ capacity.columns < byteLength (upper line) := by
  simp [isOverlong]

theorem any_isBlank_upper (text : List Char) : (upper text).any isBlank = text.any isBlank := by
  rw [Bool.eq_iff_iff]
  simp only [List.any_eq_true, upper, List.mem_flatMap]
  constructor
  · rintro ⟨image, ⟨char, member, listed⟩, blank⟩
    exact ⟨char, member, (caseless_isBlank char image listed).symm.trans blank⟩
  · rintro ⟨char, member, blank⟩
    obtain ⟨image, listed⟩ := List.exists_mem_of_ne_nil _ (upperChar_ne_nil char)
    exact ⟨image, ⟨char, member, listed⟩, (caseless_isBlank char image listed).trans blank⟩

/-- A line is not read exactly when there is white space in the name of its label. -/
theorem Line.exists_read_error_iff {text : List Char} :
    (∃ label, Line.read text = .error label) ↔
      ∃ name, Source.labelName? text = some name ∧ name.any isBlank := by
  constructor
  · rintro ⟨label, fails⟩
    obtain ⟨named, blank, -⟩ := Line.read_eq_error fails
    exact ⟨label.text, named, blank⟩
  · rintro ⟨name, named, blank⟩
    cases read : Line.read text with
    | error label => exact ⟨label, rfl⟩
    | ok parts =>
        obtain ⟨label, there, rfl⟩ := textOf?_eq_some_iff.1 ((Line.read_eq_ok read).1.trans named)
        rw [((Line.standsIn_of_read read).1 label there).1] at blank
        cases blank

/-- A line from which a statement is read has an instruction part. -/
theorem Line.hasStatement_of_read {line : List Char} {parts : Line} {statement : Statement}
    (read : Line.read (upper line) = .ok parts) (found : parts.statement = some statement) :
    Source.HasStatement line := by
  rw [← Source.hasStatement_upper, ← Line.statement_isSome_iff read, found]
  rfl

/-- An error of a line has the number of the line, as far as numbers go. -/
theorem LineFault.line_eq {capacity bounds : Extent} {earlier : List (List Char)}
    {line : List Char} {error : CompileError}
    (fault : LineFault capacity bounds earlier line error) :
    error.line = min (earlier.length + 1) maxPosition := by
  cases fault <;> rfl

/-- No error of a line is about the number of lines, and none is that a label is unknown. -/
theorem LineFault.fault_ne {capacity bounds : Extent} {earlier : List (List Char)}
    {line : List Char} {error : CompileError}
    (fault : LineFault capacity bounds earlier line error) :
    error.fault ≠ .tooManyLines ∧ error.fault ≠ .undefinedLabel := by
  cases fault with
  | tooLong | malformedLabel | repeatedLabel => exact ⟨nofun, nofun⟩
  | illFormed _ _ _ _ fails => exact (Statement.operation_eq_error fails).fault_ne

/-- A line that has an error is at fault. -/
theorem LineFault.atFault {capacity bounds : Extent} {earlier : List (List Char)}
    {line : List Char} {error : CompileError}
    (fault : LineFault capacity bounds earlier line error) :
    AtFault capacity bounds earlier line := by
  cases fault with
  | tooLong long =>
      cases isOverlong_iff.1 long with
      | inl wide => exact .inl wide
      | inr loses => exact .inr (.inl loses)
  | malformedLabel _ refused =>
      obtain ⟨name, named, blank⟩ := Line.exists_read_error_iff.1 ⟨_, refused⟩
      rw [Source.labelName?_upper] at named
      obtain ⟨written, there, rfl⟩ := Option.map_eq_some_iff.1 named
      rw [any_isBlank_upper] at blank
      exact .inr (.inr (.inl ⟨written, there, blank⟩))
  | repeatedLabel _ read labelled known =>
      have named := (Line.read_eq_ok read).1
      rw [labelled, Source.labelName?_upper, textOf?_some] at named
      obtain ⟨written, there, same⟩ := Option.map_eq_some_iff.1 named.symm
      rw [← same] at known
      exact .inr (.inr (.inr (.inl ⟨written, _, there, known⟩)))
  | illFormed _ read _ found fails =>
      refine .inr (.inr (.inr (.inr ⟨Line.hasStatement_of_read read found, ?_⟩)))
      intro operation asks
      have asked := (asks_iff read found).1 asks
      rw [fails] at asked
      cases asked

/-! ## One line -/

namespace Draft

variable {draft : Draft}

/-- A label is not entered when its name is known. -/
theorem addLabel_eq_error_iff {label : Option Token} {flaw : Flaw} :
    draft.addLabel label = .error flaw ↔
      ∃ found, label = some found ∧ found.text ∈ draft.labels.map (·.name) ∧
        flaw = ⟨.duplicateLabel, found⟩ := by
  cases label with
  | none => simp [addLabel]
  | some token =>
      by_cases known : token.text ∈ draft.labels.map (·.name)
      · have found : draft.labels.any fun label => label.name = token.text := by simpa using known
        rw [addLabel, if_pos found, Except.error.injEq]
        constructor
        · rintro rfl
          exact ⟨token, rfl, known, rfl⟩
        · rintro ⟨_, ⟨⟩, -, rfl⟩
          rfl
      · have fresh : ¬draft.labels.any fun label => label.name = token.text := by
          simpa using known
        rw [addLabel, if_neg fresh]
        apply iff_of_false
        · intro passes
          cases passes
        · intro repeated
          obtain ⟨_, same, there, -⟩ := repeated
          cases same
          exact known there

/-- A statement is not entered when it asks for nothing. -/
theorem addStatement_eq_error_iff {index : Nat} {statement : Option Statement} {flaw : Flaw} :
    draft.addStatement index statement = .error flaw ↔
      ∃ found, statement = some found ∧ found.operation = .error flaw := by
  cases statement with
  | none => simp [addStatement]
  | some found => simp [addStatement, bind_eq_error_iff, pure, Except.pure]

end Draft

namespace Draft.Describes

variable {draft : Draft} {capacity bounds : Extent} {earlier : List (List Char)} {line : List Char}

/-- The names on a draft are those that the lines define. -/
theorem mem_names_iff (describes : draft.Describes earlier) {name : List Char} :
    name ∈ draft.labels.map (·.name) ↔ ∃ index, Source.Defines earlier name index := by
  rw [describes.labels, List.mem_map]
  constructor
  · rintro ⟨⟨name, count⟩, listed, rfl⟩
    obtain ⟨index, defines, -⟩ := Source.mem_labels_iff.1 listed
    exact ⟨index, defines⟩
  · rintro ⟨index, defines⟩
    exact ⟨⟨name, _⟩, Source.mem_labels_iff.2 ⟨index, defines, rfl⟩, rfl⟩

/-- When a line that is not too long cannot be read onto a draft, this is its error. -/
theorem lineFault (describes : draft.Describes earlier)
    (fits : isOverlong capacity bounds line = false) {index : Nat} {flaw : Flaw}
    (fails : draft.addLine index (upper line) = .error flaw) :
    LineFault capacity bounds earlier line (.onToken flaw.fault earlier.length flaw.token) := by
  unfold Draft.addLine at fails
  cases read : Line.read (upper line) with
  | error label =>
      rw [read] at fails
      cases fails
      exact .malformedLabel fits read
  | ok parts =>
      rw [read] at fails
      cases bind_eq_error_iff.1 fails with
      | inl repeated =>
          obtain ⟨label, labelled, known, rfl⟩ := addLabel_eq_error_iff.1 repeated
          obtain ⟨place, defines⟩ := describes.mem_names_iff.1 known
          exact .repeatedLabel fits read labelled defines
      | inr entered =>
          obtain ⟨labelled, named, refused⟩ := entered
          obtain ⟨statement, found, flawed⟩ := addStatement_eq_error_iff.1 refused
          apply LineFault.illFormed fits read _ found flawed
          intro label there place defines
          apply (addLabel_eq_ok_iff.1 named).1 label.text
          · rw [Option.mem_def.1 there, textOf?_some, Option.mem_def]
          · exact describes.mem_names_iff.2 ⟨place, defines⟩

/-- A line that is read onto a draft is not at fault, unless it is too long. -/
theorem not_atFault (describes : draft.Describes earlier)
    (fits : isOverlong capacity bounds line = false) {index : Nat} {extended : Draft}
    (added : draft.addLine index (upper line) = .ok extended) :
    ¬AtFault capacity bounds earlier line := by
  obtain ⟨parts, labelled, read, named, entered⟩ := addLine_eq_ok_iff.1 added
  have label := (Line.read_eq_ok read).1
  rw [Source.labelName?_upper] at label
  rintro (wide | loses | ⟨name, there, blank⟩ | ⟨name, place, there, defines⟩ | ⟨has, silent⟩)
  · rw [isOverlong_iff.2 (.inl wide)] at fits
    cases fits
  · rw [isOverlong_iff.2 (.inr loses)] at fits
    cases fits
  · rw [there] at label
    obtain ⟨token, found, same⟩ := textOf?_eq_some_iff.1 label
    have solid := ((Line.standsIn_of_read read).1 token found).1
    rw [same, any_isBlank_upper, blank] at solid
    cases solid
  · rw [there] at label
    exact (addLabel_eq_ok_iff.1 named).1 _ label (describes.mem_names_iff.2 ⟨place, defines⟩)
  · rw [← Source.hasStatement_upper, ← Line.statement_isSome_iff read,
      Option.isSome_iff_exists] at has
    obtain ⟨statement, found⟩ := has
    rw [found] at entered
    obtain ⟨operation, asked, -⟩ := addStatement_eq_ok_iff.1 entered
    exact silent operation ⟨parts, statement, read, found, asked⟩

end Draft.Describes

/-! ## All lines -/

/-- The line with this index is at fault on its own. -/
def AtFaultAt (capacity bounds : Extent) (source : List (List Char)) (index : Nat) : Prop :=
  ∃ line, source[index]? = some line ∧ AtFault capacity bounds (source.take index) line

section Lines

variable {capacity bounds : Extent} {draft : Draft} {done rest : List (List Char)}

/-- When lines are read, none of them is at fault. -/
theorem readLines_not_atFault (describes : draft.Describes done) {final : Draft}
    (read : readLines capacity bounds done.length draft rest = .ok final) {index : Nat}
    {line : List Char} (there : rest[index]? = some line) :
    ¬AtFault capacity bounds (done ++ rest.take index) line := by
  induction rest generalizing draft done index with
  | nil => cases there
  | cons first rest ih =>
      obtain ⟨short, extended, added, read⟩ := readLines_cons_eq_ok_iff.1 read
      cases index with
      | zero =>
          cases there
          rw [List.take_zero, List.append_nil]
          exact describes.not_atFault short added
      | succ index =>
          rw [List.take_succ_cons, List.append_cons]
          apply ih (describes.addLine added) _ there
          rw [List.length_append, List.length_singleton]
          exact read

/-- When reading lines fails, it fails with the error of a line behind others that are read. -/
theorem readLines_eq_error (describes : draft.Describes done) {error : CompileError}
    (fails : readLines capacity bounds done.length draft rest = .error error) :
    ∃ before line after, rest = before ++ line :: after ∧
      (∃ final, readLines capacity bounds done.length draft before = .ok final) ∧
      LineFault capacity bounds (done ++ before) line error := by
  induction rest generalizing draft done with
  | nil => cases fails
  | cons first rest ih =>
      unfold readLines at fails
      split at fails
      next long =>
        cases fails
        refine ⟨[], first, rest, rfl, ⟨draft, rfl⟩, ?_⟩
        rw [List.append_nil]
        exact .tooLong long
      next fits =>
        have short : isOverlong capacity bounds first = false := by simpa using fits
        rw [keptText_eq_upper short] at fails
        split at fails
        next flaw refused =>
          cases fails
          refine ⟨[], first, rest, rfl, ⟨draft, rfl⟩, ?_⟩
          rw [List.append_nil]
          exact describes.lineFault short refused
        next extended added =>
          have longer : done.length + 1 = (done ++ [first]).length := by simp
          rw [longer] at fails
          obtain ⟨before, line, after, rfl, ⟨final, read⟩, fault⟩ :=
            ih (describes.addLine added) fails
          have first_read := readLines_cons_eq_ok_iff.2 ⟨short, extended, added, longer ▸ read⟩
          refine ⟨first :: before, line, after, rfl, ⟨final, first_read⟩, ?_⟩
          rw [List.append_cons]
          exact fault

end Lines

section Source

variable {capacity bounds : Extent} {source : List (List Char)}

/-- When all lines are read, no line is at fault. -/
theorem not_atFaultAt_of_readLines {final : Draft}
    (read : readLines capacity bounds 0 ⟨[], []⟩ source = .ok final) (index : Nat) :
    ¬AtFaultAt capacity bounds source index := by
  rintro ⟨line, there, fault⟩
  exact readLines_not_atFault .nil read there fault

/-- When not all lines are read, the error is that of the first line that is at fault. -/
theorem isLeast_of_readLines_eq_error {error : CompileError}
    (fails : readLines capacity bounds 0 ⟨[], []⟩ source = .error error) :
    ∃ index line, IsLeast {index | AtFaultAt capacity bounds source index} index ∧
      source[index]? = some line ∧
      LineFault capacity bounds (source.take index) line error := by
  obtain ⟨before, line, after, rfl, ⟨final, read⟩, fault⟩ := readLines_eq_error .nil fails
  have here : (before ++ line :: after)[before.length]? = some line := by simp
  have taken : (before ++ line :: after).take before.length = before := by simp
  refine ⟨before.length, line, ⟨⟨line, here, ?_⟩, ?_⟩, here, ?_⟩
  · rw [taken]
    exact fault.atFault
  · rintro index ⟨other, there, faulty⟩
    by_contra earlier
    have inside : index < before.length := Nat.lt_of_not_le earlier
    rw [List.getElem?_append_left inside] at there
    rw [List.take_append_of_le_length inside.le] at faulty
    exact readLines_not_atFault .nil read there faulty
  · rw [taken]
    exact fault

end Source

end NodeGrid.Assembly
