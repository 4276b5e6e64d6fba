import NodeGrid.Proofs.Assembly.Storage

/-!
# Which error is reported

Too many lines are noticed before anything else.  Otherwise the first line at fault is reported, and
only when there is none the first jump whose label no line defines.  If there is no such jump
either, compiling succeeds.
-/

namespace NodeGrid.Assembly

open Text

/-- The line with this index asks for a jump to a label that no line defines. -/
def UndefinedJumpAt (source : List (List Char)) (index : Nat) : Prop :=
  ∃ line condition label, source[index]? = some line ∧ Asks line (.jump condition label) ∧
    ∀ place, ¬Source.Defines source label.text place

/-- What compiling a source comes to. -/
structure Reports (capacity limits : Extent) (source : List (List Char))
    (outcome : Except CompileError Program) : Prop where
  /-- That there are too many lines is reported exactly when there are. -/
  tooManyLines_iff : (∃ error, outcome = .error error ∧ error.fault = .tooManyLines) ↔
    (limits.within capacity).lines < source.length
  /-- It is reported at the last line that is allowed, and at the first line if none is. -/
  tooManyLines : (limits.within capacity).lines < source.length →
    outcome = .error ⟨.tooManyLines, max (limits.within capacity).lines 1, 0, 0⟩
  /-- Otherwise the error is that of the first line at fault. -/
  atFault : source.length ≤ (limits.within capacity).lines →
    ∀ index, IsLeast {index | AtFaultAt capacity (limits.within capacity) source index} index →
      ∃ line error, source[index]? = some line ∧
        LineFault capacity (limits.within capacity) (source.take index) line error ∧
        error.line = index + 1 ∧ outcome = .error error
  /-- That a label is unknown is reported only when no line is at fault. -/
  undefinedLabel_only : (∃ error, outcome = .error error ∧ error.fault = .undefinedLabel) →
    ∀ index, ¬AtFaultAt capacity (limits.within capacity) source index
  /-- Then the error is at the label of the first jump whose label is unknown. -/
  undefinedLabel : source.length ≤ (limits.within capacity).lines →
    (∀ index, ¬AtFaultAt capacity (limits.within capacity) source index) →
      ∀ index, IsLeast {index | UndefinedJumpAt source index} index →
        ∃ line condition label, source[index]? = some line ∧ Asks line (.jump condition label) ∧
          outcome = .error ⟨.undefinedLabel, index + 1, label.start, label.stop⟩
  /-- When nothing of all this is the case, compiling succeeds. -/
  succeeds : source.length ≤ (limits.within capacity).lines →
    (∀ index, ¬AtFaultAt capacity (limits.within capacity) source index) →
      (∀ index, ¬UndefinedJumpAt source index) → ∃ program, outcome = .ok program

/-! ## Looking up labels -/

/-- A line that asks for something has an instruction part. -/
theorem Asks.hasStatement {line : List Char} {operation : Operation} (asks : Asks line operation) :
    Source.HasStatement line := by
  obtain ⟨parts, statement, read, found, -⟩ := asks
  exact Line.hasStatement_of_read read found

section Lookup

variable {α β γ ε : Type} {relation : α → γ → Prop} {xs : List α} {zs : List γ}

/-- A check that is made place by place fails at the first place where it does. -/
theorem exists_of_mapM_eq_error (related : List.Forall₂ relation xs zs) {check : α → Except ε β}
    {error : ε} (fails : xs.mapM check = .error error) :
    ∃ before z after, zs = before ++ z :: after ∧
      (∀ earlier ∈ before, ∃ x, relation x earlier ∧ ∃ y, check x = .ok y) ∧
      ∃ x, relation x z ∧ check x = .error error := by
  induction related with
  | nil => cases fails
  | @cons x z xs zs head tail ih =>
      rw [List.mapM_cons] at fails
      cases bind_eq_error_iff.1 fails with
      | inl here => exact ⟨[], z, zs, rfl, nofun, x, head, here⟩
      | inr later =>
          obtain ⟨y, passed, rest⟩ := later
          cases bind_eq_error_iff.1 rest with
          | inl others =>
              obtain ⟨before, other, after, rfl, sound, failed⟩ := ih others
              refine ⟨z :: before, other, after, rfl, ?_, failed⟩
              exact List.forall_mem_cons.2 ⟨⟨x, head, y, passed⟩, sound⟩
          | inr made =>
              obtain ⟨ys, -, made⟩ := made
              cases made

end Lookup

/-- An operation is not placed when it is a jump whose label is unknown. -/
theorem PlacedOperation.place_eq_error_iff {labels : List Label} {placed : PlacedOperation}
    {error : CompileError} :
    placed.place labels = .error error ↔
      ∃ condition label, placed.operation = .jump condition label ∧
        labelIndex? labels label.text = none ∧
        error = .onToken .undefinedLabel placed.line label := by
  obtain ⟨operation, line⟩ := placed
  cases operation with
  | instruction made => simp [place]
  | jump condition label =>
      cases known : labelIndex? labels label.text with
      | none => simp [place, Reference.resolve, known, Except.map, CompileError.onToken, eq_comm]
      | some index => simp [place, Reference.resolve, known, Except.map]

theorem labelIndex?_eq_none_iff {labels : List Label} {name : List Char} :
    labelIndex? labels name = none ↔ name ∉ labels.map (·.name) := by
  simp [labelIndex?]

/-- Lines with an instruction part are listed in their order. -/
theorem Source.mem_before_of_lt {source : List (List Char)} {before after : List (List Char × Nat)}
    {line other : List Char} {place index : Nat}
    (split : Source.statements source = before ++ (line, place) :: after)
    (listed : (other, index) ∈ Source.statements source) (earlier : index < place) :
    (other, index) ∈ before := by
  have sorted := Source.statementLines_pairwise source
  rw [split, List.map_append, List.map_cons, List.pairwise_append, List.pairwise_cons] at sorted
  rw [split] at listed
  rcases List.mem_append.1 listed with sooner | _ | ⟨_, later⟩
  · exact sooner
  · exact absurd earlier (lt_irrefl _)
  · exact absurd earlier (sorted.2.1.1 index (List.mem_map_of_mem later)).not_gt

namespace Draft.Describes

variable {draft : Draft} {source : List (List Char)}

/-- When looking up labels fails, it fails at the first jump whose label is unknown. -/
theorem isLeast_of_finish_eq_error (describes : draft.Describes source) {error : CompileError}
    (fails : draft.finish = .error error) :
    ∃ index line condition label, IsLeast {index | UndefinedJumpAt source index} index ∧
      source[index]? = some line ∧ Asks line (.jump condition label) ∧
      (∀ place, ¬Source.Defines source label.text place) ∧
      error = .onToken .undefinedLabel index label := by
  have stops : draft.code.mapM (·.place draft.labels) = .error error := by
    cases bind_eq_error_iff.1 fails with
    | inl stops => exact stops
    | inr made =>
        obtain ⟨code, -, made⟩ := made
        cases made
  obtain ⟨before, ⟨line, index⟩, after, split, sound, placed, ⟨rfl, asks⟩, failed⟩ :=
    exists_of_mapM_eq_error describes.code stops
  obtain ⟨condition, label, jumps, unknown, rfl⟩ := PlacedOperation.place_eq_error_iff.1 failed
  rw [jumps] at asks
  have undefined : ∀ place, ¬Source.Defines source label.text place := by
    rw [labelIndex?_eq_none_iff, describes.mem_names_iff] at unknown
    exact not_exists.1 unknown
  have listed : (line, placed.line) ∈ Source.statements source := by simp [split]
  obtain ⟨here, -⟩ := Source.mem_statements_iff.1 listed
  have jump : UndefinedJumpAt source placed.line := ⟨line, condition, label, here, asks, undefined⟩
  refine ⟨placed.line, line, condition, label, ⟨jump, ?_⟩, here, asks, undefined, rfl⟩
  -- An earlier jump stands among the lines whose operations were placed.
  rintro index ⟨other, condition', label', there, asks', undefined'⟩
  by_contra earlier
  have listed' := Source.mem_statements_iff.2 ⟨there, asks'.hasStatement⟩
  have member := Source.mem_before_of_lt split listed' (not_le.1 earlier)
  obtain ⟨reached, ⟨-, asked⟩, result, done⟩ := sound _ member
  have same : reached.operation = .jump condition' label' := asked.unique asks'
  have missing : labelIndex? draft.labels label'.text = none := by
    rw [labelIndex?_eq_none_iff, describes.mem_names_iff]
    exact not_exists.2 undefined'
  rw [PlacedOperation.place_eq_error_iff.2 ⟨condition', label', same, missing, rfl⟩] at done
  cases done

/-- When all labels are found, no jump has an unknown one. -/
theorem not_undefinedJumpAt (describes : draft.Describes source) {program : Program}
    (finished : draft.finish = .ok program) (index : Nat) : ¬UndefinedJumpAt source index := by
  rintro ⟨line, condition, label, here, asks, undefined⟩
  have described := describes.finish finished
  obtain ⟨instruction, operation, asks', becomes⟩ :=
    described.exists_stands (List.mem_of_getElem? here) asks.hasStatement
  rw [← asks.unique asks'] at becomes
  obtain ⟨place, known, -⟩ := becomes
  have listed := (labelIndex?_eq_some_iff described.distinct).1 known
  rw [described.labels] at listed
  obtain ⟨index, defines, -⟩ := Source.mem_labels_iff.1 listed
  exact undefined index defines

end Draft.Describes

/-! ## Compiling -/

section Compile

variable {capacity limits : Extent} {source : List (List Char)}

theorem compile_of_lt (many : (limits.within capacity).lines < source.length) :
    (compile capacity limits source).outcome =
      .error (.onLine .tooManyLines ((limits.within capacity).lines - 1) 0 0) := by
  simp only [compile, if_pos many]

/-- When something else is reported, there are not too many lines. -/
theorem length_le_of_fault_ne {error : CompileError}
    (fails : (compile capacity limits source).outcome = .error error)
    (other : error.fault ≠ .tooManyLines) : source.length ≤ (limits.within capacity).lines := by
  by_contra many
  rw [compile_of_lt (not_le.1 many)] at fails
  cases fails
  exact other rfl

theorem compile_of_le (few : source.length ≤ (limits.within capacity).lines) :
    (compile capacity limits source).outcome = (do
      let draft ← readLines capacity (limits.within capacity) 0 ⟨[], []⟩ source
      draft.finish) := by
  simp only [compile, if_neg (not_lt.2 few)]

/-- When there are not too many lines and compiling fails, the error is that of the first line at
fault, or else that of the first jump whose label is unknown. -/
theorem compile_eq_error (few : source.length ≤ (limits.within capacity).lines)
    {error : CompileError} (fails : (compile capacity limits source).outcome = .error error) :
    (∃ index line,
        IsLeast {index | AtFaultAt capacity (limits.within capacity) source index} index ∧
        source[index]? = some line ∧
        LineFault capacity (limits.within capacity) (source.take index) line error) ∨
      (∀ index, ¬AtFaultAt capacity (limits.within capacity) source index) ∧
        ∃ index line condition label, IsLeast {index | UndefinedJumpAt source index} index ∧
          source[index]? = some line ∧ Asks line (.jump condition label) ∧
          (∀ place, ¬Source.Defines source label.text place) ∧
          error = .onToken .undefinedLabel index label := by
  rw [compile_of_le few] at fails
  cases bind_eq_error_iff.1 fails with
  | inl stops => exact .inl (isLeast_of_readLines_eq_error stops)
  | inr looked =>
      obtain ⟨draft, read, unknown⟩ := looked
      have describes := (readLines_describes .nil read).1
      exact .inr ⟨not_atFaultAt_of_readLines read, describes.isLeast_of_finish_eq_error unknown⟩

/-- Unless there are too many lines, no error says so. -/
theorem fault_ne_tooManyLines (few : source.length ≤ (limits.within capacity).lines)
    {error : CompileError} (fails : (compile capacity limits source).outcome = .error error) :
    error.fault ≠ .tooManyLines := by
  cases compile_eq_error few fails with
  | inl faulty =>
      obtain ⟨_, _, _, _, fault⟩ := faulty
      exact fault.fault_ne.1
  | inr undefined =>
      obtain ⟨-, _, _, _, _, -, -, -, -, rfl⟩ := undefined
      nofun

/-- When compiling succeeds, no line is at fault and no jump has an unknown label. -/
theorem not_faulty_of_compile_eq_ok {program : Program}
    (compiled : (compile capacity limits source).outcome = .ok program) :
    (∀ index, ¬AtFaultAt capacity (limits.within capacity) source index) ∧
      ∀ index, ¬UndefinedJumpAt source index := by
  rw [compile_of_le (compile_eq_ok_iff.1 compiled).1] at compiled
  obtain ⟨draft, read, finished⟩ := bind_eq_ok_iff.1 compiled
  have describes := (readLines_describes .nil read).1
  exact ⟨not_atFaultAt_of_readLines read, describes.not_undefinedJumpAt finished⟩

theorem reports_of_lt (countable : (limits.within capacity).lines ≤ maxPosition)
    (many : (limits.within capacity).lines < source.length) :
    Reports capacity limits source (compile capacity limits source).outcome := by
  have last : CompileError.onLine .tooManyLines ((limits.within capacity).lines - 1) 0 0 =
      ⟨.tooManyLines, max (limits.within capacity).lines 1, 0, 0⟩ := by
    have positive : 1 ≤ maxPosition := by decide
    rw [CompileError.onLine, ← Nat.sub_add_eq_max, min_eq_left]
    omega
  rw [compile_of_lt many, last]
  exact
    { tooManyLines_iff := iff_of_true ⟨_, rfl, rfl⟩ many
      tooManyLines := fun _ => rfl
      atFault := fun few => absurd many (not_lt.2 few)
      undefinedLabel_only := by
        rintro ⟨_, ⟨⟩, ⟨⟩⟩
      undefinedLabel := fun few => absurd many (not_lt.2 few)
      succeeds := fun few => absurd many (not_lt.2 few) }

/-- The numbers of lines that are allowed are all named as they are. -/
theorem number_of_getElem? (countable : (limits.within capacity).lines ≤ maxPosition)
    (few : source.length ≤ (limits.within capacity).lines) {index : Nat} {line : List Char}
    (here : source[index]? = some line) : min (index + 1) maxPosition = index + 1 := by
  have inside := (List.getElem?_eq_some_iff.1 here).1
  exact min_eq_left (by omega)

/-- An error of a line of the source has the number of the line. -/
theorem LineFault.line_eq_succ (countable : (limits.within capacity).lines ≤ maxPosition)
    (few : source.length ≤ (limits.within capacity).lines) {bounds : Extent} {index : Nat}
    {line : List Char} {error : CompileError} (here : source[index]? = some line)
    (fault : LineFault capacity bounds (source.take index) line error) :
    error.line = index + 1 := by
  have inside := (List.getElem?_eq_some_iff.1 here).1
  rw [fault.line_eq, List.length_take_of_le inside.le]
  exact number_of_getElem? countable few here

/-- When compiling succeeds, nothing is wrong. -/
theorem reports_of_ok (few : source.length ≤ (limits.within capacity).lines) {program : Program}
    (compiled : (compile capacity limits source).outcome = .ok program) :
    Reports capacity limits source (.ok program) := by
  obtain ⟨sound, defined⟩ := not_faulty_of_compile_eq_ok compiled
  exact
    { tooManyLines_iff := iff_of_false nofun (not_lt.2 few)
      tooManyLines := fun many => absurd many (not_lt.2 few)
      atFault := fun _ index least => absurd least.1 (sound index)
      undefinedLabel_only := nofun
      undefinedLabel := fun _ _ index least => absurd least.1 (defined index)
      succeeds := fun _ _ _ => ⟨program, rfl⟩ }

section Error

variable (countable : (limits.within capacity).lines ≤ maxPosition)
variable (few : source.length ≤ (limits.within capacity).lines)
include countable few

/-- The error of the first line at fault is reported. -/
theorem reports_of_lineFault {first : Nat} {line : List Char} {error : CompileError}
    (least : IsLeast {index | AtFaultAt capacity (limits.within capacity) source index} first)
    (here : source[first]? = some line)
    (fault : LineFault capacity (limits.within capacity) (source.take first) line error) :
    Reports capacity limits source (.error error) := by
  have number := fault.line_eq_succ countable few here
  exact
    { tooManyLines_iff := by
        refine iff_of_false ?_ (not_lt.2 few)
        rintro ⟨_, ⟨⟩, many⟩
        exact fault.fault_ne.1 many
      tooManyLines := fun many => absurd many (not_lt.2 few)
      atFault := by
        intro _ index least'
        obtain rfl := least.unique least'
        exact ⟨line, error, here, fault, number, rfl⟩
      undefinedLabel_only := by
        rintro ⟨_, ⟨⟩, unknown⟩
        exact absurd unknown fault.fault_ne.2
      undefinedLabel := fun _ sound => absurd least.1 (sound first)
      succeeds := fun _ sound => absurd least.1 (sound first) }

/-- When no line is at fault, the error of the first jump with an unknown label is reported. -/
theorem reports_of_undefinedJump {first : Nat} {line : List Char} {condition : Condition}
    {label : Token}
    (sound : ∀ index, ¬AtFaultAt capacity (limits.within capacity) source index)
    (least : IsLeast {index | UndefinedJumpAt source index} first)
    (here : source[first]? = some line) (asks : Asks line (.jump condition label)) :
    Reports capacity limits source (.error (.onToken .undefinedLabel first label)) := by
  have located : CompileError.onToken .undefinedLabel first label =
      ⟨.undefinedLabel, first + 1, label.start, label.stop⟩ := by
    have number := number_of_getElem? countable few here
    rw [CompileError.onToken, CompileError.onLine, number]
  exact
    { tooManyLines_iff := by
        refine iff_of_false ?_ (not_lt.2 few)
        rintro ⟨_, ⟨⟩, ⟨⟩⟩
      tooManyLines := fun many => absurd many (not_lt.2 few)
      atFault := fun _ index least' => absurd least'.1 (sound index)
      undefinedLabel_only := fun _ => sound
      undefinedLabel := by
        intro _ _ index least'
        obtain rfl := least.unique least'
        exact ⟨line, condition, label, here, asks, congrArg _ located⟩
      succeeds := fun _ _ defined => absurd least.1 (defined first) }

theorem reports_of_le :
    Reports capacity limits source (compile capacity limits source).outcome := by
  cases compiled : (compile capacity limits source).outcome with
  | ok program => exact reports_of_ok few compiled
  | error error =>
      cases compile_eq_error few compiled with
      | inl faulty =>
          obtain ⟨first, line, least, here, fault⟩ := faulty
          exact reports_of_lineFault countable few least here fault
      | inr undefined =>
          obtain ⟨sound, first, line, condition, label, least, here, asks, -, rfl⟩ := undefined
          exact reports_of_undefinedJump countable few sound least here asks

end Error

end Compile

/-- Compiling reports too many lines, or else the first line at fault, or else the first jump whose
label no line defines, or else it succeeds; and no container is full on the way. -/
theorem compile_reports {capacity limits : Extent}
    (countable : (limits.within capacity).lines ≤ maxPosition) (source : List (List Char)) :
    Reports capacity limits source (compile capacity limits source).outcome ∧
      store capacity limits source = .ok (compile capacity limits source) := by
  refine ⟨?_, store_eq_compile capacity limits source⟩
  cases Nat.lt_or_ge (limits.within capacity).lines source.length with
  | inl many => exact reports_of_lt countable many
  | inr few => exact reports_of_le countable few

/-- A source with a jump to an unknown label and, two lines later, a label that is repeated in front
of an unknown mnemonic. -/
def twiceLabelled : List (List Char) :=
  ["JMP C".toList, "A: NOP".toList, "a: FOO".toList]

/-- It is the repeated label that is reported. -/
theorem twiceLabelled_reports :
    (Extent.within .standard ⟨64, 64⟩).lines ≤ maxPosition ∧
      Reports ⟨64, 64⟩ .standard twiceLabelled
        (compile ⟨64, 64⟩ .standard twiceLabelled).outcome ∧
      store ⟨64, 64⟩ .standard twiceLabelled = .ok (compile ⟨64, 64⟩ .standard twiceLabelled) ∧
      (compile ⟨64, 64⟩ .standard twiceLabelled).outcome = .error ⟨.duplicateLabel, 3, 0, 1⟩ := by
  have countable : (Extent.within .standard ⟨64, 64⟩).lines ≤ maxPosition := by decide
  obtain ⟨reports, stored⟩ := compile_reports countable twiceLabelled
  exact ⟨countable, reports, stored, by decide⟩

end NodeGrid.Assembly
