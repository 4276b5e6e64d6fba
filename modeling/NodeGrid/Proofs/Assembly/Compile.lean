import NodeGrid.Proofs.Assembly.Statement
import Mathlib.Data.List.Forall2
import Mathlib.Data.List.Nodup

/-!
# What compiling makes of a source

Lines are read one after the other onto a draft.  The invariant of this loop says what a draft
holds: the labels of the lines read so far, each with the number of instruction parts before it, and
for every instruction part an operation that its line asks for.  When labels are looked up at the
end, each operation becomes the instruction that its line stands for.
-/

namespace NodeGrid.Assembly

open Text

namespace Source

/-- The lines of a source that have an instruction part, with their indices. -/
def statements (source : List (List Char)) : List (List Char × Nat) :=
  source.zipIdx.filter fun line => HasStatement line.1

/-- The labels of a source in upper case, each with the number of instruction parts on the lines
before it. -/
def labels (source : List (List Char)) : List Label :=
  source.zipIdx.flatMap fun line =>
    (labelName? line.1).toList.map fun name =>
      ⟨upper name, (statements (source.take line.2)).length⟩

end Source

/-- A draft holds what a source amounts to. -/
structure Draft.Describes (draft : Draft) (source : List (List Char)) : Prop where
  labels : draft.labels = Source.labels source
  distinct : (draft.labels.map (·.name)).Nodup
  code : List.Forall₂ (fun placed line => placed.line = line.2 ∧ Asks line.1 placed.operation)
    draft.code (Source.statements source)

/-- A program is what a source amounts to. -/
structure Program.Describes (program : Program) (source : List (List Char)) : Prop where
  labels : program.labels = Source.labels source
  distinct : (program.labels.map (·.name)).Nodup
  code : List.Forall₂
    (fun placed line => placed.line = line.2 ∧ StandsFor program.labels line.1 placed.instruction)
    program.code (Source.statements source)

/-! ## Lists related place by place -/

section Related

variable {α β γ : Type} {relation : α → β → Prop} {xs : List α} {ys : List β}

theorem exists_right_of_forall₂ (related : List.Forall₂ relation xs ys) {x : α} (mem : x ∈ xs) :
    ∃ y ∈ ys, relation x y := by
  induction related with
  | nil => cases mem
  | cons head tail ih =>
      rcases List.mem_cons.1 mem with rfl | later
      · exact ⟨_, List.mem_cons_self, head⟩
      · obtain ⟨y, listed, holds⟩ := ih later
        exact ⟨y, List.mem_cons_of_mem _ listed, holds⟩

theorem exists_left_of_forall₂ (related : List.Forall₂ relation xs ys) {y : β} (mem : y ∈ ys) :
    ∃ x ∈ xs, relation x y :=
  exists_right_of_forall₂ (List.Forall₂.flip (R := flip relation) related) mem

theorem forall₂_join {other : α → γ → Prop} {joined : γ → β → Prop}
    (join : ∀ x y z, relation x y → other x z → joined z y) {zs : List γ}
    (left : List.Forall₂ relation xs ys) (right : List.Forall₂ other xs zs) :
    List.Forall₂ joined zs ys := by
  induction left generalizing zs with
  | nil => cases right; exact .nil
  | cons head tail ih =>
      cases right with
      | cons head' tail' => exact .cons (join _ _ _ head head') (ih tail')

end Related

/-! ## One line -/

namespace Source

variable {source : List (List Char)} {line : List Char}

theorem mem_statements_iff {index : Nat} :
    (line, index) ∈ statements source ↔ source[index]? = some line ∧ HasStatement line := by
  simp [statements, List.mem_zipIdx_iff_getElem?]

theorem statements_concat :
    statements (source ++ [line]) =
      statements source ++ if HasStatement line then [(line, source.length)] else [] := by
  by_cases has : HasStatement line <;> simp [statements, List.zipIdx_append, has]

theorem labels_concat :
    labels (source ++ [line]) =
      labels source ++
        (labelName? line).toList.map fun name => ⟨upper name, (statements source).length⟩ := by
  rw [labels, List.zipIdx_append, List.flatMap_append]
  congr 1
  · refine List.flatMap_congr fun entry mem => ?_
    rw [List.take_append_of_le_length (List.snd_lt_of_mem_zipIdx mem).le]
  · simp

/-- More lines only add labels. -/
theorem labels_prefix {more : List (List Char)} : labels source <+: labels (source ++ more) := by
  induction more using List.reverseRecOn with
  | nil => simp
  | append_singleton more line ih =>
      rw [← List.append_assoc, labels_concat]
      exact ih.trans (List.prefix_append _ _)

end Source

namespace Draft

variable {draft : Draft}

theorem Describes.nil : Draft.Describes ⟨[], []⟩ [] :=
  ⟨rfl, .nil, .nil⟩

/-- A label is entered when its name is new. -/
theorem addLabel_eq_ok_iff {label : Option Token} {labelled : Draft} :
    draft.addLabel label = .ok labelled ↔
      (∀ name ∈ textOf? label, name ∉ draft.labels.map (·.name)) ∧
        labelled = { draft with
          labels := draft.labels ++
            (textOf? label).toList.map fun name => ⟨name, draft.code.length⟩ } := by
  cases label with
  | none => simpa [addLabel] using eq_comm
  | some token =>
      by_cases known : token.text ∈ draft.labels.map (·.name)
      · have found : draft.labels.any fun label => label.name = token.text := by
          simpa using known
        rw [addLabel, if_pos found]
        refine iff_of_false (by simp) fun fresh => fresh.1 token.text rfl known
      · have fresh : ¬draft.labels.any fun label => label.name = token.text := by
          simpa using known
        have new : ∀ name ∈ textOf? (some token), name ∉ draft.labels.map (·.name) := by
          rintro name ⟨⟩
          exact known
        rw [addLabel, if_neg fresh, and_iff_right new, Except.ok.injEq]
        exact eq_comm

/-- A line without an instruction part changes nothing; a statement enters the operation that it
asks for. -/
theorem addStatement_eq_ok_iff {index : Nat} {statement : Option Statement} {extended : Draft} :
    draft.addStatement index statement = .ok extended ↔
      match statement with
      | none => extended = draft
      | some statement =>
          ∃ operation, statement.operation = .ok operation ∧
            extended = { draft with code := draft.code ++ [⟨operation, index⟩] } := by
  cases statement with
  | none => simp [addStatement, eq_comm]
  | some statement =>
      refine bind_eq_ok_iff.trans (exists_congr fun operation => and_congr_right fun _ => ?_)
      simp [pure, Except.pure, eq_comm]

/-- A line is read onto a draft when its label is new and its statement asks for something. -/
theorem addLine_eq_ok_iff {index : Nat} {text : List Char} {extended : Draft} :
    draft.addLine index text = .ok extended ↔
      ∃ parts labelled, Line.read text = .ok parts ∧ draft.addLabel parts.label = .ok labelled ∧
        labelled.addStatement index parts.statement = .ok extended := by
  unfold addLine
  cases Line.read text with
  | error label => simp
  | ok parts => simp [bind_eq_ok_iff]

end Draft

namespace Draft.Describes

variable {draft extended : Draft} {source : List (List Char)} {line : List Char}

/-- The label of the next line is entered with the number of operations, of which there are as many
as instruction parts so far. -/
theorem labels_concat (describes : draft.Describes source) {parts : Line}
    (read : Line.read (upper line) = .ok parts) :
    Source.labels (source ++ [line]) =
      draft.labels ++
        (textOf? parts.label).toList.map fun name => ⟨name, draft.code.length⟩ := by
  rw [Source.labels_concat, describes.labels, describes.code.length_eq, (Line.read_eq_ok read).1,
    Source.labelName?_upper]
  cases Source.labelName? line <;> rfl

/-- Reading one more line keeps the invariant. -/
theorem addLine (describes : draft.Describes source)
    (added : draft.addLine source.length (upper line) = .ok extended) :
    extended.Describes (source ++ [line]) := by
  obtain ⟨parts, labelled, read, named, entered⟩ := addLine_eq_ok_iff.1 added
  obtain ⟨fresh, rfl⟩ := addLabel_eq_ok_iff.1 named
  have labels := describes.labels_concat read
  have distinct : ((Source.labels (source ++ [line])).map (·.name)).Nodup := by
    rw [labels, List.map_append, List.nodup_append']
    refine ⟨describes.distinct, ?_, ?_⟩
    · cases textOf? parts.label <;> simp
    · cases known : textOf? parts.label with
      | none => simp
      | some text => simpa using fresh text known
  have has : parts.statement.isSome ↔ Source.HasStatement line := by
    rw [Line.statement_isSome_iff read, Source.hasStatement_upper]
  cases statement : parts.statement with
  | none =>
      rw [statement] at entered has
      obtain rfl := addStatement_eq_ok_iff.1 entered
      have bare : ¬Source.HasStatement line := by simpa using has
      refine ⟨labels.symm, labels ▸ distinct, ?_⟩
      rw [Source.statements_concat, if_neg bare, List.append_nil]
      exact describes.code
  | some found =>
      rw [statement] at entered has
      obtain ⟨operation, asked, rfl⟩ := addStatement_eq_ok_iff.1 entered
      refine ⟨labels.symm, labels ▸ distinct, ?_⟩
      rw [Source.statements_concat, if_pos (has.1 rfl)]
      exact List.rel_append describes.code
        (.cons ⟨rfl, parts, found, read, statement, asked⟩ .nil)

/-- One more line can be read when its label is new and its instruction part asks for something. -/
theorem exists_addLine (describes : draft.Describes source)
    (read : ∃ parts, Line.read (upper line) = .ok parts)
    (asks : Source.HasStatement line → ∃ operation, Asks line operation)
    (distinct : ((Source.labels (source ++ [line])).map (·.name)).Nodup) :
    ∃ extended, draft.addLine source.length (upper line) = .ok extended := by
  obtain ⟨parts, read⟩ := read
  have fresh : ∀ name ∈ textOf? parts.label, name ∉ draft.labels.map (·.name) := by
    intro name mem known
    rw [describes.labels_concat read, List.map_append] at distinct
    have entered : textOf? parts.label = some name := mem
    exact (List.disjoint_of_nodup_append distinct) known (by simp [entered])
  obtain ⟨labelled, named⟩ : ∃ labelled, draft.addLabel parts.label = .ok labelled :=
    ⟨_, addLabel_eq_ok_iff.2 ⟨fresh, rfl⟩⟩
  suffices entered : ∃ extended,
      labelled.addStatement source.length parts.statement = .ok extended by
    obtain ⟨extended, entered⟩ := entered
    exact ⟨extended, addLine_eq_ok_iff.2 ⟨parts, labelled, read, named, entered⟩⟩
  cases statement : parts.statement with
  | none => exact ⟨labelled, addStatement_eq_ok_iff.2 rfl⟩
  | some found =>
      have has : Source.HasStatement line := by
        rw [← Source.hasStatement_upper, ← Line.statement_isSome_iff read, statement]
        rfl
      obtain ⟨operation, asks⟩ := asks has
      have asked := (asks_iff read statement).1 asks
      exact ⟨_, addStatement_eq_ok_iff.2 ⟨operation, asked, rfl⟩⟩

/-- An operation comes from a line that asks for it. -/
theorem exists_asks (describes : draft.Describes source) {placed : PlacedOperation}
    (mem : placed ∈ draft.code) :
    ∃ line ∈ source, Source.HasStatement line ∧ Asks line placed.operation := by
  obtain ⟨⟨line, index⟩, listed, -, asks⟩ := exists_right_of_forall₂ describes.code mem
  obtain ⟨here, has⟩ := Source.mem_statements_iff.1 listed
  exact ⟨line, List.mem_of_getElem? here, has, asks⟩

end Draft.Describes

/-! ## All lines -/

/-- There are not too many lines, and none is too long. -/
structure Fits (capacity limits : Extent) (source : List (List Char)) : Prop where
  lines : source.length ≤ (limits.within capacity).lines
  columns : ∀ line ∈ source, isOverlong capacity (limits.within capacity) line = false

section Lines

variable {capacity bounds : Extent}

/-- A line that is not too long is kept as it is, in upper case. -/
theorem keptText_eq_upper {line : List Char} (fits : isOverlong capacity bounds line = false) :
    keptText capacity line = upper line := by
  refine fitting_eq_self_iff.2 ?_
  simp only [isOverlong, Bool.or_eq_false_iff, decide_eq_false_iff_not] at fits
  omega

/-- A line that is not too long is read onto the draft, and then come the others. -/
theorem readLines_cons {line : List Char} (fits : isOverlong capacity bounds line = false)
    (index : Nat) (draft : Draft) (rest : List (List Char)) :
    readLines capacity bounds index draft (line :: rest) =
      match draft.addLine index (upper line) with
      | .error flaw => .error (.onToken flaw.fault index flaw.token)
      | .ok extended => readLines capacity bounds (index + 1) extended rest := by
  cases added : draft.addLine index (upper line) <;>
    simp [readLines, fits, keptText_eq_upper fits, added]

/-- Lines are read when the first is not too long and is read onto the draft, and then the others
are. -/
theorem readLines_cons_eq_ok_iff {index : Nat} {draft final : Draft} {line : List Char}
    {rest : List (List Char)} :
    readLines capacity bounds index draft (line :: rest) = .ok final ↔
      isOverlong capacity bounds line = false ∧
        ∃ extended, draft.addLine index (upper line) = .ok extended ∧
          readLines capacity bounds (index + 1) extended rest = .ok final := by
  cases fits : isOverlong capacity bounds line with
  | true => simp [readLines, fits]
  | false =>
      rw [readLines_cons fits]
      cases draft.addLine index (upper line) <;> simp

/-- Reading lines keeps the invariant; none of them is too long, and each can be read. -/
theorem readLines_describes {draft final : Draft} {done rest : List (List Char)}
    (describes : draft.Describes done)
    (read : readLines capacity bounds done.length draft rest = .ok final) :
    final.Describes (done ++ rest) ∧
      ∀ line ∈ rest, isOverlong capacity bounds line = false ∧
        ∃ parts, Line.read (upper line) = .ok parts := by
  induction rest generalizing draft done with
  | nil =>
      cases read
      simpa using describes
  | cons line rest ih =>
      obtain ⟨short, extended, added, read⟩ := readLines_cons_eq_ok_iff.1 read
      obtain ⟨parts, -, line_read, -⟩ := Draft.addLine_eq_ok_iff.1 added
      -- The index that is counted along is the number of lines read.
      have longer : done.length + 1 = (done ++ [line]).length := by simp
      rw [longer] at read
      obtain ⟨final_describes, others⟩ := ih (describes.addLine added) read
      rw [List.append_cons]
      exact ⟨final_describes, List.forall_mem_cons.2 ⟨⟨short, parts, line_read⟩, others⟩⟩

/-- Lines can be read when none is too long, each can be read and asks for something if it has an
instruction part, and no label is defined twice. -/
theorem exists_readLines {draft : Draft} {done rest : List (List Char)}
    (describes : draft.Describes done)
    (fit : ∀ line ∈ rest, isOverlong capacity bounds line = false ∧
      ∃ parts, Line.read (upper line) = .ok parts)
    (asks : ∀ line ∈ rest, Source.HasStatement line → ∃ operation, Asks line operation)
    (distinct : ((Source.labels (done ++ rest)).map (·.name)).Nodup) :
    ∃ final, readLines capacity bounds done.length draft rest = .ok final := by
  induction rest generalizing draft done with
  | nil => exact ⟨draft, rfl⟩
  | cons line rest ih =>
      obtain ⟨⟨fits, reads⟩, others_fit⟩ := List.forall_mem_cons.1 fit
      obtain ⟨asks_here, others_ask⟩ := List.forall_mem_cons.1 asks
      rw [List.append_cons] at distinct
      have distinct_here := (Source.labels_prefix.map (·.name)).sublist.nodup distinct
      obtain ⟨extended, added⟩ := describes.exists_addLine reads asks_here distinct_here
      obtain ⟨final, rest_read⟩ :=
        ih (describes.addLine added) others_fit others_ask distinct
      rw [List.length_append, List.length_singleton] at rest_read
      exact ⟨final, readLines_cons_eq_ok_iff.2 ⟨fits, extended, added, rest_read⟩⟩

end Lines

/-! ## Looking up labels -/

/-- When no name occurs twice, looking up a name finds the index that it has. -/
theorem labelIndex?_eq_some_iff {labels : List Label} (distinct : (labels.map (·.name)).Nodup)
    {name : List Char} {index : Nat} :
    labelIndex? labels name = some index ↔ ⟨name, index⟩ ∈ labels := by
  rw [labelIndex?, Option.map_eq_some_iff]
  constructor
  · rintro ⟨⟨known, _⟩, found, rfl⟩
    obtain rfl : known = name := by simpa using List.find?_some found
    exact List.mem_of_find?_eq_some found
  · intro mem
    cases found : labels.find? fun label => label.name = name with
    | none =>
        have missed := List.find?_eq_none.1 found _ mem
        simp at missed
    | some label =>
        have same : label.name = name := by simpa using List.find?_some found
        refine ⟨label, rfl, ?_⟩
        rw [List.inj_on_of_nodup_map distinct (List.mem_of_find?_eq_some found) mem same]

theorem mapM_eq_ok_iff {α β ε : Type} {f : α → Except ε β} {xs : List α} {ys : List β} :
    xs.mapM f = .ok ys ↔ List.Forall₂ (fun x y => f x = .ok y) xs ys := by
  induction xs generalizing ys with
  | nil => cases ys <;> simp [pure, Except.pure]
  | cons x xs ih =>
      rw [List.mapM_cons, bind_eq_ok_iff, List.forall₂_cons_left_iff]
      refine exists_congr fun y => ?_
      rw [bind_eq_ok_iff]
      constructor
      · rintro ⟨first, others, last, made⟩
        cases made
        exact ⟨others, first, ih.1 last, rfl⟩
      · rintro ⟨others, first, last, rfl⟩
        exact ⟨first, others, ih.2 last, rfl⟩

theorem exists_mapM_eq_ok {α β ε : Type} {f : α → Except ε β} {xs : List α}
    (each : ∀ x ∈ xs, ∃ y, f x = .ok y) : ∃ ys, xs.mapM f = .ok ys := by
  induction xs with
  | nil => exact ⟨[], rfl⟩
  | cons x xs ih =>
      obtain ⟨⟨y, first⟩, others⟩ := List.forall_mem_cons.1 each
      obtain ⟨ys, rest⟩ := ih others
      exact ⟨y :: ys, mapM_eq_ok_iff.2 (.cons first (mapM_eq_ok_iff.1 rest))⟩

/-- An operation is placed as the instruction it becomes. -/
theorem PlacedOperation.place_eq_ok_iff {labels : List Label} {placed : PlacedOperation}
    {result : Placed} :
    placed.place labels = .ok result ↔
      result.line = placed.line ∧ placed.operation.Becomes labels result.instruction := by
  obtain ⟨operation, line⟩ := placed
  obtain ⟨instruction, line'⟩ := result
  cases operation with
  | instruction made => simp [place, Operation.Becomes, eq_comm, and_comm]
  | jump condition label =>
      simp only [place, Operation.Becomes, Reference.resolve]
      cases labelIndex? labels label.text with
      | none => simp [Except.map]
      | some index => simp [Except.map, eq_comm, and_comm]

theorem Draft.finish_eq_ok_iff {draft : Draft} {program : Program} :
    draft.finish = .ok program ↔
      program.labels = draft.labels ∧
        List.Forall₂
          (fun placed result =>
            result.line = placed.line ∧ placed.operation.Becomes draft.labels result.instruction)
          draft.code program.code := by
  simp only [finish, bind_eq_ok_iff, mapM_eq_ok_iff, PlacedOperation.place_eq_ok_iff]
  constructor
  · rintro ⟨code, placed, same⟩
    cases same
    exact ⟨rfl, placed⟩
  · rintro ⟨labels, placed⟩
    refine ⟨program.code, placed, ?_⟩
    rw [← labels]
    rfl

/-- Looking up the labels turns what a draft holds into a program. -/
theorem Draft.Describes.finish {draft : Draft} {program : Program} {source : List (List Char)}
    (describes : draft.Describes source) (finished : draft.finish = .ok program) :
    program.Describes source := by
  obtain ⟨labels, placed⟩ := Draft.finish_eq_ok_iff.1 finished
  refine ⟨labels.trans describes.labels, labels ▸ describes.distinct, ?_⟩
  rw [labels]
  refine forall₂_join ?_ describes.code placed
  rintro operation ⟨line, index⟩ result ⟨here, asked⟩ ⟨there, becomes⟩
  exact ⟨there.trans here, operation.operation, asked, becomes⟩

namespace Program.Describes

variable {program : Program} {source : List (List Char)}

/-- An instruction is what the line that it comes from stands for. -/
theorem stands (describes : program.Describes source) {placed : Placed}
    (mem : placed ∈ program.code) :
    ∃ line, source[placed.line]? = some line ∧ Source.HasStatement line ∧
      StandsFor program.labels line placed.instruction := by
  obtain ⟨⟨line, index⟩, listed, rfl, stands⟩ := exists_right_of_forall₂ describes.code mem
  obtain ⟨here, has⟩ := Source.mem_statements_iff.1 listed
  exact ⟨line, here, has, stands⟩

/-- Every instruction part stands for an instruction. -/
theorem exists_stands (describes : program.Describes source) {line : List Char}
    (mem : line ∈ source) (has : Source.HasStatement line) :
    ∃ instruction, StandsFor program.labels line instruction := by
  obtain ⟨index, here⟩ := List.mem_iff_getElem?.1 mem
  have listed := Source.mem_statements_iff.2 ⟨here, has⟩
  obtain ⟨placed, -, -, stands⟩ := exists_left_of_forall₂ describes.code listed
  exact ⟨placed.instruction, stands⟩

/-- A source amounts to at most one program. -/
theorem unique {other : Program} (describes : program.Describes source)
    (describes' : other.Describes source) : program = other := by
  obtain ⟨code, labels⟩ := program
  obtain ⟨code', labels'⟩ := other
  obtain rfl : labels = labels' := describes.labels.trans describes'.labels.symm
  have left_unique : Relator.LeftUnique fun (placed : Placed) (line : List Char × Nat) =>
      placed.line = line.2 ∧ StandsFor labels line.1 placed.instruction := by
    rintro ⟨first, place⟩ ⟨second, place'⟩ ⟨line, index⟩ ⟨rfl, one⟩ ⟨rfl, another⟩
    obtain rfl : first = second := one.unique another
    rfl
  obtain rfl : code = code' :=
    List.left_unique_forall₂' left_unique describes.code describes'.code
  rfl

end Program.Describes

/-- The labels of a draft can be looked up when there is a program that its source amounts to. -/
theorem Draft.Describes.exists_finish {draft : Draft} {program : Program}
    {source : List (List Char)} (drafted : draft.Describes source)
    (describes : program.Describes source) : ∃ found, draft.finish = .ok found := by
  have placed : ∀ operation ∈ draft.code, ∃ result, operation.place draft.labels = .ok result := by
    intro operation mem
    obtain ⟨line, listed, has, asks⟩ := drafted.exists_asks mem
    obtain ⟨instruction, asked, asks', becomes⟩ := describes.exists_stands listed has
    obtain rfl := asks.unique asks'
    rw [drafted.labels, ← describes.labels]
    exact ⟨⟨instruction, operation.line⟩, PlacedOperation.place_eq_ok_iff.2 ⟨rfl, becomes⟩⟩
  obtain ⟨code, finished⟩ := exists_mapM_eq_ok placed
  exact ⟨⟨code, draft.labels⟩, bind_eq_ok_iff.2 ⟨code, finished, rfl⟩⟩

/-! ## Compiling -/

variable {capacity limits : Extent} {source : List (List Char)} {program : Program}

/-- Compiling succeeds with a program exactly when there are not too many lines, none is too long,
each can be read, and the program is what the source amounts to. -/
theorem compile_eq_ok_iff :
    (compile capacity limits source).outcome = .ok program ↔
      source.length ≤ (limits.within capacity).lines ∧
        (∀ line ∈ source, isOverlong capacity (limits.within capacity) line = false ∧
          ∃ parts, Line.read (upper line) = .ok parts) ∧
        program.Describes source := by
  by_cases few : source.length ≤ (limits.within capacity).lines
  · simp only [compile, if_neg (not_lt.2 few), few, true_and]
    constructor
    · intro compiled
      obtain ⟨draft, lines_read, finished⟩ := bind_eq_ok_iff.1 compiled
      obtain ⟨describes, fit⟩ := readLines_describes .nil lines_read
      exact ⟨fit, describes.finish finished⟩
    · rintro ⟨fit, describes⟩
      have asks : ∀ line ∈ source, Source.HasStatement line → ∃ operation, Asks line operation := by
        intro line mem has
        obtain ⟨_, operation, asks, -⟩ := describes.exists_stands mem has
        exact ⟨operation, asks⟩
      obtain ⟨draft, lines_read⟩ :=
        exists_readLines Draft.Describes.nil fit asks (describes.labels ▸ describes.distinct)
      have drafted : draft.Describes source := (readLines_describes .nil lines_read).1
      obtain ⟨found, finished⟩ := drafted.exists_finish describes
      -- The lines amount to one program, so the one that is found is the given one.
      obtain rfl := (drafted.finish finished).unique describes
      exact bind_eq_ok_iff.2 ⟨draft, lines_read, finished⟩
  · simp only [compile, if_pos (not_le.1 few), few, false_and, reduceCtorEq]

/-- What compiling makes of a source is what the source amounts to. -/
theorem compile_describes (compiled : (compile capacity limits source).outcome = .ok program) :
    program.Describes source :=
  (compile_eq_ok_iff.1 compiled).2.2

end NodeGrid.Assembly
