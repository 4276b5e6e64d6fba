import NodeGrid.Proofs.Assembly.Compile
import NodeGrid.Fabric.Link
import NodeGrid.Node.Step
import Mathlib.Order.Bounds.Basic

/-!
# Lines and labels of a program

The lines of a program are those of its source that have an instruction part, and a label has as its
index the number of instruction parts before it.  So the index of a label, as far as the program
goes, is that of the first instruction from the line of the label on.  A jump past the end goes to
the first instruction, which is where a label behind the last instruction leads.
-/

namespace NodeGrid

namespace Assembly

open Text

namespace Source

variable {source : List (List Char)}

/-- There is an instruction part on the line with this index. -/
def HasStatementAt (source : List (List Char)) (index : Nat) : Prop :=
  ∃ line, source[index]? = some line ∧ HasStatement line

/-- The line with this index defines the label with this name in upper case. -/
def Defines (source : List (List Char)) (name : List Char) (index : Nat) : Prop :=
  ∃ line written, source[index]? = some line ∧ labelName? line = some written ∧
    upper written = name

/-- The line that a label on a line leads to: the first one with an instruction part from there on,
or the first one at all. -/
def LeadsTo (source : List (List Char)) (index target : Nat) : Prop :=
  IsLeast {line | HasStatementAt source line ∧ index ≤ line} target ∨
    (∀ line, HasStatementAt source line → line < index) ∧
      IsLeast {line | HasStatementAt source line} target

/-! ## Lines with an instruction part -/

theorem mem_statementLines_iff {index : Nat} :
    index ∈ (statements source).map (·.2) ↔ HasStatementAt source index := by
  simp [HasStatementAt, mem_statements_iff]

theorem statements_append (first second : List (List Char)) :
    statements (first ++ second) =
      statements first ++
        (second.zipIdx first.length).filter fun line => HasStatement line.1 := by
  simp [statements, List.zipIdx_append]

theorem statementLines_pairwise (source : List (List Char)) :
    ((statements source).map (·.2)).Pairwise (· < ·) := by
  have all : (source.zipIdx.map (·.2)).Pairwise (· < ·) := by
    rw [List.zipIdx_map_snd]
    exact List.pairwise_lt_range'
  exact all.sublist (List.filter_sublist.map _)

theorem length_statements (source : List (List Char)) :
    (statements source).length = source.countP fun line => HasStatement line := by
  calc (statements source).length
      = source.zipIdx.countP ((fun line => decide (HasStatement line)) ∘ Prod.fst) :=
        List.countP_eq_length_filter.symm
    _ = source.countP fun line => HasStatement line := by
        rw [← List.countP_map, List.zipIdx_map_fst]

theorem isLeast_head {first : Nat} {others : List Nat}
    (sorted : (first :: others).Pairwise (· < ·)) :
    IsLeast {index | index ∈ first :: others} first := by
  refine ⟨List.mem_cons_self, fun index mem => ?_⟩
  rcases List.mem_cons.1 mem with rfl | later
  · exact le_rfl
  · exact (List.rel_of_pairwise_cons sorted later).le

/-- A line divides the lines with an instruction part into those before it and those from it on. -/
theorem exists_split {index : Nat} (inside : index ≤ source.length) :
    ∃ earlier later, (statements source).map (·.2) = earlier ++ later ∧
      earlier.length = (statements (source.take index)).length ∧
      (∀ line ∈ earlier, line < index) ∧ ∀ line ∈ later, index ≤ line := by
  refine ⟨(statements (source.take index)).map (·.2),
    (((source.drop index).zipIdx index).filter fun line => HasStatement line.1).map (·.2),
    ?_, List.length_map _, ?_, ?_⟩
  · conv_lhs => rw [← List.take_append_drop index source, statements_append]
    rw [List.map_append, List.length_take_of_le inside]
  · intro line mem
    obtain ⟨text, here, -⟩ := mem_statementLines_iff.1 mem
    by_contra beyond
    rw [List.getElem?_take_eq_none (not_lt.1 beyond)] at here
    cases here
  · intro line mem
    obtain ⟨⟨text, place⟩, listed, rfl⟩ := List.mem_map.1 mem
    exact (List.mem_zipIdx (List.mem_filter.1 listed).1).1

/-- The instruction part after those before a line is where a label on the line leads, and if there
is none, the first one is. -/
theorem leadsTo_of_getElem? {index target : Nat} (inside : index ≤ source.length)
    (there :
      ((statements source).map (·.2))[(statements (source.take index)).length]? = some target ∨
      (statements source).length ≤ (statements (source.take index)).length ∧
        ((statements source).map (·.2))[0]? = some target) :
    LeadsTo source index target := by
  obtain ⟨earlier, later, whole, counted, before, behind⟩ := exists_split inside
  have sorted := statementLines_pairwise source
  have listed : ∀ line, HasStatementAt source line ↔ line ∈ earlier ∨ line ∈ later := by
    intro line
    rw [← mem_statementLines_iff, whole, List.mem_append]
  rw [← counted, whole] at there
  rw [whole] at sorted
  -- `later` has a first line in the one case, and is empty in the other.
  rcases there with next | ⟨all, first⟩
  · have same : {line | HasStatementAt source line ∧ index ≤ line} = {line | line ∈ later} := by
      ext line
      constructor
      · rintro ⟨has, from_here⟩
        exact ((listed line).1 has).resolve_left fun mem => (before line mem).not_ge from_here
      · exact fun mem => ⟨(listed line).2 (.inr mem), behind line mem⟩
    rw [List.getElem?_append_right le_rfl, Nat.sub_self, ← List.head?_eq_getElem?] at next
    obtain ⟨others, rfl⟩ := List.head?_eq_some_iff.1 next
    exact .inl (same ▸ isLeast_head (List.pairwise_append.1 sorted).2.1)
  · obtain rfl : later = [] := by
      have lengths := congrArg List.length whole
      rw [List.length_map, List.length_append] at lengths
      exact List.eq_nil_of_length_eq_zero (by omega)
    have same : {line | HasStatementAt source line} = {line | line ∈ earlier} := by
      ext line
      simp [listed]
    rw [List.append_nil, ← List.head?_eq_getElem?] at first
    obtain ⟨others, rfl⟩ := List.head?_eq_some_iff.1 first
    rw [List.append_nil] at sorted
    exact .inr ⟨fun line has => before line (by simpa using (listed line).1 has),
      same ▸ isLeast_head sorted⟩

/-! ## Labels -/

theorem mem_labels_iff {name : List Char} {index : Nat} :
    ⟨name, index⟩ ∈ labels source ↔
      ∃ line, Defines source name line ∧
        index = (source.take line).countP fun line => HasStatement line := by
  simp only [labels, List.mem_flatMap, List.mem_map, Option.mem_toList, length_statements,
    Label.mk.injEq, Prod.exists, List.mem_zipIdx_iff_getElem?]
  constructor
  · rintro ⟨line, place, here, written, label, rfl, rfl⟩
    exact ⟨place, ⟨line, written, here, label, rfl⟩, rfl⟩
  · rintro ⟨place, ⟨line, written, here, label, rfl⟩, rfl⟩
    exact ⟨line, place, here, written, label, rfl, rfl⟩

end Source

/-- No mnemonic without operands makes a jump. -/
theorem Opcode.form_ne_fixed_jump (opcode : Opcode) (condition : Condition) (index : Nat) :
    opcode.form ≠ .fixed (.jump condition index) := by
  cases opcode <;> simp [form, Instruction.idle]

/-- A line that stands for a jump has one operand, which names a label with the index of the
jump. -/
theorem StandsFor.jump {labels : List Label} {line : List Char} {condition : Condition}
    {index : Nat} (stands : StandsFor labels line (.jump condition index)) :
    ∃ name, Source.operands line = [name] ∧ labelIndex? labels (upper name) = some index := by
  obtain ⟨operation, asks, becomes⟩ := stands
  obtain ⟨opcode, -, statement, takes, operands, -⟩ := asks.takes
  cases operation with
  | instruction made =>
      obtain rfl : Instruction.jump condition index = made := becomes
      generalize kind : opcode.form = form at takes
      cases takes
      exact absurd kind (opcode.form_ne_fixed_jump condition index)
  | jump asked label =>
      obtain ⟨found, known, same⟩ := becomes
      obtain ⟨rfl, rfl⟩ : condition = asked ∧ index = found := by simpa using same
      generalize opcode.form = form at takes
      cases takes with
      | jump only alone =>
          rw [only, alone] at operands
          obtain ⟨name, shape, text⟩ :
              ∃ name, Source.operands line = [name] ∧ upper name = label.text := by
            simpa [List.map_eq_cons_iff] using operands
          exact ⟨name, shape, text ▸ known⟩

/-! ## Programs -/

namespace Program.Describes

variable {program : Program} {source : List (List Char)}

theorem lines_eq (describes : program.Describes source) :
    program.lines = (Source.statements source).map (·.2) := by
  have same : List.Forall₂ (· = ·) program.lines ((Source.statements source).map (·.2)) := by
    rw [lines, List.forall₂_map_left_iff, List.forall₂_map_right_iff]
    exact describes.code.imp fun _ _ both => both.1
  exact List.forall₂_eq_eq_eq ▸ same

theorem line?_eq (describes : program.Describes source) (position : Nat) :
    program.line? position = ((Source.statements source).map (·.2))[position]? := by
  rw [← describes.lines_eq, lines, List.getElem?_map, line?]

theorem size_eq (describes : program.Describes source) :
    program.size = (Source.statements source).length :=
  describes.code.length_eq

/-- A jump comes from a line whose operand names a label with the index of the jump. -/
theorem jump (describes : program.Describes source) {position index : Nat} {condition : Condition}
    (there : program.instruction? position = some (.jump condition index)) :
    ∃ place line name, program.line? position = some place ∧ source[place]? = some line ∧
      Source.operands line = [name] ∧ ⟨upper name, index⟩ ∈ program.labels := by
  obtain ⟨placed, found, made⟩ := Option.map_eq_some_iff.1 there
  obtain ⟨line, here, -, stands⟩ := describes.stands (List.mem_of_getElem? found)
  rw [made] at stands
  obtain ⟨name, operands, known⟩ := stands.jump
  exact ⟨placed.line, line, name, by rw [line?, found]; rfl, here, operands,
    (labelIndex?_eq_some_iff describes.distinct).1 known⟩

/-- The index of a label is the number of instruction parts before any line that defines it. -/
theorem index_eq (describes : program.Describes source) {name : List Char} {index line : Nat}
    (known : ⟨name, index⟩ ∈ program.labels) (defines : Source.Defines source name line) :
    index = (Source.statements (source.take line)).length := by
  have counted := Source.mem_labels_iff.2 ⟨line, defines, rfl⟩
  rw [← describes.labels] at counted
  have one := (labelIndex?_eq_some_iff describes.distinct).2 known
  have other := (labelIndex?_eq_some_iff describes.distinct).2 counted
  rw [Source.length_statements]
  exact Option.some.inj (one.symm.trans other)

/-- Going to the index of a label leads where the label leads. -/
theorem line?_jump (describes : program.Describes source) {core : Core}
    (loaded : core.program = program) (filled : 0 < program.size) {name : List Char}
    {index line : Nat} (known : ⟨name, index⟩ ∈ program.labels)
    (defines : Source.Defines source name line) :
    ∃ target, (core.jump index).line? = some target ∧ Source.LeadsTo source line target := by
  have counted := describes.index_eq known defines
  obtain ⟨text, -, here, -⟩ := defines
  have inside : line ≤ source.length := (List.getElem?_eq_some_iff.1 here).1.le
  let lines := (Source.statements source).map (·.2)
  have size : lines.length = program.size := by rw [List.length_map, describes.size_eq]
  have lands : (core.jump index).line? = lines[if index < lines.length then index else 0]? := by
    rw [← describes.line?_eq, size, ← loaded]
    rfl
  by_cases known_there : index < lines.length
  · have there : lines[index]? = some lines[index] := List.getElem?_eq_getElem known_there
    rw [if_pos known_there] at lands
    exact ⟨_, lands.trans there, Source.leadsTo_of_getElem? inside (.inl (counted ▸ there))⟩
  · have first : lines[0]? = some lines[0] := List.getElem?_eq_getElem (size ▸ filled)
    have behind : (Source.statements source).length ≤
        (Source.statements (source.take line)).length := by
      rw [← counted, ← describes.size_eq, ← size]
      exact not_lt.1 known_there
    rw [if_neg known_there] at lands
    exact ⟨_, lands.trans first, Source.leadsTo_of_getElem? inside (.inr ⟨behind, first⟩)⟩

end Program.Describes

/-- The lines and labels of a program are those of a source. -/
structure Program.LocatedIn (program : Program) (source : List (List Char)) : Prop where
  /-- There is one line for each instruction.  Where the two are stored apart, this is what
  `exists_stores_of_compile` says. -/
  lengths : program.lines.length = program.instructions.length
  increasing : program.lines.Pairwise (· < ·)
  /-- The lines are those with an instruction part. -/
  mem_lines : ∀ line, line ∈ program.lines ↔ Source.HasStatementAt source line
  distinct : (program.labels.map (·.name)).Nodup
  /-- A label has as its index the number of lines with an instruction part before its own. -/
  mem_labels : ∀ name index, ⟨name, index⟩ ∈ program.labels ↔
    ∃ line, Source.Defines source name line ∧
      index = (source.take line).countP fun earlier => Source.HasStatement earlier
  /-- A jump goes to the index of the label that its only operand names. -/
  jumps : ∀ position condition index,
    program.instruction? position = some (.jump condition index) →
      ∃ place line name, program.line? position = some place ∧ source[place]? = some line ∧
        Source.operands line = [name] ∧ ⟨upper name, index⟩ ∈ program.labels

theorem Program.Describes.locatedIn {program : Program} {source : List (List Char)}
    (describes : program.Describes source) : program.LocatedIn source where
  lengths := by simp [lines, instructions]
  increasing := describes.lines_eq ▸ Source.statementLines_pairwise source
  mem_lines line := describes.lines_eq ▸ Source.mem_statementLines_iff
  distinct := describes.distinct
  mem_labels name index := describes.labels ▸ Source.mem_labels_iff
  jumps position condition index there := describes.jump there

end Assembly

open Assembly Text

variable {σ : Type} [Bus σ]

/-- A taken jump does nothing but go on at its index. -/
theorem Node.execute_jump {node : Node} {condition : Condition} {index : Nat}
    (next : node.core.instruction? = some (.jump condition index))
    (holds : condition.holds node.core.registers.acc) (bus : σ) :
    node.execute bus = ({ node with core := node.core.jump index, activity := .running }, bus) := by
  simp [execute, next, Instruction.input, Core.read, finish, Core.outgoing?, Core.perform, holds]

/-- When a source compiles, the program has the lines and labels of the source, and whichever node
has the program, a jump that it takes goes to where the label leads that the jump names. -/
theorem Assembly.compile_locatedIn {capacity limits : Extent} {source : List (List Char)}
    {program : Program} (compiled : (compile capacity limits source).outcome = .ok program) :
    program.LocatedIn source ∧
      ∀ (node : Node) (bus : σ) (condition : Condition) (index : Nat),
        node.core.program = program →
        node.core.instruction? = some (.jump condition index) →
        condition.holds node.core.registers.acc →
          ∃ place line name, node.core.line? = some place ∧ source[place]? = some line ∧
            Source.operands line = [name] ∧
            (∃ labelled, Source.Defines source (upper name) labelled) ∧
            ∀ labelled, Source.Defines source (upper name) labelled →
              ∃ target, (node.execute bus).1.core.line? = some target ∧
                Source.LeadsTo source labelled target := by
  have describes := compile_describes compiled
  refine ⟨describes.locatedIn, ?_⟩
  rintro node bus condition index rfl next holds
  obtain ⟨place, line, name, there, here, operands, known⟩ := describes.jump next
  have filled : 0 < node.core.program.size := by
    obtain ⟨placed, found, -⟩ := Option.map_eq_some_iff.1 next
    exact Nat.zero_lt_of_lt (List.getElem?_eq_some_iff.1 found).1
  refine ⟨place, line, name, there, here, operands, ?_, fun labelled defines => ?_⟩
  · obtain ⟨labelled, defines, -⟩ := Source.mem_labels_iff.1 (describes.labels ▸ known)
    exact ⟨labelled, defines⟩
  · rw [Node.execute_jump next holds]
    exact describes.line?_jump rfl filled known defines

/-- A source with a jump back, a jump forward and a label behind the last instruction. -/
def Assembly.roundTrip : List (List Char) :=
  ["A: JMP END".toList, "nop # idle".toList, "JMP a".toList, "End:".toList]

/-- What the source compiles to. -/
def Assembly.roundTripProgram : Program :=
  ⟨[⟨.jump .always 3, 0⟩, ⟨.idle, 1⟩, ⟨.jump .always 0, 2⟩], [⟨"A".toList, 0⟩, ⟨"END".toList, 3⟩]⟩

/-- The first jump of the source is taken to the label at its end, which leads to the first line. -/
theorem Assembly.roundTrip_locatedIn :
    (compile ⟨64, 64⟩ .standard roundTrip).outcome = .ok roundTripProgram ∧
      roundTripProgram.LocatedIn roundTrip ∧
      ∃ target,
        (Node.execute ⟨⟨roundTripProgram, roundTrip, .initial⟩, .running, true⟩
          (⟨.unlinked, .empty⟩ : PortBus)).1.core.line? = some target ∧
        Source.LeadsTo roundTrip 3 target := by
  have compiled : (compile ⟨64, 64⟩ .standard roundTrip).outcome = .ok roundTripProgram := by
    decide
  obtain ⟨located, taken⟩ := @compile_locatedIn PortBus _ _ _ _ _ compiled
  obtain ⟨place, line, name, there, here, operands, -, leads⟩ :=
    taken ⟨⟨roundTripProgram, roundTrip, .initial⟩, .running, true⟩ ⟨.unlinked, .empty⟩ .always 3
      rfl rfl rfl
  obtain rfl : 0 = place := Option.some.inj there
  obtain rfl : "A: JMP END".toList = line := Option.some.inj here
  have written : Source.operands "A: JMP END".toList = ["END".toList] := by decide
  obtain rfl : "END".toList = name := List.singleton_inj.1 (written.symm.trans operands)
  exact ⟨compiled, located, leads 3 ⟨"End:".toList, "End".toList, rfl, by decide, by decide⟩⟩

end NodeGrid
