import NodeGrid.Proofs.Assembly.Location
import NodeGrid.Proofs.Text.Offsets
import NodeGrid.Node.Core

/-!
# What compiling leaves of the past

Compiling clears a core before it fills it, so what the core was before is forgotten, and a program
is put into it whole or not at all.  Whatever is done to the core later, its program is that of the
last source that compiled, but for the targets of jumps, or there is none.  The invariant carries
the bounds of the labels along, because a jump is only ever pointed to the index of a label.
-/

namespace NodeGrid

open Assembly Text

/-! ## Programs and the targets of their jumps -/

/-- An instruction without the target that it has as a jump. -/
def Instruction.untargeted : Instruction → Instruction
  | .jump condition _ => .jump condition 0
  | other => other

namespace Assembly.Program

/-- A program without the targets of its jumps. -/
def untargeted (program : Program) : Program :=
  { program with
    code := program.code.map fun placed => ⟨placed.instruction.untargeted, placed.line⟩ }

/-- No label and no jump leads further than right behind the last instruction. -/
structure Bounded (program : Program) : Prop where
  jumps : ∀ position condition index,
    program.instruction? position = some (.jump condition index) → index ≤ program.size
  labels : ∀ label ∈ program.labels, label.index ≤ program.size

theorem bounded_empty : empty.Bounded where
  jumps _ _ _ there := by cases there
  labels _ member := by cases member

/-- What a source amounts to is bounded. -/
theorem Describes.bounded {program : Program} {source : List (List Char)}
    (describes : program.Describes source) : program.Bounded := by
  have labels : ∀ label ∈ program.labels, label.index ≤ program.size := by
    rintro ⟨name, index⟩ known
    have listed := known
    rw [describes.labels] at listed
    obtain ⟨line, -, rfl⟩ := Source.mem_labels_iff.1 listed
    rw [describes.size_eq, Source.length_statements]
    exact (List.take_sublist line source).countP_le
  exact
    { jumps := by
        intro position condition index there
        obtain ⟨place, line, name, -, -, -, known⟩ := describes.jump there
        exact labels _ known
      labels }

variable {program : Program} {position index : Nat}

@[simp] theorem size_pointJump (program : Program) (position index : Nat) :
    (program.pointJump position index).size = program.size :=
  List.length_modify ..

/-- Pointing a jump elsewhere changes nothing but its target. -/
@[simp] theorem untargeted_pointJump (program : Program) (position index : Nat) :
    (program.pointJump position index).untargeted = program.untargeted := by
  unfold pointJump untargeted
  congr 1
  apply List.ext_getElem?
  intro place
  rw [List.getElem?_map, List.getElem?_map, List.getElem?_modify]
  cases program.code[place]? with
  | none => rfl
  | some placed =>
      obtain ⟨instruction, line⟩ := placed
      by_cases here : position = place
      · cases instruction <;> simp [here, Instruction.untargeted]
      · simp [here]

/-- A jump that is pointed within the bounds keeps them. -/
theorem Bounded.pointJump (bounded : program.Bounded) (inside : index ≤ program.size) :
    (program.pointJump position index).Bounded where
  jumps := by
    intro place condition target there
    rw [size_pointJump]
    obtain ⟨placed, found, made⟩ := Option.map_eq_some_iff.1 there
    rw [Program.pointJump, List.getElem?_modify] at found
    obtain ⟨⟨instruction, line⟩, old, rfl⟩ := Option.map_eq_some_iff.1 found
    have known : ∀ condition target, instruction = .jump condition target →
        target ≤ program.size := by
      rintro condition target rfl
      exact bounded.jumps place condition target (by rw [instruction?, old]; rfl)
    by_cases here : position = place
    · rw [if_pos here] at made
      cases instruction with
      | jump condition' old =>
          cases made
          exact inside
      | _ => cases made
    · rw [if_neg here] at made
      exact known condition target made
  labels label member := by
    rw [size_pointJump]
    exact bounded.labels label member

/-- A reference that is found leads to a label, so a redirected program is bounded as well. -/
theorem Bounded.redirect (bounded : program.Bounded) {reference : Reference}
    {redirected : Program} (found : program.redirect position reference = .ok redirected) :
    redirected.Bounded ∧ redirected.untargeted = program.untargeted := by
  unfold Program.redirect Reference.resolve at found
  cases known : labelIndex? program.labels reference.name with
  | none =>
      rw [known] at found
      cases found
  | some index =>
      rw [known] at found
      cases found
      obtain ⟨label, listed, rfl⟩ := Option.map_eq_some_iff.1 known
      have inside := bounded.labels label (List.mem_of_find?_eq_some listed)
      exact ⟨bounded.pointJump inside, untargeted_pointJump program position label.index⟩

/-- Without a program there is no label to go to. -/
theorem redirect_empty (position : Nat) (reference : Reference) :
    ∃ error, empty.redirect position reference = .error error :=
  ⟨_, rfl⟩

end Assembly.Program

/-! ## Compiling -/

namespace Core

/-- What compiling a source makes of a core. -/
structure Rebuilt (capacity limits : Extent) (source : List (List Char))
    (result : Except CompileError Unit × Core) : Prop where
  /-- The registers are reset in every case. -/
  registers : result.2.registers = .initial
  /-- The program is that of the source. -/
  program : result.1 = .ok () →
    (Assembly.compile capacity limits source).outcome = .ok result.2.program
  /-- After a failure there is no program. -/
  failed : ∀ error, result.1 = .error error →
    result.2.program.instructions = [] ∧ result.2.program.labels = [] ∧
      result.2.program.lines = []
  /-- Of too many lines no text is kept. -/
  tooManyLines : ∀ error, result.1 = .error error → error.fault = .tooManyLines →
    result.2.source = []
  /-- Otherwise there is one text for each line. -/
  length : (∀ error, result.1 = .error error → error.fault ≠ .tooManyLines) →
    result.2.source.length = source.length
  /-- It is as much of the line in upper case as there is room for. -/
  kept : (∀ error, result.1 = .error error → error.fault ≠ .tooManyLines) →
    ∀ (index : Nat) (line : List Char), source[index]? = some line →
      ∃ part, result.2.source[index]? = some part ∧
        IsLongestPrefix capacity.columns (upper line) part

/-- What is done to a core from outside. -/
inductive Change where
  | compile (limits : Extent) (source : List (List Char))
  | clear
  | clearProgram
  | resetRegisters
  | setAcc (value : Word)
  | setBak (value : Word)
  | redirect (position : Nat) (reference : Reference)

/-- The core after a change. -/
def change (capacity : Extent) (core : Core) : Change → Core
  | .compile limits source => (core.compile capacity limits source).2
  | .clear => core.clear
  | .clearProgram => core.clearProgram
  | .resetRegisters => core.resetRegisters
  | .setAcc value => core.setAcc value
  | .setBak value => core.setBak value
  | .redirect position reference => (core.redirect position reference).2

/-- The program that a change compiles. -/
def Change.program? (capacity : Extent) : Change → Option Program
  | .compile limits source => (Assembly.compile capacity limits source).outcome.toOption
  | _ => none

/-- The program of the last source that compiled. -/
def lastProgram? (capacity : Extent) (changes : List Change) : Option Program :=
  changes.reverse.findSome? (Change.program? capacity)

/-- After some changes a core has no program, or that of the last source that compiled, up to the
targets of its jumps; and nothing leads out of it. -/
structure Settled (capacity : Extent) (changes : List Change) (core : Core) : Prop where
  program : core.program = .empty ∨
    ∃ compiled, lastProgram? capacity changes = some compiled ∧
      core.program.untargeted = compiled.untargeted
  bounded : core.program.Bounded

/-- A core is cleared before a source is compiled, so nothing of it matters. -/
theorem compile_eq_compile (capacity limits : Extent) (source : List (List Char))
    (core other : Core) :
    core.compile capacity limits source = other.compile capacity limits source := rfl

section Compile

variable {capacity limits : Extent} {source : List (List Char)} {core : Core}

theorem compile_of_ok {program : Program}
    (compiled : (Assembly.compile capacity limits source).outcome = .ok program) :
    core.compile capacity limits source =
      (.ok (), ⟨program, (Assembly.compile capacity limits source).kept, .initial⟩) := by
  simp only [compile, compiled]
  rfl

theorem compile_of_error {error : CompileError}
    (fails : (Assembly.compile capacity limits source).outcome = .error error) :
    core.compile capacity limits source =
      (.error error, ⟨.empty, (Assembly.compile capacity limits source).kept, .initial⟩) := by
  simp only [compile, fails]
  rfl

/-- Unless it is reported that there are too many lines, there are not. -/
theorem le_of_compile (other : ∀ error, (core.compile capacity limits source).1 = .error error →
    error.fault ≠ .tooManyLines) : source.length ≤ (limits.within capacity).lines := by
  by_contra many
  have fails := compile_of_lt (not_le.1 many)
  exact other _ (congrArg Prod.fst (compile_of_error fails)) rfl

theorem source_compile :
    (core.compile capacity limits source).2.source =
      (Assembly.compile capacity limits source).kept := by
  cases compiled : (Assembly.compile capacity limits source).outcome with
  | ok program => rw [compile_of_ok compiled]
  | error error => rw [compile_of_error compiled]

/-- Compiling rebuilds a core from the source and the limits. -/
theorem rebuilt_compile :
    Rebuilt capacity limits source (core.compile capacity limits source) where
  registers := by
    cases compiled : (Assembly.compile capacity limits source).outcome with
    | ok program => rw [compile_of_ok compiled]
    | error error => rw [compile_of_error compiled]
  program := by
    cases compiled : (Assembly.compile capacity limits source).outcome with
    | ok program =>
        rw [compile_of_ok compiled]
        exact fun _ => rfl
    | error error =>
        rw [compile_of_error compiled]
        nofun
  failed := by
    intro error
    cases compiled : (Assembly.compile capacity limits source).outcome with
    | ok program =>
        rw [compile_of_ok compiled]
        nofun
    | error error =>
        rw [compile_of_error compiled]
        exact fun _ => ⟨rfl, rfl, rfl⟩
  tooManyLines := by
    intro error failed many
    rw [source_compile]
    cases compiled : (Assembly.compile capacity limits source).outcome with
    | ok program =>
        rw [compile_of_ok compiled] at failed
        cases failed
    | error error =>
        rw [compile_of_error compiled] at failed
        cases failed
        have lines : (limits.within capacity).lines < source.length := by
          by_contra few
          exact fault_ne_tooManyLines (not_lt.1 few) compiled many
        simp only [Assembly.compile, if_pos lines]
  length := by
    intro other
    rw [source_compile, kept_of_le (le_of_compile other), List.length_map]
  kept := by
    intro other index line here
    rw [source_compile, kept_of_le (le_of_compile other), List.getElem?_map, here]
    exact ⟨_, rfl, isLongestPrefix_fitting capacity.columns (upper line)⟩

end Compile

/-! ## Changes -/

section Changes

variable {capacity : Extent} {changes : List Change} {core : Core}

theorem lastProgram?_concat (change : Change) :
    lastProgram? capacity (changes ++ [change]) =
      (change.program? capacity).or (lastProgram? capacity changes) := by
  rw [lastProgram?, List.reverse_append, List.reverse_singleton, List.singleton_append,
    List.findSome?_cons]
  cases change.program? capacity <;> rfl

/-- A core without a program is settled. -/
theorem settled_of_empty (empty : core.program = .empty) : Settled capacity changes core where
  program := .inl empty
  bounded := empty ▸ Program.bounded_empty

/-- Compiling settles every core. -/
theorem settled_compile (limits : Extent) (source : List (List Char)) :
    Settled capacity (changes ++ [.compile limits source])
      (core.compile capacity limits source).2 := by
  cases compiled : (Assembly.compile capacity limits source).outcome with
  | ok program =>
      rw [compile_of_ok compiled]
      have last : lastProgram? capacity (changes ++ [.compile limits source]) = some program := by
        rw [lastProgram?_concat, Change.program?, compiled]
        rfl
      exact
        { program := .inr ⟨program, last, rfl⟩
          bounded := (compile_describes compiled).bounded }
  | error error =>
      rw [compile_of_error compiled]
      exact settled_of_empty rfl

/-- A change that compiles nothing and leaves the program alone keeps a core settled. -/
theorem Settled.of_same (settled : Settled capacity changes core) {change : Change}
    (silent : change.program? capacity = none) {changed : Core}
    (same : changed.program = core.program) :
    Settled capacity (changes ++ [change]) changed where
  program := by
    rw [same, lastProgram?_concat, silent, Option.none_or]
    exact settled.program
  bounded := same ▸ settled.bounded

/-- A jump that is redirected keeps a core settled. -/
theorem Settled.redirect (settled : Settled capacity changes core) (position : Nat)
    (reference : Reference) :
    Settled capacity (changes ++ [.redirect position reference])
      (core.redirect position reference).2 := by
  unfold Core.redirect
  cases found : core.program.redirect position reference with
  | error error => exact settled.of_same rfl rfl
  | ok redirected =>
      obtain ⟨bounded, same⟩ := settled.bounded.redirect found
      refine ⟨?_, bounded⟩
      cases settled.program with
      | inl empty =>
          obtain ⟨error, fails⟩ := Program.redirect_empty position reference
          rw [empty, fails] at found
          cases found
      | inr known =>
          obtain ⟨compiled, last, agrees⟩ := known
          refine .inr ⟨compiled, ?_, same.trans agrees⟩
          rw [lastProgram?_concat]
          exact last

/-- Every change keeps a core settled. -/
theorem Settled.change (settled : Settled capacity changes core) (change : Change) :
    Settled capacity (changes ++ [change]) (core.change capacity change) := by
  cases change with
  | compile limits source => exact settled_compile limits source
  | clear | clearProgram => exact settled_of_empty rfl
  | resetRegisters | setAcc value | setBak value => exact settled.of_same rfl rfl
  | redirect position reference => exact settled.redirect position reference

/-- Once a source has been compiled, a core stays settled. -/
theorem settled_run (limits : Extent) (source : List (List Char)) (later : List Change) :
    Settled capacity (.compile limits source :: later)
      ((Change.compile limits source :: later).foldl (change capacity) core) := by
  induction later using List.reverseRecOn with
  | nil => exact @settled_compile capacity [] core limits source
  | append_singleton later last ih =>
      rw [← List.cons_append, List.foldl_concat]
      exact ih.change last

end Changes

/-- Compiling makes the same of every core, and all or nothing: it resets the registers, and there
is either the whole program or none.  Whatever is done to the core later, its program is that of the
last source that compiled, up to the targets of its jumps, or there is none, and no label and no
jump leads out of it. -/
theorem compile_forgets (capacity limits : Extent) (source : List (List Char)) :
    (∀ core other : Core,
        core.compile capacity limits source = other.compile capacity limits source) ∧
      (∀ core : Core, Rebuilt capacity limits source (core.compile capacity limits source)) ∧
      ∀ (core : Core) (later : List Change),
        Settled capacity (.compile limits source :: later)
          ((Change.compile limits source :: later).foldl (change capacity) core) :=
  ⟨compile_eq_compile capacity limits source, fun _ => rebuilt_compile,
    fun _ => settled_run limits source⟩

end Core

end NodeGrid
