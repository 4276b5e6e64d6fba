import NodeGrid.Proofs.Arithmetic
import NodeGrid.Proofs.Node.Consistency
import NodeGrid.Proofs.Node.Overheard
import NodeGrid.Proofs.Node.Recompile

/-!
# Programs without ports

A program that names no port is run without a word to the outside.  What its node does then is said
by an ideal node, which has nothing but an accumulator, a backup and a program counter, and computes
on integers without bounds.  The two never part: every step of the node runs one instruction, and
reads as integers its registers are those of the ideal node after as many steps.
-/

namespace NodeGrid

open Assembly

/-! ## Programs without ports -/

/-- The operand is reached through the ports of the node. -/
def Operand.isPort : Operand → Bool
  | .literal _ => false
  | .target place => place.isPort

/-- The instruction neither reads from a port nor writes to one. -/
def Instruction.isLocal : Instruction → Bool
  | .binary _ operand | .jumpRelative operand => !operand.isPort
  | .move source target => !source.isPort && !target.isPort
  | .complement | .negate | .save | .swap | .jump _ _ => true

/-- No operand and no destination of the program is a port. -/
def Assembly.Program.IsLocal (program : Program) : Prop :=
  ∀ instruction ∈ program.instructions, instruction.isLocal

instance (program : Program) : Decidable program.IsLocal :=
  inferInstanceAs (Decidable (∀ instruction ∈ program.instructions, _))

theorem Instruction.input_of_isLocal {instruction : Instruction} (inside : instruction.isLocal) :
    instruction.input.isPort = false := by
  cases instruction with
  | binary op operand => simpa [isLocal, input] using inside
  | move source target =>
      simp only [isLocal, Bool.and_eq_true, Bool.not_eq_true'] at inside
      exact inside.1
  | jumpRelative offset => simpa [isLocal, input] using inside
  | complement | negate | save | swap | jump condition index => rfl

/-! ## The ideal node -/

/-- The registers of an ideal node. -/
structure Ideal where
  acc : Int
  bak : Int
  pc : Nat
  deriving DecidableEq, Repr

/-- When a jump is taken by an ideal node. -/
def Condition.holdsFor (condition : Condition) (acc : Int) : Bool :=
  match condition with
  | .always => true
  | .zero => acc = 0
  | .positive => 0 < acc
  | .negative => acc < 0
  | .nonzero => acc ≠ 0

namespace Ideal

/-- What an operand stands for.  Apart from literals and the accumulator a program without ports
knows only the place that reads as zero. -/
def value (ideal : Ideal) : Operand → Int
  | .literal word => word.toInt
  | .target .acc => ideal.acc
  | .target _ => 0

/-- Go on at an instruction of a program, from behind the last one at the first. -/
def goTo (ideal : Ideal) (length index : Nat) : Ideal :=
  { ideal with pc := if index = length then 0 else index }

/-- Go on at the next instruction. -/
def advance (ideal : Ideal) (length : Nat) : Ideal :=
  ideal.goTo length (ideal.pc + 1)

/-- The effect of an instruction in a program of this length. -/
def perform (ideal : Ideal) (length : Nat) : Instruction → Ideal
  | .binary op operand =>
      { ideal with acc := Word.clamp (op.exact ideal.acc (ideal.value operand)) }.advance length
  | .complement => { ideal with acc := Word.clamp (-ideal.acc - 1) }.advance length
  | .negate => { ideal with acc := Word.clamp (-ideal.acc) }.advance length
  | .save => { ideal with bak := ideal.acc }.advance length
  | .swap => { ideal with acc := ideal.bak, bak := ideal.acc }.advance length
  | .move source .acc => { ideal with acc := ideal.value source }.advance length
  | .move _ _ => ideal.advance length
  | .jump condition index =>
      if condition.holdsFor ideal.acc then ideal.goTo length index else ideal.advance length
  | .jumpRelative offset =>
      { ideal with pc := ((ideal.pc + ideal.value offset) % (length : Int)).toNat }

/-- Run the instruction at the program counter. -/
def step (code : List Instruction) (ideal : Ideal) : Ideal :=
  match code[ideal.pc]? with
  | some instruction => ideal.perform code.length instruction
  | none => ideal

end Ideal

/-- The registers of a node as integers. -/
def Registers.ideal (registers : Registers) : Ideal :=
  ⟨registers.acc.toInt, registers.bak.toInt, registers.pc⟩

/-! ## One instruction -/

theorem Condition.holds_eq (condition : Condition) (acc : Word) :
    condition.holds acc = condition.holdsFor acc.toInt := by
  cases condition <;>
    simp [holds, holdsFor, Int16.lt_iff_toInt_lt, ← Int16.toInt_inj]

namespace Core

/-- An operand that is no port has its value at once. -/
theorem take_of_local (core : Core) {operand : Operand} (inside : operand.isPort = false)
    (arrival : Option (Port × Word)) :
    ∃ value : Word, core.take operand arrival = some (value, core) ∧
      value.toInt = core.registers.ideal.value operand := by
  cases operand with
  | literal value => exact ⟨value, rfl, rfl⟩
  | target place =>
      cases place with
      | acc => exact ⟨core.registers.acc, rfl, rfl⟩
      | nil => exact ⟨0, rfl, rfl⟩
      | port side | any | last => cases inside

theorem polled_of_local (core : Core) {operand : Operand} (inside : operand.isPort = false) :
    core.polled operand = [] := by
  cases operand with
  | literal value => rfl
  | target place =>
      cases place with
      | acc | nil => rfl
      | port side | any | last => cases inside

theorem outgoing?_of_local (core : Core) (value : Word) {instruction : Instruction}
    (inside : instruction.isLocal) : core.outgoing? value instruction = none := by
  cases instruction with
  | move source target =>
      cases target with
      | acc | nil => rfl
      | port side | any | last => simp [Instruction.isLocal, Target.isPort] at inside
  | _ => rfl

variable {core : Core}

theorem ideal_jump {index : Nat} (within : index ≤ core.program.size) :
    (core.jump index).registers.ideal = core.registers.ideal.goTo core.program.size index := by
  simp only [jump, Ideal.goTo, Registers.ideal, Ideal.mk.injEq, true_and]
  by_cases behind : index = core.program.size
  · rw [if_neg (by omega), if_pos behind]
  · rw [if_pos (by omega), if_neg behind]

theorem ideal_advance (core : Core) (within : core.registers.pc < core.program.size) :
    core.advance.registers.ideal = core.registers.ideal.advance core.program.size :=
  ideal_jump within

theorem ideal_jumpBy (within : core.registers.pc < core.program.size) (offset : Word) :
    (core.jumpBy offset).registers.ideal =
      { core.registers.ideal with
        pc := ((core.registers.pc + offset.toInt) % (core.program.size : Int)).toNat } := by
  unfold jumpBy
  rw [if_neg (by omega)]
  rfl

/-- An instruction that changes the accumulator and goes on does so in an ideal node. -/
theorem ideal_advance_acc (within : core.registers.pc < core.program.size) {acc : Word}
    {value : Int} (same : acc.toInt = value) :
    ({ core with registers.acc := acc }.advance : Core).registers.ideal =
      Ideal.advance { core.registers.ideal with acc := value } core.program.size := by
  subst same
  exact ideal_advance { core with registers.acc := acc } within

/-- An instruction does to the registers what it does to those of an ideal node. -/
theorem ideal_perform {value : Word} {instruction : Instruction} (inside : instruction.isLocal)
    (within : core.registers.pc < core.program.size)
    (bounded : ∀ condition index, instruction = .jump condition index → index ≤ core.program.size)
    (input : value.toInt = core.registers.ideal.value instruction.input) :
    (core.perform value instruction).registers.ideal =
      core.registers.ideal.perform core.program.size instruction := by
  cases instruction with
  | binary op operand =>
      exact ideal_advance_acc within ((op.toInt_apply _ _).trans (by rw [input]; rfl))
  | complement =>
      exact ideal_advance_acc within
        ((Word.toInt_saturate _).trans (congrArg Word.clamp (Word.toInt_complement _)))
  | negate =>
      exact ideal_advance_acc within
        ((Word.toInt_saturate _).trans (congrArg Word.clamp (Word.toInt_negate _)))
  | save =>
      exact ideal_advance { core with registers.bak := core.registers.acc } within
  | swap =>
      exact ideal_advance
        { core with
          registers.acc := core.registers.bak
          registers.bak := core.registers.acc } within
  | move source target =>
      cases target with
      | acc => exact ideal_advance_acc within input
      | nil => exact ideal_advance core within
      | port side | any | last => simp [Instruction.isLocal, Target.isPort] at inside
  | jump condition index =>
      simp only [perform, Ideal.perform, Condition.holds_eq]
      change
        (if condition.holdsFor core.registers.ideal.acc then _ else _ : Core).registers.ideal = _
      split
      next => exact ideal_jump (bounded condition index rfl)
      next => exact ideal_advance core within
  | jumpRelative offset =>
      rw [perform, ideal_jumpBy within, input]
      rfl

end Core

/-! ## Any number of steps -/

namespace Node

variable {σ : Type} [Bus σ]

/-- Some steps, one after the other, on one bus. -/
def steps : Nat → Node → σ → Node × σ
  | 0, node, bus => (node, bus)
  | count + 1, node, bus => steps count (node.step bus).1 (node.step bus).2

/-- The node runs a program without ports, in which all jumps stay, and stands at one of its
instructions. -/
structure Computes (node : Node) : Prop where
  enabled : node.enabled
  running : node.activity = .running
  isLocal : node.core.program.IsLocal
  bounded : node.core.program.Bounded
  within : node.core.registers.pc < node.core.program.size

/-- The node with other words in its accumulator and backup, at another instruction. -/
def withWords (node : Node) (acc bak : Word) (pc : Nat) : Node :=
  { node with core.registers := ⟨acc, bak, pc, node.core.registers.last⟩ }

variable {node : Node}

/-- Running an instruction that needs no port is performing it. -/
theorem execute_of_local {instruction : Instruction}
    (fetched : node.core.instruction? = some instruction) (inside : instruction.isLocal)
    {value : Word} (taken : node.core.take instruction.input none = some (value, node.core))
    (bus : σ) :
    node.execute bus =
      ({ node with core := node.core.perform value instruction, activity := .running }, bus) := by
  simp only [execute, fetched, Core.read_eq, claimFirst, taken, finish,
    node.core.polled_of_local (instruction.input_of_isLocal inside),
    node.core.outgoing?_of_local value inside]

/-- A step runs one instruction, as an ideal node does, and leaves every bus alone. -/
theorem Computes.step (computes : node.Computes) :
    ∃ acc bak pc,
      (∀ {σ : Type} [Bus σ] (bus : σ), node.step bus = (node.withWords acc bak pc, bus)) ∧
      (node.withWords acc bak pc).Computes ∧
      (node.withWords acc bak pc).core.registers.ideal =
        node.core.registers.ideal.step node.core.program.instructions := by
  obtain ⟨instruction, fetched⟩ :=
    Option.isSome_iff_exists.1 ((Core.instruction?_isSome_iff _).2 computes.within)
  have listed : node.core.program.instructions[node.core.registers.pc]? = some instruction := by
    rw [Program.instructions, List.getElem?_map]
    exact fetched
  have inside := computes.isLocal instruction (List.mem_of_getElem? listed)
  obtain ⟨value, taken, input⟩ :=
    node.core.take_of_local (instruction.input_of_isLocal inside) none
  obtain ⟨acc, bak, pc, performed⟩ := node.core.exists_perform_eq value instruction
  have core : (node.withWords acc bak pc).core = node.core.perform value instruction :=
    performed.symm
  refine ⟨acc, bak, pc, ?step, ?computes, ?ideal⟩
  case step =>
    intro σ _ bus
    rw [Node.step, if_pos computes.enabled, computes.running]
    change node.execute bus = _
    rw [execute_of_local fetched inside taken, ← core, ← computes.running]
    rfl
  case computes =>
    refine ⟨computes.enabled, computes.running, computes.isLocal, computes.bounded, ?_⟩
    rw [core]
    refine (node.core.countsWithin_perform value instruction).resolve_right fun empty => ?_
    have within := computes.within
    rw [Core.program_perform] at empty
    omega
  case ideal =>
    have jumps : ∀ condition index, instruction = .jump condition index →
        index ≤ node.core.program.size :=
      fun condition index same => computes.bounded.jumps _ condition index (same ▸ fetched)
    have length : node.core.program.instructions.length = node.core.program.size :=
      List.length_map _
    rw [core, Core.ideal_perform inside computes.within jumps input, Ideal.step, ← length]
    change _ = match node.core.program.instructions[node.core.registers.pc]? with
      | some instruction => _
      | none => _
    rw [listed]

/-- The program stays, so many steps are those of an ideal node with the same program. -/
theorem Computes.steps (computes : node.Computes) (count : Nat) :
    ∃ acc bak pc,
      (∀ {σ : Type} [Bus σ] (bus : σ), node.steps count bus = (node.withWords acc bak pc, bus)) ∧
      (node.withWords acc bak pc).Computes ∧
      (node.withWords acc bak pc).core.registers.ideal =
        (Ideal.step node.core.program.instructions)^[count] node.core.registers.ideal := by
  induction count generalizing node with
  | zero => exact ⟨_, _, _, fun _ => rfl, computes, rfl⟩
  | succ count ih =>
      obtain ⟨acc, bak, pc, first, going, ideal⟩ := computes.step
      obtain ⟨after, later, next, rest, still, further⟩ := ih going
      refine ⟨after, later, next, ?_, still, ?_⟩
      · intro σ _ bus
        rw [Node.steps, first]
        exact rest bus
      · rw [Function.iterate_succ_apply, ← ideal]
        exact further

end Node

/-- What is computed from some registers on 32 bits is exact before it is saturated. -/
structure Registers.Exact (registers : Registers) : Prop where
  binary : ∀ (op : BinaryOp) (operand : Word),
    (op.wide registers.acc.toInt32 operand.toInt32).toInt =
      op.exact registers.acc.toInt operand.toInt
  complement : (~~~registers.acc.toInt32).toInt = -registers.acc.toInt - 1
  negate : (-registers.acc.toInt32).toInt = -registers.acc.toInt

theorem Registers.exact (registers : Registers) : registers.Exact :=
  ⟨fun op => op.toInt_wide _, Word.toInt_complement _, Word.toInt_negate _⟩

/-- The length of a program can be counted on 64 bits, and so can the instructions from the first
one to where a relative jump leads, before it is taken around the ends of the program. -/
structure Core.Counts (core : Core) : Prop where
  length : (Int64.ofInt core.program.size).toInt = core.program.size
  jump : ∀ offset : Word, (Int64.ofInt core.registers.pc + offset.toInt64).toInt =
    core.registers.pc + offset.toInt

/-- Half of what can be counted is enough for a program, since a jump is no longer than a word. -/
theorem Core.counts {core : Core} (short : 2 * (core.program.size : Int) ≤ Int64.maxValue.toInt)
    (within : core.registers.pc < core.program.size) : core.Counts := by
  have most : Int64.maxValue.toInt = 2 ^ 63 - 1 := by decide
  have length : (Int64.ofInt core.program.size).toInt = core.program.size :=
    Int64.toInt_ofInt_of_le (by omega) (by omega)
  have counter : (Int64.ofInt core.registers.pc).toInt = core.registers.pc :=
    Int64.toInt_ofInt_of_le (by omega) (by omega)
  refine ⟨length, fun offset => ?_⟩
  have low := offset.le_toInt
  have high := offset.toInt_lt
  rw [Int64.toInt_add, counter, Int16.toInt_toInt64]
  exact Int.bmod_eq_of_le (by omega) (by omega)

/-- There are no more instructions than lines, and no more of these than a node has room for. -/
theorem Assembly.size_le_of_compile {capacity limits : Extent} {source : List (List Char)}
    {program : Program} (compiled : (compile capacity limits source).outcome = .ok program) :
    program.size ≤ capacity.lines := by
  obtain ⟨few, -, describes⟩ := compile_eq_ok_iff.1 compiled
  calc program.size
      = source.countP fun line => Source.HasStatement line := by
        rw [describes.size_eq, Source.length_statements]
    _ ≤ source.length := List.countP_le_length
    _ ≤ (limits.within capacity).lines := few
    _ ≤ capacity.lines := min_le_right _ _

namespace Node

/-- What a node without ports has become after some steps. -/
structure MirrorsIdeal (node : Node) (capacity : Extent) (count : Nat) (after : Node) : Prop where
  /-- As integers, its registers are those of the ideal node. -/
  registers : after.core.registers.ideal =
    (Ideal.step node.core.program.instructions)^[count] node.core.registers.ideal
  /-- Nothing else of it has changed: it still runs, with the same program and last port. -/
  rest : ∃ acc bak pc, after = node.withWords acc bak pc
  within : after.core.registers.pc < node.core.program.size
  /-- What it computes next on 32 bits is exact before it is saturated. -/
  arithmetic : after.core.registers.Exact
  /-- What it computes next on 64 bits is exact too, if as many instructions as the node has room
  for can be stored in two bytes each. -/
  counter : 2 * (capacity.lines : Int) ≤ Int64.maxValue.toInt → after.core.Counts

/-- A compiled program without ports makes of a node, in any number of steps, what it makes of an
ideal node, from any words in its registers and from any of its instructions.  On no bus does a
step make a call. -/
theorem steps_mirror_ideal {capacity limits : Extent} {source : List (List Char)} {node : Node}
    (compiled : (Assembly.compile capacity limits source).outcome = .ok node.core.program)
    (isLocal : node.core.program.IsLocal) (enabled : node.enabled)
    (running : node.activity = .running)
    (within : node.core.registers.pc < node.core.program.size) (count : Nat) :
    ∃ after, node.MirrorsIdeal capacity count after ∧
      ∀ {σ : Type} [Bus σ] (bus : σ), node.steps count bus = (after, bus) ∧
        node.steps count (Overheard.quiet bus) = (after, Overheard.quiet bus) := by
  have computes : node.Computes :=
    ⟨enabled, running, isLocal, (compile_describes compiled).bounded, within⟩
  obtain ⟨acc, bak, pc, stepped, going, ideal⟩ := computes.steps count
  refine ⟨node.withWords acc bak pc, ?_, fun bus => ⟨stepped bus, stepped (Overheard.quiet bus)⟩⟩
  exact
    { registers := ideal
      rest := ⟨acc, bak, pc, rfl⟩
      within := going.within
      arithmetic := Registers.exact _
      counter := by
        intro stored
        have room := size_le_of_compile compiled
        have short : 2 * (node.core.program.size : Int) ≤ Int64.maxValue.toInt := by omega
        exact Core.counts short going.within }

/-- A program whose arithmetic leaves the register range, whose first jump leads behind its last
instruction, and whose last one leads back over both ends of the program. -/
def overflowing : List (List Char) :=
  ["SHL 20".toList, "SUB -999".toList, "JEZ E".toList, "NOT".toList, "SWP".toList, "JRO -11".toList,
    "E:".toList]

/-- A node with words beyond the register range that runs the program. -/
def overflowed : Node :=
  ((Node.new.setEnabled true).compile .standard .standard overflowing).2.withWords 32767 (-32768) 3

/-- In six steps the node comes around both ends of its program, on any bus. -/
theorem overflowed_mirrors_ideal :
    (Assembly.compile .standard .standard overflowing).outcome = .ok overflowed.core.program ∧
      overflowed.core.program.IsLocal ∧
      ∃ after, overflowed.MirrorsIdeal .standard 6 after ∧
        after.core.registers.ideal = ⟨0, -999, 0⟩ ∧
        ∀ {σ : Type} [Bus σ] (bus : σ), overflowed.steps 6 bus = (after, bus) ∧
          overflowed.steps 6 (Overheard.quiet bus) = (after, Overheard.quiet bus) := by
  have compiled : (Assembly.compile .standard .standard overflowing).outcome =
      .ok overflowed.core.program := by decide +kernel
  have isLocal : overflowed.core.program.IsLocal := by decide +kernel
  have enabled : overflowed.enabled := by decide +kernel
  have running : overflowed.activity = .running := by decide +kernel
  have within : overflowed.core.registers.pc < overflowed.core.program.size := by decide +kernel
  have ideal : (Ideal.step overflowed.core.program.instructions)^[6]
      overflowed.core.registers.ideal = ⟨0, -999, 0⟩ := by decide +kernel
  obtain ⟨after, mirrors, stepped⟩ :=
    steps_mirror_ideal compiled isLocal enabled running within 6
  exact ⟨compiled, isLocal, after, mirrors, mirrors.registers.trans ideal, stepped⟩

end Node

end NodeGrid
