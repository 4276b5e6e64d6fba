import NodeGrid.Proofs.Arithmetic
import NodeGrid.Proofs.Assembly.Compile
import NodeGrid.Proofs.Assembly.Wording
import NodeGrid.Proofs.Node.Consistency

/-!
# Words of a node stay in range

Arithmetic and the literals of a program are saturated, and every other word that a node holds is a
copy of one that it has or has taken from a port.  So a node in range that is given words in range
stays in range, although a move copies its word as it is.
-/

namespace NodeGrid

open Assembly

namespace Word

theorem zero_inRange : (0 : Word).InRange :=
  ⟨by decide, by decide⟩

/-- What has been saturated lies in the register range. -/
theorem saturate_inRange (value : Int32) : (saturate value).InRange := by
  have nearest := toInt_saturate value
  unfold clamp at nearest
  constructor
  · rw [Int16.le_iff_toInt_le, nearest, show lowest.toInt = -999 by decide]
    omega
  · rw [Int16.le_iff_toInt_le, nearest, show highest.toInt = 999 by decide]
    omega

end Word

/-! ## Literals of programs -/

theorem Operand.inRange_ofText? {text : List Char} {operand : Operand}
    (denoted : Operand.ofText? text = some operand) : operand.InRange := by
  unfold Operand.ofText? at denoted
  split at denoted
  next place =>
    cases denoted
    trivial
  next =>
    obtain ⟨value, read, rfl⟩ := Option.map_eq_some_iff.1 denoted
    obtain ⟨number, -, rfl⟩ := Option.map_eq_some_iff.1 read
    exact Word.saturate_inRange _

/-- A literal among the operands of an instruction is what the instruction takes its input from. -/
def Instruction.InRange (instruction : Instruction) : Prop :=
  instruction.input.InRange

/-- A mnemonic without operands makes an instruction without a literal. -/
theorem Opcode.inRange_of_fixed {opcode : Opcode} {instruction : Instruction}
    (form : opcode.form = .fixed instruction) : instruction.InRange := by
  cases opcode <;> cases form <;> trivial

theorem Assembly.StandsFor.inRange {labels : List Label} {line : List Char}
    {instruction : Instruction} (stands : StandsFor labels line instruction) :
    instruction.InRange := by
  obtain ⟨operation, asks, becomes⟩ := stands
  obtain ⟨opcode, -, statement, takes, -⟩ := asks.takes
  generalize known : opcode.form = form at takes
  cases takes with
  | fixed bare =>
      cases becomes
      exact Opcode.inRange_of_fixed known
  | jump only alone =>
      obtain ⟨index, -, rfl⟩ := becomes
      trivial
  | jumpRelative only alone denoted =>
      cases becomes
      exact Operand.inRange_ofText? denoted
  | binary only alone denoted =>
      cases becomes
      exact Operand.inRange_ofText? denoted
  | move first second denoted named =>
      cases becomes
      exact Operand.inRange_ofText? denoted

namespace Assembly.Program

/-- Every literal of a program lies in the register range. -/
def InRange (program : Program) : Prop :=
  ∀ instruction ∈ program.instructions, instruction.InRange

theorem inRange_empty : empty.InRange :=
  nofun

theorem inRange_of_compile {capacity limits : Extent} {source : List (List Char)}
    {program : Program} (compiled : (Assembly.compile capacity limits source).outcome = .ok program) :
    program.InRange := by
  intro instruction mem
  obtain ⟨placed, listed, rfl⟩ := List.mem_map.1 mem
  obtain ⟨line, -, -, stands⟩ := (compile_describes compiled).stands listed
  exact stands.inRange

theorem InRange.of_instruction? {program : Program} (ranged : program.InRange) {index : Nat}
    {instruction : Instruction} (found : program.instruction? index = some instruction) :
    instruction.InRange := by
  obtain ⟨placed, here, rfl⟩ := Option.map_eq_some_iff.1 found
  exact ranged _ (List.mem_map.2 ⟨placed, List.mem_of_getElem? here, rfl⟩)

end Assembly.Program

/-! ## Cores and nodes -/

/-- The registers and the literals of the program lie in the register range. -/
structure Core.InRange (core : Core) : Prop where
  acc : core.registers.acc.InRange
  bak : core.registers.bak.InRange
  program : core.program.InRange

/-- The words that a node has found at its ports lie in the register range. -/
def ArrivalInRange (arrival : Option (Port × Word)) : Prop :=
  ∀ port value, arrival = some (port, value) → value.InRange

namespace Core.InRange

variable {core : Core} (ranged : core.InRange)

theorem initial {program : Program} (literals : program.InRange) (source : List (List Char)) :
    Core.InRange ⟨program, source, .initial⟩ :=
  ⟨Word.zero_inRange, Word.zero_inRange, literals⟩

include ranged

/-- A jump changes nothing but the program counter. -/
theorem jump (index : Nat) : (core.jump index).InRange :=
  ⟨ranged.acc, ranged.bak, ranged.program⟩

/-- New registers in range may be put in before the next instruction. -/
theorem advance {acc bak : Word} (first : acc.InRange) (second : bak.InRange) :
    (Core.advance { core with registers.acc := acc, registers.bak := bak }).InRange :=
  ⟨first, second, ranged.program⟩

theorem jumpBy (offset : Word) : (core.jumpBy offset).InRange := by
  unfold Core.jumpBy
  split
  next => exact ⟨ranged.acc, ranged.bak, ranged.program⟩
  next => exact ⟨ranged.acc, ranged.bak, ranged.program⟩

/-- A word that is read is a literal, a register, zero, or has arrived at a port. -/
theorem take {operand : Operand} (literal : operand.InRange) {arrival : Option (Port × Word)}
    (arrived : ArrivalInRange arrival) {value : Word} {after : Core}
    (taken : core.take operand arrival = some (value, after)) :
    value.InRange ∧ after.InRange := by
  cases operand with
  | literal number =>
      cases taken
      exact ⟨literal, ranged⟩
  | target place =>
      cases place with
      | acc =>
          cases taken
          exact ⟨ranged.acc, ranged⟩
      | nil =>
          cases taken
          exact ⟨Word.zero_inRange, ranged⟩
      | port side =>
          obtain ⟨⟨port, word⟩, found, same⟩ := Option.map_eq_some_iff.1 taken
          cases same
          exact ⟨arrived _ _ found, ranged⟩
      | any =>
          obtain ⟨⟨port, word⟩, found, same⟩ := Option.map_eq_some_iff.1 taken
          cases same
          exact ⟨arrived _ _ found, ranged.acc, ranged.bak, ranged.program⟩
      | last =>
          cases last : core.registers.last with
          | none =>
              simp only [Core.take, last, Option.some.injEq, Prod.mk.injEq] at taken
              obtain ⟨rfl, rfl⟩ := taken
              exact ⟨Word.zero_inRange, ranged⟩
          | some port =>
              simp only [Core.take, last] at taken
              obtain ⟨⟨port, word⟩, found, same⟩ := Option.map_eq_some_iff.1 taken
              cases same
              exact ⟨arrived _ _ found, ranged⟩

/-- An instruction that is given a word in range keeps the core in range. -/
theorem perform {value : Word} (input : value.InRange) (instruction : Instruction) :
    (core.perform value instruction).InRange := by
  cases instruction with
  | binary op operand => exact ranged.advance (Word.saturate_inRange _) ranged.bak
  | complement => exact ranged.advance (Word.saturate_inRange _) ranged.bak
  | negate => exact ranged.advance (Word.saturate_inRange _) ranged.bak
  | save => exact ranged.advance ranged.acc ranged.acc
  | swap => exact ranged.advance ranged.bak ranged.acc
  | move source destination =>
      cases destination with
      | acc => exact ranged.advance input ranged.bak
      | nil | port side | any | last => exact ranged.jump _
  | jump condition index =>
      change (if condition.holds core.registers.acc then _ else _ : Core).InRange
      split
      next => exact ranged.jump index
      next => exact ranged.jump _
  | jumpRelative offset => exact ranged.jumpBy value

end Core.InRange

/-- A write that goes out carries the input of its instruction as it is. -/
theorem Core.outgoing?_value {core : Core} {value : Word} {instruction : Instruction}
    {write : PendingWrite} (out : core.outgoing? value instruction = some write) :
    write.value = value := by
  cases instruction with
  | binary op operand => cases out
  | complement | negate | save | swap => cases out
  | jump condition index => cases out
  | jumpRelative offset => cases out
  | move source destination =>
      cases destination with
      | acc | nil => cases out
      | port side | any =>
          cases out
          rfl
      | last =>
          obtain ⟨port, -, rfl⟩ := Option.map_eq_some_iff.1 out
          rfl

namespace Node

/-- All words of a node lie in the register range: its registers, the literals of its program and
the word that it waits to write. -/
structure InRange (node : Node) : Prop where
  core : node.core.InRange
  pending : ∀ write, node.activity = .waitingWrite write → write.value.InRange

theorem inRange_new : new.InRange :=
  ⟨.initial Program.inRange_empty [], nofun⟩

namespace InRange

/-- A core in range makes a node in range that waits for no write. -/
theorem of_core {core : Core} (ranged : core.InRange) {activity : Activity}
    (free : activity.status ≠ .waitingWrite) (enabled : Bool) :
    Node.InRange ⟨core, activity, enabled⟩ :=
  ⟨ranged, fun _ waits => absurd (congrArg Activity.status waits) free⟩

variable {node : Node} (ranged : node.InRange)
include ranged

theorem wake : node.wake.InRange := by
  unfold Node.wake
  split
  next => exact of_core ranged.core (by decide) _
  next => exact ranged

theorem setEnabled (enabled : Bool) : (node.setEnabled enabled).InRange :=
  wake ⟨ranged.core, ranged.pending⟩

theorem reset : node.reset.InRange :=
  wake (of_core (.initial ranged.core.program _) (by decide) _)

/-- A node that has its input begins a write of just this word or goes on. -/
theorem resolve {value : Word} (input : value.InRange) (instruction : Instruction) :
    (node.resolve instruction value).InRange := by
  unfold Node.resolve
  cases out : node.core.outgoing? value instruction with
  | none => exact of_core (ranged.core.perform input instruction) (by decide) _
  | some write =>
      refine ⟨ranged.core, fun waiting same => ?_⟩
      cases same
      rw [Core.outgoing?_value out]
      exact input

theorem complete (write : PendingWrite) (port : Port) : (node.complete write port).InRange := by
  refine of_core (Core.InRange.jump ?_ _) (by decide) _
  split
  next => exact ⟨ranged.core.acc, ranged.core.bak, ranged.core.program⟩
  next => exact ranged.core

/-- A step keeps the node in range if what it finds at its ports is in range. -/
theorem next {arrival : Option (Port × Word)} (arrived : ArrivalInRange arrival)
    (delivery : Option Port) : (node.next arrival delivery).InRange := by
  obtain ⟨core, activity, enabled⟩ := node
  cases enabled with
  | false => exact ranged
  | true =>
      cases activity with
      | idle => exact ranged
      | waitingWrite write =>
          cases delivery with
          | none => exact ranged
          | some port => exact ranged.complete write port
      | running | waitingRead =>
          simp only [Node.next, if_true]
          cases fetched : core.instruction? with
          | none => exact of_core ranged.core (by decide) _
          | some instruction =>
              have literal : instruction.input.InRange :=
                ranged.core.program.of_instruction? fetched
              dsimp only
              cases taken : core.take instruction.input arrival with
              | none => exact of_core ranged.core (by decide) _
              | some result =>
                  obtain ⟨input, kept⟩ := ranged.core.take literal arrived taken
                  exact resolve (of_core kept (by decide) _) input instruction

end InRange

/-- Compiling leaves a node in range, whatever it was before. -/
theorem inRange_compile (node : Node) (capacity limits : Extent) (source : List (List Char)) :
    (node.compile capacity limits source).2.InRange := by
  simp only [Node.compile, Core.compile]
  cases compiled : (Assembly.compile capacity limits source).outcome with
  | ok program =>
      exact InRange.wake (.of_core (.initial (Program.inRange_of_compile compiled) _) (by decide) _)
  | error error => exact InRange.wake (.of_core (.initial Program.inRange_empty _) (by decide) _)

end Node

end NodeGrid
