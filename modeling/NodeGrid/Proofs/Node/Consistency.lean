import NodeGrid.Proofs.Node.Record

/-!
# What a node does fits its program

The program, the program counter, the activity and the switch of a node are changed by different
calls.  The invariant ties them together: the counter names an instruction, a node that waits
stands at the instruction that made it wait, and an enabled node is idle only for want of a
program.  A core that has performed an instruction has its counter in the program whatever it was
before, so jumps and compiling need no bound of their own.  The main statement reads the invariant
off the record of a node, after any calls and on any buses.
-/

namespace NodeGrid

open Assembly

variable {σ : Type} [Bus σ]

namespace Core

/-- The counter names an instruction, or is zero when there is none. -/
def CountsWithin (core : Core) : Prop :=
  core.registers.pc < core.program.size ∨ core.program.size = 0 ∧ core.registers.pc = 0

/-- An access to this target goes through a port, so it may have to wait. -/
def Waits (core : Core) (target : Target) : Prop :=
  target.isPort ∧ (target = .last → core.registers.last.isSome)

/-- The current instruction writes to this target through a port. -/
def WritesTo (core : Core) (target : Target) : Prop :=
  (∃ source, core.instruction? = some (.move source target)) ∧ core.Waits target

/-- The current instruction takes its input from a port. -/
def ReadsPort (core : Core) : Prop :=
  ∃ instruction place, core.instruction? = some instruction ∧
    instruction.input = .target place ∧ core.Waits place

theorem countsWithin_jump (core : Core) (index : Nat) : (core.jump index).CountsWithin := by
  unfold jump CountsWithin
  by_cases inside : index < core.program.size
  · left
    simp [inside]
  · by_cases empty : core.program.size = 0
    · right
      simp [empty]
    · left
      simpa [inside] using Nat.pos_of_ne_zero empty

theorem countsWithin_jumpBy (core : Core) (offset : Word) : (core.jumpBy offset).CountsWithin := by
  unfold jumpBy CountsWithin
  by_cases empty : core.program.size = 0
  · right
    simp [empty]
  · left
    rw [if_neg empty]
    have positive : (0 : Int) < core.program.size := by omega
    have low := Int.emod_nonneg (core.registers.pc + offset.toInt) (Int.ne_of_gt positive)
    have high := Int.emod_lt_of_pos (core.registers.pc + offset.toInt) positive
    dsimp only
    omega

/-- Whatever is performed, the next counter is one of the program. -/
theorem countsWithin_perform (core : Core) (value : Word) (instruction : Instruction) :
    (core.perform value instruction).CountsWithin := by
  cases instruction with
  | binary op operand => exact countsWithin_jump _ _
  | complement | negate | save | swap => exact countsWithin_jump _ _
  | move source destination => cases destination <;> exact countsWithin_jump _ _
  | jump condition index =>
      change (if condition.holds core.registers.acc then _ else _ : Core).CountsWithin
      split
      · exact countsWithin_jump _ _
      · exact countsWithin_jump _ _
  | jumpRelative offset => exact countsWithin_jumpBy _ _

theorem instruction?_isSome_iff (core : Core) :
    core.instruction?.isSome ↔ core.registers.pc < core.program.size := by
  simp [instruction?, Program.instruction?, Program.size]

/-- A read that finds nothing is a read through a port. -/
theorem waits_of_take_none {core : Core} {operand : Operand} {arrival : Option (Port × Word)}
    (nothing : core.take operand arrival = none) :
    ∃ place, operand = .target place ∧ core.Waits place := by
  cases operand with
  | literal value => simp [take] at nothing
  | target place =>
      refine ⟨place, rfl, ?_⟩
      cases place with
      | acc | nil => simp [take] at nothing
      | port side | any => simp [Waits, Target.isPort]
      | last =>
          cases last : core.registers.last with
          | none => simp [take, last] at nothing
          | some port => simp [Waits, Target.isPort, last]

/-- A read leaves a core at the same instruction. -/
theorem take_eq_some {core after : Core} {operand : Operand} {arrival : Option (Port × Word)}
    {value : Word} (taken : core.take operand arrival = some (value, after)) :
    after.program = core.program ∧ after.registers.pc = core.registers.pc := by
  obtain ⟨last, same⟩ := exists_take_eq taken
  rw [same]
  exact ⟨rfl, rfl⟩

/-- A write goes out only to the destination of a move, and only through a port. -/
theorem outgoing?_eq_some {core : Core} {value : Word} {instruction : Instruction}
    {write : PendingWrite} (out : core.outgoing? value instruction = some write) :
    (∃ source, instruction = .move source write.target) ∧ core.Waits write.target := by
  cases instruction with
  | binary op operand => simp [outgoing?] at out
  | complement | negate | save | swap => simp [outgoing?] at out
  | jump condition index => simp [outgoing?] at out
  | jumpRelative offset => simp [outgoing?] at out
  | move source destination =>
      cases destination with
      | acc | nil => simp [outgoing?, Target.isPort] at out
      | port side =>
          simp only [outgoing?, Target.isPort, if_true, Option.some.injEq] at out
          subst out
          simp [Waits, Target.isPort]
      | any =>
          simp only [outgoing?, Target.isPort, if_true, Option.some.injEq] at out
          subst out
          simp [Waits, Target.isPort]
      | last =>
          obtain ⟨port, last, same⟩ := Option.map_eq_some_iff.1 out
          subst same
          simp [Waits, Target.isPort, last]

end Core

namespace Node

/-- What a node finds at its ports decides what a step makes of it, on every bus. -/
theorem step_fst (node : Node) (bus : σ) :
    ∃ arrival delivery, (node.step bus).1 = node.next arrival delivery := by
  refine ⟨(claimFirst bus node.polled).1, (Bus.pollDelivered bus).1, ?_⟩
  obtain ⟨core, activity, enabled⟩ := node
  cases enabled with
  | false => rfl
  | true =>
      cases activity with
      | idle => rfl
      | waitingWrite write =>
          simp only [step, next, if_true, completeWrite]
          obtain ⟨delivered, after⟩ := Bus.pollDelivered bus
          cases delivered with
          | none => rfl
          | some port => rfl
      | running | waitingRead =>
          simp only [step, next, polled, if_true, execute]
          cases core.instruction? with
          | none => rfl
          | some instruction =>
              simp only [Core.read_eq, Option.elim_some]
              cases core.take instruction.input
                  (claimFirst bus (core.polled instruction.input)).1 with
              | none => rfl
              | some taken =>
                  obtain ⟨value, core⟩ := taken
                  simp only [finish, resolve]
                  cases core.outgoing? value instruction with
                  | none => rfl
                  | some write => rfl

/-- A node does what its program and its switch allow at the current instruction. -/
def FitsProgram (node : Node) : Prop :=
  match node.activity with
  | .idle => node.enabled → node.core.program.isEmpty
  | .running => ¬ node.core.program.isEmpty
  | .waitingRead => node.core.ReadsPort
  | .waitingWrite write => node.core.WritesTo write.target

/-- The parts of a node fit each other. -/
structure Consistent (node : Node) : Prop where
  counter : node.core.CountsWithin
  activity : node.FitsProgram

/-- Waking settles what an idle node does; other nodes are left alone. -/
theorem consistent_wake {node : Node} (counter : node.core.CountsWithin)
    (busy : node.activity ≠ .idle → node.FitsProgram) : node.wake.Consistent := by
  unfold wake
  by_cases wakes :
      (node.enabled && decide (node.activity = .idle) && !node.core.program.isEmpty) = true
  · rw [if_pos wakes]
    simp only [Bool.and_eq_true, Bool.not_eq_true'] at wakes
    exact ⟨counter, by simp [FitsProgram, wakes.2]⟩
  · rw [if_neg wakes]
    refine ⟨counter, ?_⟩
    by_cases idle : node.activity = .idle
    · unfold FitsProgram
      rw [idle]
      intro enabled
      simpa [enabled, idle] using wakes
    · exact busy idle

end Node

theorem Core.countsWithin_of_initial {core : Core} (initial : core.registers.pc = 0) :
    core.CountsWithin := by
  unfold CountsWithin
  omega

namespace Node

/-- A node that begins afresh is consistent once it has had the chance to wake. -/
theorem consistent_restarted {core : Core} (initial : core.registers.pc = 0) (enabled : Bool) :
    (wake ⟨core, .idle, enabled⟩).Consistent :=
  consistent_wake (Core.countsWithin_of_initial initial) fun busy => (busy rfl).elim

theorem consistent_new : new.Consistent where
  counter := Core.countsWithin_of_initial rfl
  activity := fun enabled => Bool.noConfusion enabled

namespace Consistent

variable {node : Node}

theorem setEnabled (consistent : node.Consistent) (enabled : Bool) :
    (node.setEnabled enabled).Consistent := by
  refine consistent_wake consistent.counter fun busy => ?_
  have fits := consistent.activity
  unfold FitsProgram at fits ⊢
  cases activity : node.activity with
  | idle => exact (busy activity).elim
  | running | waitingRead | waitingWrite write => simpa [activity] using fits

/-- A core that differs in its accumulator and backup alone fits what the node does as well. -/
theorem of_same {core : Core} (consistent : node.Consistent)
    (program : core.program = node.core.program)
    (counter : core.registers.pc = node.core.registers.pc)
    (last : core.registers.last = node.core.registers.last) :
    Consistent { node with core } := by
  have fetched : core.instruction? = node.core.instruction? := by
    simp [Core.instruction?, program, counter]
  refine ⟨?_, ?_⟩
  · simpa [Core.CountsWithin, program, counter] using consistent.counter
  · have fits := consistent.activity
    unfold FitsProgram at fits ⊢
    cases activity : node.activity with
    | idle | running => simpa [activity, program] using fits
    | waitingRead | waitingWrite write =>
        simpa [activity, Core.ReadsPort, Core.WritesTo, Core.Waits, fetched, last] using fits

/-- Having its input, an instruction begins a write of its own or leads to the next one. -/
theorem resolve {instruction : Instruction} (fetched : node.core.instruction? = some instruction)
    (value : Word) : (node.resolve instruction value).Consistent := by
  have inside : node.core.registers.pc < node.core.program.size :=
    (Core.instruction?_isSome_iff _).1 (by simp [fetched])
  unfold Node.resolve
  cases out : node.core.outgoing? value instruction with
  | some write =>
      obtain ⟨⟨source, moved⟩, waits⟩ := Core.outgoing?_eq_some out
      exact ⟨.inl inside, ⟨⟨source, by rw [fetched, moved]⟩, waits⟩⟩
  | none =>
      refine ⟨Core.countsWithin_perform _ _ _, ?_⟩
      have filled : 0 < node.core.program.code.length := Nat.zero_lt_of_lt inside
      simpa [FitsProgram, Program.isEmpty] using List.ne_nil_of_length_pos filled

/-- A claimed write leads to the next instruction. -/
theorem complete {write : PendingWrite} (writes : node.core.WritesTo write.target) (port : Port) :
    (node.complete write port).Consistent := by
  obtain ⟨⟨source, fetched⟩, -⟩ := writes
  have inside : node.core.registers.pc < node.core.program.size :=
    (Core.instruction?_isSome_iff _).1 (by simp [fetched])
  have filled : 0 < node.core.program.code.length := Nat.zero_lt_of_lt inside
  have program : (node.complete write port).core.program = node.core.program := by
    change (if write.target = .any then _ else _ : Core).program = _
    split <;> rfl
  refine ⟨Core.countsWithin_jump _ _, ?_⟩
  change ¬ (node.complete write port).core.program.isEmpty
  simpa [program, Program.isEmpty] using List.ne_nil_of_length_pos filled

/-- A node that looks for an instruction finds one. -/
theorem exists_instruction (consistent : node.Consistent)
    (active : node.activity = .running ∨ node.activity = .waitingRead) :
    ∃ instruction, node.core.instruction? = some instruction := by
  have fits := consistent.activity
  unfold FitsProgram at fits
  rcases active with running | waits
  · rw [running] at fits
    refine Option.isSome_iff_exists.1 ((Core.instruction?_isSome_iff _).2 ?_)
    rcases consistent.counter with inside | ⟨empty, -⟩
    · exact inside
    · exact (fits (List.isEmpty_iff_length_eq_zero.2 empty)).elim
  · rw [waits] at fits
    obtain ⟨instruction, -, fetched, -⟩ := fits
    exact ⟨instruction, fetched⟩

/-- An instruction that asks for its input gets it, or the node stays to wait for it. -/
theorem fetch (consistent : node.Consistent) {instruction : Instruction}
    (fetched : node.core.instruction? = some instruction) (arrival : Option (Port × Word)) :
    Consistent (match node.core.take instruction.input arrival with
      | none => { node with activity := .waitingRead }
      | some (value, core) => { node with core }.resolve instruction value) := by
  cases taken : node.core.take instruction.input arrival with
  | none =>
      obtain ⟨place, reads, waits⟩ := Core.waits_of_take_none taken
      exact ⟨consistent.counter, instruction, place, fetched, reads, waits⟩
  | some result =>
      obtain ⟨program, counter⟩ := Core.take_eq_some taken
      exact resolve (by simpa [Core.instruction?, program, counter] using fetched) result.1

/-- Whatever a node finds at its ports, a step keeps its parts fitting. -/
theorem next (consistent : node.Consistent) (arrival : Option (Port × Word))
    (delivery : Option Port) : (node.next arrival delivery).Consistent := by
  obtain ⟨core, activity, enabled⟩ := node
  cases enabled with
  | false => exact consistent
  | true =>
      cases activity with
      | idle => exact consistent
      | waitingWrite write =>
          cases delivery with
          | none => exact consistent
          | some port => exact complete consistent.activity port
      | running =>
          obtain ⟨instruction, fetched⟩ := consistent.exists_instruction (.inl rfl)
          simp only [Node.next, if_true, show core.instruction? = some instruction from fetched]
          exact consistent.fetch fetched arrival
      | waitingRead =>
          obtain ⟨instruction, fetched⟩ := consistent.exists_instruction (.inr rfl)
          simp only [Node.next, if_true, show core.instruction? = some instruction from fetched]
          exact consistent.fetch fetched arrival

/-- No call takes the parts of a node apart. -/
theorem call (consistent : node.Consistent) (asked : Call) : (node.call asked).Consistent := by
  cases asked with
  | compile capacity limits source =>
      refine consistent_restarted ?_ node.enabled
      change (Core.compile node.core capacity limits source).2.registers.pc = 0
      unfold Core.compile
      dsimp only
      split <;> rfl
  | setEnabled enabled => exact consistent.setEnabled enabled
  | reset => exact consistent_restarted rfl node.enabled
  | setAcc value | setBak value => exact consistent.of_same rfl rfl rfl
  | step bus =>
      obtain ⟨arrival, delivery, found⟩ := node.step_fst bus
      rw [Node.call, found]
      exact consistent.next arrival delivery

end Consistent

/-- A new node is consistent after any calls. -/
theorem consistent_run (calls : List Call) : (run calls).Consistent := by
  have from_any : ∀ node : Node, node.Consistent → (calls.foldl call node).Consistent := by
    induction calls with
    | nil => exact fun _ consistent => consistent
    | cons asked rest ih => exact fun node consistent => ih _ (consistent.call asked)
  exact from_any .new consistent_new

end Node

/-- Status, pending write, program counter and program of a record fit each other. -/
structure NodeRecord.Fits (record : NodeRecord) : Prop where
  /-- Without a program the counter is zero. -/
  counter_zero : record.core.program.isEmpty → record.core.registers.pc = 0
  /-- With a program the counter names one of its instructions. -/
  counter_lt : ¬ record.core.program.isEmpty →
    record.core.registers.pc < record.core.program.size
  /-- A write is pending exactly while the node waits for one. -/
  pending_iff : record.pending?.isSome ↔ record.status = .waitingWrite
  /-- The instruction at the counter moves to the target of the pending write, through a port. -/
  pending_moves : ∀ write, record.pending? = some write →
    (∃ source, record.core.instruction? = some (.move source write.target)) ∧
      write.target.isPort ∧ (write.target = .last → record.core.registers.last.isSome)
  /-- A node that waits for a word stands at an instruction that reads a port. -/
  reading : record.status = .waitingRead →
    ∃ instruction place, record.core.instruction? = some instruction ∧
      instruction.input = .target place ∧ place.isPort ∧
      (place = .last → record.core.registers.last.isSome)
  /-- Without a program there is nothing to do. -/
  idle_of_empty : record.core.program.isEmpty → record.status = .idle
  /-- An enabled node with a program is at work. -/
  not_idle : record.enabled → ¬ record.core.program.isEmpty → record.status ≠ .idle
  /-- A step that looks for an instruction finds one. -/
  fetches : record.status = .running ∨ record.status = .waitingRead →
    ∃ instruction, record.core.instruction? = some instruction

namespace Node.Consistent

variable {node : Node}

theorem status_eq_idle (consistent : node.Consistent) (empty : node.core.program.isEmpty) :
    node.activity = .idle := by
  have none_fetched : node.core.instruction? = none := by
    simp [Core.instruction?, Program.instruction?, List.isEmpty_iff.1 empty]
  have fits := consistent.activity
  unfold FitsProgram at fits
  cases activity : node.activity with
  | idle => rfl
  | running => exact absurd empty (by simpa [activity] using fits)
  | waitingRead =>
      rw [activity] at fits
      obtain ⟨instruction, place, fetched, -⟩ := fits
      simp [none_fetched] at fetched
  | waitingWrite write =>
      rw [activity] at fits
      obtain ⟨⟨source, fetched⟩, -⟩ := fits
      simp [none_fetched] at fetched

/-- The record of a consistent node has parts that fit. -/
theorem fits_record (consistent : node.Consistent) : node.record.Fits where
  counter_zero := by
    intro empty
    rcases consistent.counter with inside | ⟨-, zero⟩
    · have no_code : node.core.program.code = [] := List.isEmpty_iff.1 empty
      exact absurd inside (by simp [Program.size, no_code])
    · exact zero
  counter_lt := by
    intro filled
    rcases consistent.counter with inside | ⟨empty, -⟩
    · exact inside
    · exact (filled (List.isEmpty_iff_length_eq_zero.2 empty)).elim
  pending_iff := by
    obtain ⟨core, activity, enabled⟩ := node
    cases activity <;> simp
  pending_moves := by
    intro write pending
    have fits := consistent.activity
    unfold FitsProgram at fits
    rw [pending?_eq_some_iff.1 pending] at fits
    exact fits
  reading := by
    intro reads
    have fits := consistent.activity
    obtain ⟨core, activity, enabled⟩ := node
    cases activity with
    | waitingRead => exact fits
    | idle | running | waitingWrite write => cases reads
  idle_of_empty := by
    intro empty
    rw [record, consistent.status_eq_idle empty, Activity.status]
  not_idle := by
    intro enabled filled idle
    have fits := consistent.activity
    obtain ⟨core, activity, enabled⟩ := node
    cases activity with
    | idle => exact filled (fits enabled)
    | running | waitingRead | waitingWrite write => cases idle
  fetches := by
    intro active
    refine consistent.exists_instruction ?_
    obtain ⟨core, activity, enabled⟩ := node
    cases activity with
    | running => exact .inl rfl
    | waitingRead => exact .inr rfl
    | idle | waitingWrite write => simp at active

end Node.Consistent

/-- After any calls of a new node, on any buses, a node whose status and pending write are kept
apart is the record of the node that keeps them together, and its parts fit each other. -/
theorem NodeRecord.run_fits (calls : List Node.Call) :
    NodeRecord.run calls = (Node.run calls).record ∧ (NodeRecord.run calls).Fits := by
  have same := Node.record_run calls
  refine ⟨same, ?_⟩
  rw [same]
  exact (Node.consistent_run calls).fits_record

end NodeGrid
