import NodeGrid.Proofs.Node.Transition

/-!
# Nodes as records of independent fields

A node that waits for a write carries the write with it, so the type leaves no room for a node that
waits for nothing.  A debugger sees a status and, beside it, a pending write that may be there or
not.  This module keeps the two in fields of their own, where they could disagree, says what a step
does then, and shows that the records that come about are exactly those of nodes.
-/

namespace NodeGrid

open Assembly

variable {σ : Type} [Bus σ]

/-- A node whose status and pending write do not depend on each other. -/
structure NodeRecord where
  core : Core
  status : Status
  pending? : Option PendingWrite
  enabled : Bool
  deriving DecidableEq, Repr

namespace NodeRecord

/-- The record of a node without a program, not enabled. -/
def new : NodeRecord :=
  ⟨.empty, .idle, none, false⟩

/-- Start to run when idle, enabled and with a program. -/
def wake (record : NodeRecord) : NodeRecord :=
  if record.enabled && record.status = .idle && !record.core.program.isEmpty then
    { record with status := .running }
  else record

/-- Change whether the node may act. -/
def setEnabled (record : NodeRecord) (enabled : Bool) : NodeRecord :=
  { record with enabled }.wake

/-- Start again with initial registers and without a pending write. -/
def reset (record : NodeRecord) : NodeRecord :=
  { record with core := record.core.resetRegisters, status := .idle, pending? := none }.wake

/-- Replace the program and drop the pending write. -/
def compile (record : NodeRecord) (capacity limits : Extent) (source : List (List Char)) :
    NodeRecord :=
  { record with
    core := (record.core.compile capacity limits source).2
    status := .idle
    pending? := none }.wake

/-- Run an instruction that has its input. -/
def finish (record : NodeRecord) (bus : σ) (instruction : Instruction) (value : Word) :
    NodeRecord × σ :=
  match record.core.outgoing? value instruction with
  | some write =>
      ({ record with status := .waitingWrite, pending? := some write }, record.core.offer bus write)
  | none => ({ record with core := record.core.perform value instruction, status := .running }, bus)

/-- Run the current instruction; without one the node falls idle. -/
def execute (record : NodeRecord) (bus : σ) : NodeRecord × σ :=
  match record.core.instruction? with
  | none => ({ record with status := .idle }, bus)
  | some instruction =>
      match record.core.read bus instruction.input with
      | (none, after) => ({ record with status := .waitingRead }, after)
      | (some (value, core), after) => { record with core }.finish after instruction value

/-- Go on after a claimed write; a node that waits for no write goes on where it is. -/
def completeWrite (record : NodeRecord) (bus : σ) : NodeRecord × σ :=
  match record.pending? with
  | none => ({ record with status := .running }, bus)
  | some write =>
      match Bus.pollDelivered bus with
      | (some port, after) =>
          let core :=
            if write.target = .any then { record.core with registers.last := some port }
            else record.core
          ({ record with core := core.advance, status := .running, pending? := none }, after)
      | (none, after) => (record, record.core.offer after write)

/-- One step, chosen by the status alone. -/
def step (record : NodeRecord) (bus : σ) : NodeRecord × σ :=
  if record.enabled then
    match record.status with
    | .idle => (record, bus)
    | .waitingWrite => record.completeWrite bus
    | .running | .waitingRead => record.execute bus
  else (record, bus)

end NodeRecord

namespace Node

/-- What can be asked of a node.  Every step may meet another bus. -/
inductive Call : Type 1 where
  | compile (capacity limits : Extent) (source : List (List Char))
  | setEnabled (enabled : Bool)
  | reset
  | setAcc (value : Word)
  | setBak (value : Word)
  | step {σ : Type} [Bus σ] (bus : σ)

/-- The node after a call. -/
def call (node : Node) : Call → Node
  | .compile capacity limits source => (node.compile capacity limits source).2
  | .setEnabled enabled => node.setEnabled enabled
  | .reset => node.reset
  | .setAcc value => { node with core := node.core.setAcc value }
  | .setBak value => { node with core := node.core.setBak value }
  | @Call.step _ _ bus => (node.step bus).1

/-- The node after some calls of a new one. -/
def run (calls : List Call) : Node :=
  calls.foldl call .new

/-- The record of a node: its status is the kind of its activity. -/
def record (node : Node) : NodeRecord :=
  ⟨node.core, node.activity.status, node.pending?, node.enabled⟩

end Node

namespace NodeRecord

/-- The record after a call. -/
def call (record : NodeRecord) : Node.Call → NodeRecord
  | .compile capacity limits source => record.compile capacity limits source
  | .setEnabled enabled => record.setEnabled enabled
  | .reset => record.reset
  | .setAcc value => { record with core := record.core.setAcc value }
  | .setBak value => { record with core := record.core.setBak value }
  | @Node.Call.step _ _ bus => (record.step bus).1

/-- The record after some calls of a new node. -/
def run (calls : List Node.Call) : NodeRecord :=
  calls.foldl call .new

end NodeRecord

namespace Node

@[simp] theorem record_idle (core : Core) (enabled : Bool) :
    (⟨core, .idle, enabled⟩ : Node).record = ⟨core, .idle, none, enabled⟩ := rfl

@[simp] theorem record_running (core : Core) (enabled : Bool) :
    (⟨core, .running, enabled⟩ : Node).record = ⟨core, .running, none, enabled⟩ := rfl

@[simp] theorem record_waitingRead (core : Core) (enabled : Bool) :
    (⟨core, .waitingRead, enabled⟩ : Node).record = ⟨core, .waitingRead, none, enabled⟩ := rfl

@[simp] theorem record_waitingWrite (core : Core) (write : PendingWrite) (enabled : Bool) :
    (⟨core, .waitingWrite write, enabled⟩ : Node).record =
      ⟨core, .waitingWrite, some write, enabled⟩ := rfl

theorem record_wake (node : Node) : node.wake.record = node.record.wake := by
  obtain ⟨core, activity, enabled⟩ := node
  cases activity with
  | idle =>
      simp only [wake, NodeRecord.wake, record_idle, decide_true, Bool.and_true]
      split <;> rfl
  | running | waitingRead | waitingWrite write => simp [wake, NodeRecord.wake]

theorem record_finish (node : Node) (bus : σ) (instruction : Instruction) (value : Word)
    (free : node.pending? = none) :
    node.record.finish bus instruction value =
      ((node.finish bus instruction value).1.record, (node.finish bus instruction value).2) := by
  simp only [NodeRecord.finish, finish, record, free]
  cases node.core.outgoing? value instruction with
  | none => rfl
  | some write => rfl

theorem record_execute (node : Node) (bus : σ) (free : node.pending? = none) :
    node.record.execute bus = ((node.execute bus).1.record, (node.execute bus).2) := by
  have fields : node.record = ⟨node.core, node.activity.status, none, node.enabled⟩ := by
    rw [record, free]
  rw [fields, NodeRecord.execute, execute]
  cases node.core.instruction? with
  | none => rfl
  | some instruction =>
      dsimp only
      obtain ⟨result, after⟩ := node.core.read bus instruction.input
      cases result with
      | none => rfl
      | some taken =>
          have finished :=
            record_finish { node with core := taken.2 } after instruction taken.1 free
          rw [record, show ({ node with core := taken.2 } : Node).pending? = none from free]
            at finished
          exact finished

theorem record_completeWrite (node : Node) (bus : σ) {write : PendingWrite}
    (waits : node.activity = .waitingWrite write) :
    node.record.completeWrite bus =
      ((node.completeWrite bus write).1.record, (node.completeWrite bus write).2) := by
  obtain ⟨core, activity, enabled⟩ := node
  cases waits
  simp only [NodeRecord.completeWrite, completeWrite, record_waitingWrite]
  obtain ⟨delivered, after⟩ := Bus.pollDelivered bus
  cases delivered with
  | none => rfl
  | some port => rfl

/-- The record of a node steps as the node does, on any bus. -/
theorem record_step (node : Node) (bus : σ) :
    node.record.step bus = ((node.step bus).1.record, (node.step bus).2) := by
  unfold NodeRecord.step step
  change (if node.enabled then _ else _) = _
  cases node.enabled with
  | false => rfl
  | true =>
      change (match node.activity.status with
        | .idle => _
        | .waitingWrite => _
        | .running | .waitingRead => _) = _
      cases activity : node.activity with
      | idle => rfl
      | waitingWrite write => exact record_completeWrite node bus activity
      | running | waitingRead => exact record_execute node bus (by simp [pending?, activity])

theorem record_call (node : Node) (asked : Call) :
    node.record.call asked = (node.call asked).record := by
  cases asked with
  | compile capacity limits source =>
      exact (record_wake ⟨(node.core.compile capacity limits source).2, .idle, node.enabled⟩).symm
  | setEnabled enabled => exact (record_wake { node with enabled }).symm
  | reset => exact (record_wake ⟨node.core.resetRegisters, .idle, node.enabled⟩).symm
  | setAcc value | setBak value => rfl
  | step bus => exact congrArg Prod.fst (record_step node bus)

/-- Kept apart, status and pending write never come to differ from what a node does. -/
theorem record_run (calls : List Call) : NodeRecord.run calls = (run calls).record := by
  have from_any : ∀ node : Node, calls.foldl NodeRecord.call node.record =
      (calls.foldl call node).record := by
    induction calls with
    | nil => exact fun _ => rfl
    | cons asked rest ih =>
        intro node
        rw [List.foldl_cons, List.foldl_cons, record_call]
        exact ih (node.call asked)
  exact from_any .new

end Node

end NodeGrid
