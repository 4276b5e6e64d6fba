import NodeGrid.Node.Core
import NodeGrid.Node.Bus

/-!
# Nodes

A node runs its program one instruction per step.  A read that finds nothing leaves the node where
it is, and the next step tries again.  A write through a port keeps the node at its instruction
until the other side has claimed the word.
-/

namespace NodeGrid

open Assembly

/-- A word on its way out and the target that it was written to. -/
structure PendingWrite where
  value : Word
  target : Target
  deriving DecidableEq, Repr

/-- What a node is doing.  A node that waits for a write knows which. -/
inductive Activity where
  /-- There is no program, or the node has not been enabled yet. -/
  | idle
  | running
  | waitingRead
  | waitingWrite (write : PendingWrite)
  deriving DecidableEq, Repr

/-- The kind of an activity. -/
inductive Status where
  | idle
  | running
  | waitingRead
  | waitingWrite
  deriving DecidableEq, Repr

/-- The kind of an activity, without the pending write. -/
def Activity.status : Activity → Status
  | .idle => .idle
  | .running => .running
  | .waitingRead => .waitingRead
  | .waitingWrite _ => .waitingWrite

/-- What a debugger shows of a node. -/
structure DebugView where
  currentLine : Option Nat
  pc : Nat
  status : Status
  acc : Word
  bak : Word
  last : Option Port
  deriving DecidableEq, Repr

/-- A core, what it is doing, and whether it may act at all. -/
structure Node where
  core : Core
  activity : Activity
  enabled : Bool
  deriving DecidableEq, Repr

namespace Node

/-- A node without a program, not enabled. -/
def new : Node :=
  ⟨.empty, .idle, false⟩

/-- An idle node starts to run once it is enabled and has a program. -/
def wake (node : Node) : Node :=
  if node.enabled && node.activity = .idle && !node.core.program.isEmpty then
    { node with activity := .running }
  else node

/-- A disabled node keeps its state and does nothing. -/
def setEnabled (node : Node) (enabled : Bool) : Node :=
  { node with enabled }.wake

/-- Start again at the first instruction with initial registers. -/
def reset (node : Node) : Node :=
  { node with core := node.core.resetRegisters, activity := .idle }.wake

/-- Replace the program.  The node starts afresh whether or not compiling succeeds. -/
def compile (node : Node) (capacity limits : Extent) (source : List (List Char)) :
    Except CompileError Unit × Node :=
  let (result, core) := node.core.compile capacity limits source
  (result, { node with core, activity := .idle }.wake)

/-- The state of a node as a debugger shows it. -/
def debugView (node : Node) : DebugView :=
  { currentLine := node.core.line?
    pc := node.core.registers.pc
    status := node.activity.status
    acc := node.core.registers.acc
    bak := node.core.registers.bak
    last := node.core.registers.last }

end Node

end NodeGrid
