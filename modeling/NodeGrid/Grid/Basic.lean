import NodeGrid.Fabric.Topology
import NodeGrid.Fabric.Tick
import NodeGrid.Settings

/-!
# Grids

A grid drives a fabric in lock step while it is running.  Every operation gives its result together
with the grid afterwards; an operation that is refused leaves the grid as it was, except that a
program that does not compile still takes the old program away.
-/

namespace NodeGrid

open Assembly

/-- Whether a grid ticks. -/
inductive Power where
  | stopped
  | running
  deriving DecidableEq, Repr

/-- A fabric with its settings, its power, and the number of ticks so far.

The number has no bound, so it tells all ticks of a grid apart.  A counter of 64 bits that stays at
its greatest value shows the same for more ticks than any grid will ever run. -/
structure Grid where
  settings : Settings
  fabric : Fabric
  power : Power
  ticks : Nat
  deriving Repr

namespace Grid

/-- A stopped grid without modules.  Settings beyond the capacity of a node are refused. -/
def new (settings : Settings) : Except SettingsError Grid := do
  settings.validate
  pure ⟨settings, .empty, .stopped, 0⟩

/-- Let the grid tick. -/
def start (grid : Grid) : Grid :=
  { grid with power := .running }

/-- Stop the grid from ticking. -/
def stop (grid : Grid) : Grid :=
  { grid with power := .stopped }

/-- Add an enabled node without a program. -/
def addNode (grid : Grid) : Except GridError Handle × Grid :=
  if grid.settings.maxNodes ≤ grid.fabric.nodeCount then
    (.error (.tooManyNodes grid.settings.maxNodes), grid)
  else
    let node := Node.new.setEnabled true
    let (handle, modules) := grid.fabric.modules.insert (.unlinked (.node node))
    (.ok handle, { grid with fabric.modules := modules })

/-- Remove a node with its links and the forwarder pairs in front of it. -/
def removeNode (grid : Grid) (handle : Handle) : Except GridError Unit × Grid :=
  match grid.fabric.node handle with
  | .error error => (.error error, grid)
  | .ok _ => (.ok (), { grid with fabric := grid.fabric.removeNode handle })

/-- Link two ports of nodes directly. -/
def link (grid : Grid) (first : Handle) (firstPort : Port) (second : Handle)
    (secondPort : Port) : Except GridError Unit × Grid :=
  match grid.fabric.checkEnds first firstPort second secondPort with
  | .error error => (.error error, grid)
  | .ok () =>
      (.ok (), { grid with fabric := grid.fabric.connect first firstPort second secondPort })

/-- Undo the link or the forwarder pair at a port. -/
def unlink (grid : Grid) (handle : Handle) (port : Port) : Except GridError Unit × Grid :=
  match grid.fabric.module handle with
  | .error error => (.error error, grid)
  | .ok member =>
      if (member.ports.get port).isNone then (.error (.portUnlinked handle port), grid)
      else (.ok (), { grid with fabric := grid.fabric.unlinkPort handle port })

/-- Join two ports of nodes by a forwarder pair, and give the halves. -/
def join (grid : Grid) (first : Handle) (firstPort : Port) (second : Handle)
    (secondPort : Port) : Except GridError (Handle × Handle) × Grid :=
  match grid.fabric.checkEnds first firstPort second secondPort with
  | .error error => (.error error, grid)
  | .ok () =>
      let (halves, fabric) := grid.fabric.joinPorts first firstPort second secondPort
      (.ok halves, { grid with fabric })

/-- Remove the forwarder pair of a half. -/
def split (grid : Grid) (handle : Handle) : Except GridError Unit × Grid :=
  match grid.fabric.forwarder handle with
  | .error error => (.error error, grid)
  | .ok _ => (.ok (), { grid with fabric := grid.fabric.splitPair handle })

/-- Replace a node, after emptying the pipes that it writes to. -/
def restartNode (grid : Grid) (handle : Handle) (node : Node) : Grid :=
  let links := (grid.fabric.modules.get? handle).elim [] (·.ports.links)
  let pipes := grid.fabric.pipes.resetAll links
  { grid with fabric := { grid.fabric with pipes }.setRole handle (.node node) }

/-- Compile a program into a node.  What the node has written and nobody has claimed is lost, also
if compiling fails. -/
def compile (grid : Grid) (handle : Handle) (source : List (List Char)) :
    Except GridError Unit × Grid :=
  match grid.fabric.node handle with
  | .error error => (.error error, grid)
  | .ok node =>
      let (result, compiled) := node.compile nodeCapacity grid.settings.limits source
      (result.mapError .compile, grid.restartNode handle compiled)

/-- Start a node again at its first instruction, with initial registers. -/
def resetNode (grid : Grid) (handle : Handle) : Except GridError Unit × Grid :=
  match grid.fabric.node handle with
  | .error error => (.error error, grid)
  | .ok node => (.ok (), grid.restartNode handle node.reset)

/-- Allow a node to act, or forbid it. -/
def setEnabled (grid : Grid) (handle : Handle) (enabled : Bool) :
    Except GridError Unit × Grid :=
  match grid.fabric.node handle with
  | .error error => (.error error, grid)
  | .ok node =>
      let role := Role.node (node.setEnabled enabled)
      (.ok (), { grid with fabric := grid.fabric.setRole handle role })

/-- Run one tick, if the grid is running. -/
def step (grid : Grid) : Grid :=
  match grid.power with
  | .stopped => grid
  | .running => { grid with fabric := grid.fabric.tick, ticks := grid.ticks + 1 }

/-- The sibling of a forwarder. -/
def sibling (grid : Grid) (handle : Handle) : Except GridError (Option Handle) := do
  let half ← grid.fabric.forwarder handle
  pure half.sibling

/-- What a debugger shows of each node, in the order of their slots. -/
def debugViews (grid : Grid) : List (Handle × DebugView) :=
  grid.fabric.nodes.map fun (handle, node) => (handle, node.debugView)

end Grid

end NodeGrid
