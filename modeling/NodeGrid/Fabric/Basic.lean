import NodeGrid.Node.Step
import NodeGrid.Fabric.Forwarder

/-!
# The fabric of a grid

The fabric is everything that is linked: the nodes and forwarders with their ports, and the pipes
between them.
-/

namespace NodeGrid

open Assembly

/-- What a module does. -/
inductive Role where
  | node (node : Node)
  | forwarder (half : Forwarder)
  deriving DecidableEq, Repr

/-- A member of the fabric: its links and what it does. -/
structure Module where
  ports : Ports
  role : Role
  deriving DecidableEq, Repr

namespace Module

/-- A module without links. -/
def unlinked (role : Role) : Module :=
  ⟨.unlinked, role⟩

/-- The module runs a program. -/
def isNode (member : Module) : Bool :=
  match member.role with
  | .node _ => true
  | .forwarder _ => false

/-- The link at the first linked port. -/
def firstLink? (member : Module) : Option Link :=
  member.ports.links.head?

end Module

/-- Why an operation on a grid is refused. -/
inductive GridError where
  | unknownModule (handle : Handle)
  | notNode (handle : Handle)
  | notForwarder (handle : Handle)
  | portInUse (handle : Handle) (port : Port)
  | portUnlinked (handle : Handle) (port : Port)
  | tooManyNodes (limit : Nat)
  | compile (error : CompileError)
  deriving DecidableEq, Repr

/-- A refusal in words. -/
def GridError.message : GridError → String
  | .unknownModule handle => s!"no module {handle.text}"
  | .notNode handle => s!"module {handle.text} is not an execution node"
  | .notForwarder handle => s!"module {handle.text} is not a forwarder"
  | .portInUse handle port => s!"port {port.name} of module {handle.text} is already linked"
  | .portUnlinked handle port => s!"port {port.name} of module {handle.text} is not linked"
  | .tooManyNodes limit => s!"controller already drives {limit} nodes"
  | .compile error => error.message

/-- The modules and the pipes between them. -/
structure Fabric where
  modules : Arena Module
  pipes : PipeTable
  deriving Repr

namespace Fabric

/-- The fabric without modules. -/
def empty : Fabric :=
  ⟨.empty, .empty⟩

/-- The module under a handle. -/
def module (fabric : Fabric) (handle : Handle) : Except GridError Module :=
  match fabric.modules.get? handle with
  | some member => .ok member
  | none => .error (.unknownModule handle)

/-- The node under a handle. -/
def node (fabric : Fabric) (handle : Handle) : Except GridError Node := do
  match (← fabric.module handle).role with
  | .node node => pure node
  | .forwarder _ => throw (.notNode handle)

/-- The forwarder under a handle. -/
def forwarder (fabric : Fabric) (handle : Handle) : Except GridError Forwarder := do
  match (← fabric.module handle).role with
  | .node _ => throw (.notForwarder handle)
  | .forwarder half => pure half

/-- The handle belongs to a forwarder. -/
def isForwarder (fabric : Fabric) (handle : Handle) : Bool :=
  match fabric.modules.get? handle with
  | some member => !member.isNode
  | none => false

/-- The link at a port. -/
def link? (fabric : Fabric) (handle : Handle) (port : Port) : Option Link :=
  (fabric.modules.get? handle).bind (·.ports.get port)

/-- The module on the other end of the link at a port. -/
def peer? (fabric : Fabric) (handle : Handle) (port : Port) : Option Handle :=
  (fabric.link? handle port).map (·.peer)

/-- Change what a module does. -/
def setRole (fabric : Fabric) (handle : Handle) (role : Role) : Fabric :=
  { fabric with modules := fabric.modules.modify handle ({ · with role }) }

/-- Change the link at a port. -/
def setLink (fabric : Fabric) (handle : Handle) (port : Port) (link : Option Link) : Fabric :=
  { fabric with
    modules := fabric.modules.modify handle fun member =>
      { member with ports := member.ports.set port link } }

/-- The nodes in the order of their slots. -/
def nodes (fabric : Fabric) : List (Handle × Node) :=
  fabric.modules.entries.filterMap fun (handle, member) =>
    match member.role with
    | .node node => some (handle, node)
    | .forwarder _ => none

/-- Number of nodes. -/
def nodeCount (fabric : Fabric) : Nat :=
  fabric.nodes.length

end Fabric

end NodeGrid
