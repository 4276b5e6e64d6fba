import NodeGrid.Fabric.Basic

/-!
# One tick of a fabric

A tick lets every module act once, in the order of the slots, and then commits all pipes.  What a
module offers in the first phase can be claimed only in a later tick, so among nodes the order does
not matter, except where several readers want one shared word: there the first one gets it.  The two
halves of a forwarder pair may pass on a word a tick earlier or later, depending on their order.
-/

namespace NodeGrid.Fabric

/-- The link of a forwarder to the node in front of it. -/
def forwarderLink? (fabric : Fabric) (handle : Handle) : Option Link :=
  match fabric.modules.get? handle with
  | some member => if member.isNode then none else member.firstLink?
  | none => none

/-- Let a node act on the pipes of its ports. -/
def stepNode (fabric : Fabric) (handle : Handle) (ports : Ports) (node : Node) : Fabric :=
  let (stepped, bus) := node.step (⟨ports, fabric.pipes⟩ : PortBus)
  { fabric with pipes := bus.pipes }.setRole handle (.node stepped)

/-- Let a forwarder act.  If its sibling is gone, it forgets it. -/
def stepForwarder (fabric : Fabric) (handle : Handle) (own : Link) (half : Forwarder) : Fabric :=
  let onward := half.sibling.bind fabric.forwarderLink?
  let relayed := { fabric with pipes := (Forwarder.relay fabric.pipes own onward).2 }
  if half.sibling.isSome && onward.isNone then
    relayed.setRole handle (.forwarder half.detach)
  else relayed

/-- Let one module act. -/
def stepModule (fabric : Fabric) (handle : Handle) : Fabric :=
  match fabric.modules.get? handle with
  | none => fabric
  | some member =>
      match member.role with
      | .node node => fabric.stepNode handle member.ports node
      | .forwarder half =>
          match member.firstLink? with
          | some own => fabric.stepForwarder handle own half
          | none => fabric

/-- The first phase: let modules act in the order given. -/
def stepModules (fabric : Fabric) (handles : List Handle) : Fabric :=
  handles.foldl stepModule fabric

/-- The second phase: commit all pipes. -/
def commit (fabric : Fabric) : Fabric :=
  { fabric with pipes := fabric.pipes.commit }

/-- Both phases. -/
def tick (fabric : Fabric) : Fabric :=
  (fabric.stepModules fabric.modules.handles).commit

end NodeGrid.Fabric
