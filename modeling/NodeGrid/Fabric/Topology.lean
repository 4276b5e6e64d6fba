import NodeGrid.Fabric.Basic

/-!
# Changing the links of a fabric

A link between two ports is always made and undone at both ends together, with its two pipes.  A
forwarder lives and dies with its sibling, so whatever takes away one half takes the other along.
-/

namespace NodeGrid.Fabric

/-- The port belongs to a node and is free. -/
def checkPort (fabric : Fabric) (handle : Handle) (port : Port) : Except GridError Unit := do
  let member ← fabric.module handle
  if !member.isNode then throw (.notNode handle)
  if (member.ports.get port).isSome then throw (.portInUse handle port)

/-- Two ports can be linked: both are free ports of nodes, and they differ. -/
def checkEnds (fabric : Fabric) (first : Handle) (firstPort : Port) (second : Handle)
    (secondPort : Port) : Except GridError Unit := do
  fabric.checkPort first firstPort
  fabric.checkPort second secondPort
  if first = second ∧ firstPort = secondPort then throw (.portInUse first firstPort)

/-- Link two ports by a fresh pair of pipes. -/
def connect (fabric : Fabric) (first : Handle) (firstPort : Port) (second : Handle)
    (secondPort : Port) : Fabric :=
  let (forth, opened) := fabric.pipes.openFor first
  let (back, pipes) := opened.openFor second
  let linked := { fabric with pipes }.setLink first firstPort (some ⟨forth, back, second⟩)
  linked.setLink second secondPort (some ⟨back, forth, first⟩)

/-- Undo the link at a port, at both ends. -/
def detachPort (fabric : Fabric) (handle : Handle) (port : Port) : Fabric :=
  match fabric.link? handle port with
  | none => fabric
  | some link =>
      let freed := fabric.setLink handle port none
      { modules := freed.modules.modify link.peer fun member =>
          { member with
            ports := member.ports.map (Option.filter fun other => other.send ≠ link.receive) }
        pipes := (freed.pipes.close link.send).close link.receive }

/-- Remove a module with all its links. -/
def removeModule (fabric : Fabric) (handle : Handle) : Fabric :=
  let freed := Port.all.foldl (fun after port => after.detachPort handle port) fabric
  { freed with modules := (freed.modules.remove handle).2 }

/-- Remove both halves of a forwarder pair. -/
def splitPair (fabric : Fabric) (handle : Handle) : Fabric :=
  let sibling := (fabric.forwarder handle).toOption.bind (·.sibling)
  let halved := fabric.removeModule handle
  match sibling with
  | some other => if halved.isForwarder other then halved.removeModule other else halved
  | none => halved

/-- Undo whatever hangs at a port: a link, or a forwarder pair. -/
def unlinkPort (fabric : Fabric) (handle : Handle) (port : Port) : Fabric :=
  match fabric.link? handle port with
  | none => fabric
  | some link =>
      if fabric.isForwarder link.peer then fabric.splitPair link.peer
      else fabric.detachPort handle port

/-- Remove a node with everything that hangs at its ports. -/
def removeNode (fabric : Fabric) (handle : Handle) : Fabric :=
  let freed := Port.all.foldl (fun after port => after.unlinkPort handle port) fabric
  { freed with modules := (freed.modules.remove handle).2 }

/-- Put a forwarder pair between two ports.  The halves are given back in the order of the
ports. -/
def joinPorts (fabric : Fabric) (first : Handle) (firstPort : Port) (second : Handle)
    (secondPort : Port) : (Handle × Handle) × Fabric :=
  let (near, withNear) := fabric.modules.insert (.unlinked (.forwarder .unpaired))
  let (far, withFar) := withNear.insert (.unlinked (.forwarder ⟨some near⟩))
  let paired := { fabric with modules := withFar }.setRole near (.forwarder ⟨some far⟩)
  let joined := paired.connect first firstPort near firstPort.opposite
  ((near, far), joined.connect second secondPort far secondPort.opposite)

end NodeGrid.Fabric
