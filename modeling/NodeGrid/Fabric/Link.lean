import NodeGrid.Port
import NodeGrid.Pipe.Table
import NodeGrid.Node.Bus

/-!
# Links and the bus over pipes

A link is a pair of pipes between two ports, one for each direction.  A node that is linked at some
of its ports reaches the outside through these pipes alone.
-/

namespace NodeGrid

/-- One end of a link, as the module sees it that owns the port: the pipe it writes to, the pipe it
reads from, and the module on the other side. -/
structure Link where
  send : PipeId
  receive : PipeId
  peer : Handle
  deriving DecidableEq, Repr

/-- The links of a module by port. -/
abbrev Ports := PortMap (Option Link)

/-- The links of a module in polling order. -/
def Ports.links (ports : Ports) : List Link :=
  (PortMap.present ports).map (·.2)

/-- No port is linked. -/
def Ports.unlinked : Ports :=
  PortMap.replicate none

namespace PipeTable

/-- Offer a shared word on every pipe of a list.  The answer says whether any of them took it. -/
def offerShared (table : PipeTable) (value : Word) : List Link → Bool × PipeTable
  | [] => (false, table)
  | link :: rest =>
      let (taken, offered) := table.offer link.send value true
      let (others, after) := offered.offerShared value rest
      (taken || others, after)

/-- Acknowledge the first claim among some links. -/
def acknowledgeFirst (table : PipeTable) : List (Port × Link) → Option Port × PipeTable
  | [] => (none, table)
  | (port, link) :: rest =>
      match table.acknowledge link.send with
      | (true, after) => (some port, after)
      | (false, _) => table.acknowledgeFirst rest

/-- Take back what has been offered on some links and not been claimed. -/
def withdrawAll (table : PipeTable) (links : List Link) : PipeTable :=
  links.foldl (fun after link => after.withdraw link.send) table

/-- Empty the pipes that a module writes to. -/
def resetAll (table : PipeTable) (links : List Link) : PipeTable :=
  links.foldl (fun after link => after.reset link.send) table

end PipeTable

/-- The ports of one node over the table of all pipes. -/
structure PortBus where
  ports : Ports
  pipes : PipeTable
  deriving DecidableEq, Repr

namespace PortBus

/-- An offer goes to the pipe of the port. -/
def offer (bus : PortBus) (port : Port) (value : Word) : Bool × PortBus :=
  match bus.ports.get port with
  | some link =>
      let (taken, pipes) := bus.pipes.offer link.send value false
      (taken, { bus with pipes })
  | none => (false, bus)

/-- A word for any port goes to every linked port, unless a copy has been claimed already. -/
def offerAny (bus : PortBus) (value : Word) : Bool × PortBus :=
  if bus.ports.links.any fun link => bus.pipes.isClaimed link.send then (false, bus)
  else
    let (taken, pipes) := bus.pipes.offerShared value bus.ports.links
    (taken, { bus with pipes })

/-- A claim takes from the pipe that leads to the port. -/
def claim (bus : PortBus) (port : Port) : Option Word × PortBus :=
  match bus.ports.get port with
  | some link =>
      let (claimed, pipes) := bus.pipes.claim link.receive
      (claimed, { bus with pipes })
  | none => (none, bus)

/-- The first port in polling order with a claim to acknowledge ends the write, and all other
offers are withdrawn. -/
def pollDelivered (bus : PortBus) : Option Port × PortBus :=
  match bus.pipes.acknowledgeFirst (PortMap.present bus.ports) with
  | (some port, pipes) => (some port, { bus with pipes := pipes.withdrawAll bus.ports.links })
  | (none, _) => (none, bus)

instance : Bus PortBus where
  offer := offer
  offerAny := offerAny
  claim := claim
  pollDelivered := pollDelivered

end PortBus

end NodeGrid
