import NodeGrid.Node.Step
import NodeGrid.Proofs.Pipe.Table

/-!
# The transition of a node

A step of a node is split into what the node finds at its ports, what becomes of the node itself,
and what it then does to its pipes.  What it finds is at most one word that has arrived and at most
one claim to acknowledge; the node after the step is a function of these two alone.
-/

namespace NodeGrid

open Assembly

variable {σ : Type} [Bus σ]

namespace Core

/-- The ports that a target stands for, in the order in which they are tried. -/
def reach (core : Core) : Target → List Port
  | .port port => [port]
  | .any => Port.all
  | .last => core.registers.last.toList
  | .acc | .nil => []

/-- The ports that are polled to read an operand. -/
def polled (core : Core) : Operand → List Port
  | .literal _ => []
  | .target place => core.reach place

/-- The word that an operand gives and the core after reading it, from the first word that has
arrived at a polled port. -/
def take (core : Core) (operand : Operand) (arrival : Option (Port × Word)) :
    Option (Word × Core) :=
  match operand with
  | .literal value => some (value, core)
  | .target .acc => some (core.registers.acc, core)
  | .target .nil => some (0, core)
  | .target (.port _) => arrival.map fun (_, value) => (value, core)
  | .target .any =>
      arrival.map fun (port, value) => (value, { core with registers.last := some port })
  | .target .last =>
      match core.registers.last with
      | some _ => arrival.map fun (_, value) => (value, core)
      | none => some (0, core)

/-- A read polls its ports in order and then depends on nothing but the first arrival. -/
theorem read_eq (core : Core) (bus : σ) (operand : Operand) :
    core.read bus operand =
      (core.take operand (claimFirst bus (core.polled operand)).1,
        (claimFirst bus (core.polled operand)).2) := by
  cases operand with
  | literal value => rfl
  | target place =>
      cases place with
      | acc | nil => rfl
      | port port =>
          simp only [read, claim, polled, reach, claimFirst]
          split <;> simp_all [take]
      | any =>
          simp only [read, polled, reach]
          split <;> simp_all [take]
      | last =>
          cases last : core.registers.last with
          | none => simp [read, polled, reach, last, claimFirst, take]
          | some port =>
              simp only [read, polled, reach, last, Option.toList_some, claim, claimFirst]
              split <;> simp_all [take]

/-- What is performed changes registers alone, and the last port is not among them. -/
theorem exists_perform_eq (core : Core) (value : Word) (instruction : Instruction) :
    ∃ acc bak pc, core.perform value instruction =
      { core with registers := ⟨acc, bak, pc, core.registers.last⟩ } := by
  cases instruction with
  | binary op operand => exact ⟨_, _, _, rfl⟩
  | complement | negate | save | swap => exact ⟨_, _, _, rfl⟩
  | move source destination => cases destination <;> exact ⟨_, _, _, rfl⟩
  | jump condition index =>
      simp only [perform]
      split <;> exact ⟨_, _, _, rfl⟩
  | jumpRelative offset =>
      simp only [perform, jumpBy]
      split <;> exact ⟨_, _, _, rfl⟩

@[simp] theorem program_perform (core : Core) (value : Word) (instruction : Instruction) :
    (core.perform value instruction).program = core.program := by
  obtain ⟨_, _, _, same⟩ := core.exists_perform_eq value instruction
  rw [same]

@[simp] theorem last_perform (core : Core) (value : Word) (instruction : Instruction) :
    (core.perform value instruction).registers.last = core.registers.last := by
  obtain ⟨_, _, _, same⟩ := core.exists_perform_eq value instruction
  rw [same]

@[simp] theorem resetRegisters_perform (core : Core) (value : Word) (instruction : Instruction) :
    (core.perform value instruction).resetRegisters = core.resetRegisters := by
  obtain ⟨_, _, _, same⟩ := core.exists_perform_eq value instruction
  rw [same]
  rfl

/-- A read changes nothing of a core but its last port. -/
theorem exists_take_eq {core after : Core} {operand : Operand} {arrival : Option (Port × Word)}
    {value : Word} (taken : core.take operand arrival = some (value, after)) :
    ∃ last, after = { core with registers.last := last } := by
  cases operand with
  | literal literal =>
      cases taken
      exact ⟨_, rfl⟩
  | target place =>
      cases place with
      | acc | nil =>
          cases taken
          exact ⟨_, rfl⟩
      | port side | any =>
          obtain ⟨found, -, same⟩ := Option.map_eq_some_iff.1 taken
          cases same
          exact ⟨_, rfl⟩
      | last =>
          cases last : core.registers.last with
          | none =>
              simp only [take, last, Option.some.injEq, Prod.mk.injEq] at taken
              exact ⟨core.registers.last, taken.2.symm⟩
          | some port =>
              simp only [take, last] at taken
              obtain ⟨found, -, same⟩ := Option.map_eq_some_iff.1 taken
              cases same
              exact ⟨core.registers.last, rfl⟩

end Core

/-! ## The ports over pipes -/

namespace PipeTable

/-- The word that is ready at a port. -/
def arrivalAt (pipes : PipeTable) (ports : Ports) (port : Port) : Option Word :=
  (ports.get port).bind fun link => (pipes.pipe? link.receive).bind (·.peek?)

/-- The first of some ports at which a word is ready, with that word. -/
def firstArrival (pipes : PipeTable) (ports : Ports) (polled : List Port) :
    Option (Port × Word) :=
  polled.findSome? fun port => (pipes.arrivalAt ports port).map (port, ·)

/-- The pipes after the word that arrived at a port has been claimed. -/
def claimAt (pipes : PipeTable) (ports : Ports) (port : Port) : PipeTable :=
  (ports.get port).elim pipes fun link => (pipes.claim link.receive).2

/-- The pipes after an arrival, if there is one, has been claimed. -/
def draw (pipes : PipeTable) (ports : Ports) : Option (Port × Word) → PipeTable
  | some (port, _) => pipes.claimAt ports port
  | none => pipes

/-- The word offered at a port has been claimed, and the claim can be acknowledged. -/
def deliveredAt (pipes : PipeTable) (ports : Ports) (port : Port) : Bool :=
  (ports.get port).any fun link => decide (pipes.pipe? link.send = some .delivered)

/-- The first port in polling order whose word has been claimed. -/
def delivery? (pipes : PipeTable) (ports : Ports) : Option Port :=
  Port.all.find? (pipes.deliveredAt ports)

/-- The pipes after the claim at a port has been acknowledged. -/
def acknowledgeAt (pipes : PipeTable) (ports : Ports) (port : Port) : PipeTable :=
  (ports.get port).elim pipes fun link => (pipes.acknowledge link.send).2

/-- The pipes after the claim at a port has been acknowledged and all else has been taken back. -/
def settle (pipes : PipeTable) (ports : Ports) (port : Port) : PipeTable :=
  (pipes.acknowledgeAt ports port).withdrawAll ports.links

end PipeTable

namespace PortBus

theorem claim_mk (ports : Ports) (pipes : PipeTable) (port : Port) :
    Bus.claim (⟨ports, pipes⟩ : PortBus) port =
      (pipes.arrivalAt ports port, ⟨ports, pipes.claimAt ports port⟩) := by
  change claim _ _ = _
  unfold claim PipeTable.arrivalAt PipeTable.claimAt
  cases ports.get port with
  | none => rfl
  | some link => simp [← PipeTable.claim_fst]

/-- A port at which nothing has arrived is left alone. -/
theorem claimAt_of_no_arrival {ports : Ports} {pipes : PipeTable} {port : Port}
    (nothing : pipes.arrivalAt ports port = none) : pipes.claimAt ports port = pipes := by
  unfold PipeTable.arrivalAt at nothing
  unfold PipeTable.claimAt
  cases linked : ports.get port with
  | none => rfl
  | some link =>
      rw [linked] at nothing
      change (pipes.claim link.receive).2 = pipes
      rw [PipeTable.claim_eq_of_peek_none nothing]

/-- Polling claims the first arrival and nothing else. -/
theorem claimFirst_mk (ports : Ports) (pipes : PipeTable) (polled : List Port) :
    claimFirst (⟨ports, pipes⟩ : PortBus) polled =
      (pipes.firstArrival ports polled,
        ⟨ports, pipes.draw ports (pipes.firstArrival ports polled)⟩) := by
  induction polled with
  | nil => rfl
  | cons port rest ih =>
      simp only [claimFirst, claim_mk, PipeTable.firstArrival, List.findSome?_cons]
      cases arrival : pipes.arrivalAt ports port with
      | some value => rfl
      | none =>
          simp only [Option.map_none, claimAt_of_no_arrival arrival]
          exact ih

theorem acknowledgeFirst_present (ports : Ports) (pipes : PipeTable) (order : List Port) :
    pipes.acknowledgeFirst (order.filterMap fun port => (ports.get port).map (port, ·)) =
      match order.find? (pipes.deliveredAt ports) with
      | some port => (some port, pipes.acknowledgeAt ports port)
      | none => (none, pipes) := by
  induction order with
  | nil => rfl
  | cons port rest ih =>
      rw [List.filterMap_cons, List.find?_cons]
      cases linked : ports.get port with
      | none => simpa [PipeTable.deliveredAt, linked] using ih
      | some link =>
          have answer := pipes.acknowledge_fst link.send
          simp only [Option.map_some, PipeTable.acknowledgeFirst, PipeTable.deliveredAt, linked,
            Option.any_some]
          cases outcome : pipes.acknowledge link.send with
          | mk known after =>
              rw [outcome] at answer
              cases known with
              | true => simp [← answer, PipeTable.acknowledgeAt, linked, outcome]
              | false => simpa [← answer] using ih

/-- The first delivery is acknowledged, and then no offer of the node stays. -/
theorem pollDelivered_mk (ports : Ports) (pipes : PipeTable) :
    Bus.pollDelivered (⟨ports, pipes⟩ : PortBus) =
      (pipes.delivery? ports, ⟨ports, (pipes.delivery? ports).elim pipes (pipes.settle ports)⟩) := by
  change pollDelivered _ = _
  simp only [pollDelivered, PortMap.present, acknowledgeFirst_present]
  rw [show Port.all.find? (pipes.deliveredAt ports) = pipes.delivery? ports from rfl]
  cases pipes.delivery? ports <;> rfl

end PortBus

namespace Ports

theorem mem_links {ports : Ports} {link : Link} :
    link ∈ ports.links ↔ ∃ port, ports.get port = some link := by
  simp [links, PortMap.present]

/-- The pipe that a port writes to. -/
def sendAt (ports : Ports) (port : Port) : Option PipeId :=
  (ports.get port).map (·.send)

theorem sendAt_eq_some_iff {ports : Ports} {port : Port} {id : PipeId} :
    ports.sendAt port = some id ↔ ∃ link, ports.get port = some link ∧ link.send = id := by
  simp [sendAt]

theorem mem_map_send_links {ports : Ports} {id : PipeId} :
    id ∈ ports.links.map (·.send) ↔ ∃ port, ports.sendAt port = some id := by
  simp only [List.mem_map, mem_links, sendAt_eq_some_iff]
  constructor
  · rintro ⟨link, ⟨port, linked⟩, rfl⟩
    exact ⟨port, link, linked, rfl⟩
  · rintro ⟨port, link, linked, rfl⟩
    exact ⟨link, ⟨port, linked⟩, rfl⟩

end Ports

namespace Core

/-- The pipes after a pending write has been offered where its target leads. -/
def offerOn (core : Core) (ports : Ports) (pipes : PipeTable) (write : PendingWrite) : PipeTable :=
  (core.offer (⟨ports, pipes⟩ : PortBus) write).pipes

theorem offer_mk (core : Core) (ports : Ports) (pipes : PipeTable) (write : PendingWrite) :
    core.offer (⟨ports, pipes⟩ : PortBus) write = ⟨ports, core.offerOn ports pipes write⟩ := by
  have offer_ports : ∀ port,
      (Bus.offer (⟨ports, pipes⟩ : PortBus) port write.value).2.ports = ports := by
    intro port
    change (PortBus.offer _ _ _).2.ports = _
    unfold PortBus.offer
    split <;> rfl
  have offerAny_ports : (Bus.offerAny (⟨ports, pipes⟩ : PortBus) write.value).2.ports = ports := by
    change (PortBus.offerAny _ _).2.ports = _
    unfold PortBus.offerAny
    split <;> rfl
  have keeps : (core.offer (⟨ports, pipes⟩ : PortBus) write).ports = ports := by
    unfold offer
    cases write.target with
    | port port => exact offer_ports port
    | any => exact offerAny_ports
    | last =>
        cases core.registers.last with
        | none => rfl
        | some port => exact offer_ports port
    | acc | nil => rfl
  cases equal : core.offer (⟨ports, pipes⟩ : PortBus) write with
  | mk after table =>
      rw [equal] at keeps
      rw [offerOn, equal, show after = ports from keeps]

/-- Once a copy of a word for any port has been claimed, the word is not offered again. -/
theorem offerOn_of_claimed {core : Core} {ports : Ports} {pipes : PipeTable}
    {write : PendingWrite} {link : Link} (any : write.target = .any) (member : link ∈ ports.links)
    (claimed : pipes.isClaimed link.send) : core.offerOn ports pipes write = pipes := by
  have guarded : (ports.links.any fun link => pipes.isClaimed link.send) = true :=
    List.any_eq_true.2 ⟨link, member, claimed⟩
  unfold offerOn offer
  rw [any]
  change (PortBus.offerAny _ _).2.pipes = pipes
  simp only [PortBus.offerAny, guarded, if_true]

theorem get?_offer_port (ports : Ports) (pipes : PipeTable) (port : Port) (value : Word)
    (id : PipeId) :
    (Bus.offer (⟨ports, pipes⟩ : PortBus) port value).2.pipes.get? id =
      if ports.sendAt port = some id then (pipes.get? id).map (·.offered value false)
      else pipes.get? id := by
  change (PortBus.offer _ _ _).2.pipes.get? id = _
  unfold PortBus.offer Ports.sendAt
  cases ports.get port with
  | none => simp
  | some link =>
      simp only [PipeTable.get?_offer, Option.map_some, Option.some.injEq]
      by_cases same : id = link.send
      · simp [same]
      · simp [same, Ne.symm same]

/-- An offer reaches the pipes of the ports that the target stands for. -/
theorem get?_offerOn {core : Core} {ports : Ports} {pipes : PipeTable} {write : PendingWrite}
    (open_ : write.target = .any → ∀ link ∈ ports.links, pipes.isClaimed link.send = false)
    (id : PipeId) :
    (core.offerOn ports pipes write).get? id =
      if id ∈ (core.reach write.target).filterMap ports.sendAt then
        (pipes.get? id).map (·.offered write.value (write.target = .any))
      else pipes.get? id := by
  unfold offerOn offer
  cases target : write.target with
  | port port =>
      refine (get?_offer_port ports pipes port write.value id).trans (if_congr ?_ rfl rfl)
      simp [reach]
  | any =>
      have guarded : (ports.links.any fun link => pipes.isClaimed link.send) = false := by
        simpa using open_ target
      change (PortBus.offerAny _ _).2.pipes.get? id = _
      simp only [PortBus.offerAny, guarded, Bool.false_eq_true, if_false]
      refine (PipeTable.get?_offerShared pipes write.value ports.links id).trans
        (if_congr ?_ rfl rfl)
      simp [Ports.mem_map_send_links, reach]
  | last =>
      cases last : core.registers.last with
      | none => simp [reach, last]
      | some port =>
          refine (get?_offer_port ports pipes port write.value id).trans (if_congr ?_ rfl rfl)
          simp [reach, last]
  | acc | nil => simp [reach]

end Core

/-! ## The step as a function of what the node finds -/

namespace Node

/-- The write that a node waits for. -/
def pending? (node : Node) : Option PendingWrite :=
  match node.activity with
  | .waitingWrite write => some write
  | .idle | .running | .waitingRead => none

theorem pending?_eq_some_iff {node : Node} {write : PendingWrite} :
    node.pending? = some write ↔ node.activity = .waitingWrite write := by
  unfold pending?
  cases node.activity <;> simp

/-- The ports that the next step polls for a word. -/
def polled (node : Node) : List Port :=
  if node.enabled then
    match node.activity with
    | .running | .waitingRead => node.core.instruction?.elim [] fun instruction =>
        node.core.polled instruction.input
    | .idle | .waitingWrite _ => []
  else []

/-- The word that the next step claims, and the port it has arrived at. -/
def arrival? (node : Node) (ports : Ports) (pipes : PipeTable) : Option (Port × Word) :=
  pipes.firstArrival ports node.polled

/-- The port whose claim the next step acknowledges. -/
def delivery? (node : Node) (ports : Ports) (pipes : PipeTable) : Option Port :=
  if node.enabled ∧ node.activity.status = .waitingWrite then pipes.delivery? ports else none

/-- The node that has the input of an instruction: it begins a write or goes on. -/
def resolve (node : Node) (instruction : Instruction) (value : Word) : Node :=
  match node.core.outgoing? value instruction with
  | some write => { node with activity := .waitingWrite write }
  | none => { node with core := node.core.perform value instruction, activity := .running }

/-- The node whose write has been claimed on a port. -/
def complete (node : Node) (write : PendingWrite) (port : Port) : Node :=
  let core :=
    if write.target = .any then { node.core with registers.last := some port } else node.core
  { node with core := core.advance, activity := .running }

/-- The node after a step in which it found these. -/
def next (node : Node) (arrival : Option (Port × Word)) (delivery : Option Port) : Node :=
  if node.enabled then
    match node.activity with
    | .idle => node
    | .waitingWrite write => delivery.elim node (node.complete write)
    | .running | .waitingRead =>
        match node.core.instruction? with
        | none => { node with activity := .idle }
        | some instruction =>
            match node.core.take instruction.input arrival with
            | none => { node with activity := .waitingRead }
            | some (value, core) => { node with core }.resolve instruction value
  else node

/-- Having its input, an instruction changes registers alone. -/
@[simp] theorem resetRegisters_resolve (node : Node) (instruction : Instruction) (value : Word) :
    (node.resolve instruction value).core.resetRegisters = node.core.resetRegisters := by
  unfold resolve
  cases node.core.outgoing? value instruction with
  | none => exact Core.resetRegisters_perform _ _ _
  | some write => rfl

/-- Whatever a node finds at its ports, a step changes registers alone of its core. -/
theorem resetRegisters_next (node : Node) (arrival : Option (Port × Word))
    (delivery : Option Port) :
    (node.next arrival delivery).core.resetRegisters = node.core.resetRegisters := by
  obtain ⟨core, activity, enabled⟩ := node
  cases enabled with
  | false => rfl
  | true =>
      cases activity with
      | idle => rfl
      | waitingWrite write =>
          cases delivery with
          | none => rfl
          | some port =>
              change (if write.target = .any then _ else _ : Core).advance.resetRegisters = _
              split <;> rfl
      | running | waitingRead =>
          simp only [next, if_true]
          cases core.instruction? with
          | none => rfl
          | some instruction =>
              cases taken : core.take instruction.input arrival with
              | none => simp only [taken]
              | some result =>
                  simp only [taken, resetRegisters_resolve]
                  obtain ⟨last, same⟩ := Core.exists_take_eq taken
                  rw [same]
                  rfl

/-- The node after a step over pipes. -/
def after (node : Node) (ports : Ports) (pipes : PipeTable) : Node :=
  node.next (node.arrival? ports pipes) (node.delivery? ports pipes)

/-- The pipes after an enabled node has offered what it then waits to write. -/
def voice (node : Node) (ports : Ports) (pipes : PipeTable) : PipeTable :=
  match node.activity with
  | .waitingWrite write => if node.enabled then node.core.offerOn ports pipes write else pipes
  | .idle | .running | .waitingRead => pipes

/-- The write that a node offers on a pipe.  A word for any port is not offered while the claim of
a copy is known to nobody but the pipe. -/
def offering? (node : Node) (ports : Ports) (pipes : PipeTable) (id : PipeId) :
    Option PendingWrite :=
  match node.activity with
  | .waitingWrite write =>
      if node.enabled ∧ id ∈ (node.core.reach write.target).filterMap ports.sendAt ∧
          (write.target = .any → ∀ link ∈ ports.links, pipes.isClaimed link.send = false) then
        some write
      else none
  | .idle | .running | .waitingRead => none

theorem offering?_eq_some_iff {node : Node} {ports : Ports} {pipes : PipeTable} {id : PipeId}
    {write : PendingWrite} :
    node.offering? ports pipes id = some write ↔
      node.activity = .waitingWrite write ∧ node.enabled ∧
        id ∈ (node.core.reach write.target).filterMap ports.sendAt ∧
        (write.target = .any → ∀ link ∈ ports.links, pipes.isClaimed link.send = false) := by
  unfold offering?
  cases node.activity with
  | idle | running | waitingRead => simp
  | waitingWrite pending =>
      simp only [Option.ite_none_right_eq_some, Option.some.injEq, Activity.waitingWrite.injEq]
      constructor
      · intro offered
        rcases offered with ⟨speaks, same⟩
        exact ⟨same, same ▸ speaks⟩
      · intro waits
        rcases waits with ⟨same, speaks⟩
        exact ⟨same ▸ speaks, same⟩

/-- Giving voice to a write changes the pipes that it is offered on. -/
theorem get?_voice (node : Node) (ports : Ports) (pipes : PipeTable) (id : PipeId) :
    (node.voice ports pipes).get? id =
      (pipes.get? id).map fun entry => (node.offering? ports pipes id).elim entry fun write =>
        entry.offered write.value (write.target = .any) := by
  unfold voice offering?
  cases node.activity with
  | idle | running | waitingRead => simp
  | waitingWrite write =>
      cases enabled : node.enabled with
      | false => simp
      | true =>
          simp only [if_true, true_and]
          by_cases open_ : write.target = .any → ∀ link ∈ ports.links,
              pipes.isClaimed link.send = false
          · rw [Core.get?_offerOn open_]
            by_cases reached : id ∈ (node.core.reach write.target).filterMap ports.sendAt
            · rw [if_pos reached, if_pos ⟨reached, open_⟩]
              rfl
            · rw [if_neg reached, if_neg fun speaks => reached speaks.1]
              simp
          · rw [if_neg fun speaks => open_ speaks.2]
            push Not at open_
            obtain ⟨any, link, member, claimed⟩ := open_
            rw [Core.offerOn_of_claimed any member (by simpa using claimed)]
            simp

/-- The pipes after a step: a word is claimed, or a claim is acknowledged, and then what is still
to be written is offered. -/
def pipesAfter (node : Node) (ports : Ports) (pipes : PipeTable) : PipeTable :=
  match node.delivery? ports pipes with
  | some port => pipes.settle ports port
  | none =>
      (node.after ports pipes).voice ports (pipes.draw ports (node.arrival? ports pipes))

theorem step_mk (node : Node) (ports : Ports) (pipes : PipeTable) :
    node.step (⟨ports, pipes⟩ : PortBus) =
      (node.after ports pipes, ⟨ports, node.pipesAfter ports pipes⟩) := by
  unfold pipesAfter after arrival? delivery? polled step next voice
  cases enabled : node.enabled with
  | false =>
      cases activity : node.activity <;>
        simp [PipeTable.firstArrival, PipeTable.draw, enabled, activity]
  | true =>
      cases activity : node.activity with
      | idle => simp [PipeTable.firstArrival, PipeTable.draw, Activity.status, activity]
      | waitingWrite write =>
          simp only [completeWrite, PortBus.pollDelivered_mk, Activity.status]
          cases pipes.delivery? ports with
          | none =>
              simp [PipeTable.firstArrival, PipeTable.draw, activity, enabled, Core.offer_mk]
          | some port => simp [complete]
      | running | waitingRead =>
          simp only [execute, Activity.status]
          cases node.core.instruction? with
          | none => simp [PipeTable.firstArrival, PipeTable.draw, enabled]
          | some instruction =>
              simp only [Core.read_eq, PortBus.claimFirst_mk]
              cases taken : node.core.take instruction.input
                  (pipes.firstArrival ports (node.core.polled instruction.input)) with
              | none => simp [taken, enabled]
              | some result =>
                  obtain ⟨value, core⟩ := result
                  cases out : core.outgoing? value instruction with
                  | none => simp [taken, finish, resolve, out, enabled]
                  | some write => simp [taken, finish, resolve, out, enabled, Core.offer_mk]

/-! ## A step that runs an instruction -/

/-- The next step of the node runs an instruction. -/
structure Runs (node : Node) (instruction : Instruction) : Prop where
  enabled : node.enabled
  active : node.activity = .running ∨ node.activity = .waitingRead
  stands : node.core.instruction? = some instruction

namespace Runs

variable {node : Node} {instruction : Instruction} (runs : node.Runs instruction)
include runs

theorem not_waiting : node.activity.status ≠ .waitingWrite := by
  rcases runs.active with active | active <;> simp [active, Activity.status]

theorem delivery?_eq_none (ports : Ports) (pipes : PipeTable) :
    node.delivery? ports pipes = none :=
  if_neg fun waits => runs.not_waiting waits.2

theorem arrival?_eq (ports : Ports) (pipes : PipeTable) :
    node.arrival? ports pipes =
      pipes.firstArrival ports (node.core.polled instruction.input) := by
  rcases runs.active with active | active <;>
    simp [arrival?, polled, runs.enabled, active, runs.stands]

theorem after_of_take_eq_none {ports : Ports} {pipes : PipeTable}
    (nothing : node.core.take instruction.input (node.arrival? ports pipes) = none) :
    node.after ports pipes = { node with activity := .waitingRead } := by
  rcases runs.active with active | active <;>
    simp [after, next, runs.enabled, active, runs.stands, nothing]

theorem after_of_take_eq_some {ports : Ports} {pipes : PipeTable} {value : Word} {core : Core}
    (taken : node.core.take instruction.input (node.arrival? ports pipes) = some (value, core)) :
    node.after ports pipes = { node with core }.resolve instruction value := by
  rcases runs.active with active | active <;>
    simp [after, next, runs.enabled, active, runs.stands, taken]

end Runs

end Node

end NodeGrid
