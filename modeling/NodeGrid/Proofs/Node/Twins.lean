import NodeGrid.Proofs.Node.Transition
import NodeGrid.Proofs.Pipe.Twins
import Mathlib.Data.List.Forall2
import Mathlib.Data.Option.Basic

/-!
# Nodes over twin pipes

A node that is linked to matched pipes of two tables finds the same words and the same claims in
both, so it does the same in both, and the pipes stay twins.
-/

namespace NodeGrid

/-- Two links to one module through matched pipes. -/
structure Link.Matched (matched : PipeId → PipeId → Prop) (link other : Link) : Prop where
  peer : link.peer = other.peer
  send : matched link.send other.send
  receive : matched link.receive other.receive

/-- The same ports are linked, through matched pipes. -/
def Ports.Matched (matched : PipeId → PipeId → Prop) (ports others : Ports) : Prop :=
  ∀ port, Option.Rel (Link.Matched matched) (ports.get port) (others.get port)

variable {matched : PipeId → PipeId → Prop}

namespace PipeTable.Twins

variable {first second : PipeTable} (twins : Twins matched first second) {links others : List Link}
variable (both : List.Forall₂ (Link.Matched matched) links others)
include twins both

theorem withdrawAll : Twins matched (first.withdrawAll links) (second.withdrawAll others) :=
  List.rel_foldl (fun _ _ tables _ _ here => tables.withdraw here.send) twins both

theorem offerShared (value : Word) :
    Twins matched (first.offerShared value links).2 (second.offerShared value others).2 := by
  rw [offerShared_snd, offerShared_snd]
  exact List.rel_foldl (fun _ _ tables _ _ here => tables.offer here.send value true) twins both

theorem any_isClaimed : (links.any fun link => first.isClaimed link.send) =
    others.any fun link => second.isClaimed link.send := by
  induction both with
  | nil => rfl
  | cons here rest ih => rw [List.any_cons, List.any_cons, twins.isClaimed here.send, ih]

end PipeTable.Twins

namespace Ports.Matched

variable {ports others : Ports} (same : Ports.Matched matched ports others)
include same

theorem links : List.Forall₂ (Link.Matched matched) ports.links others.links := by
  have direct : ∀ ports : Ports, ports.links = Port.all.filterMap ports.get := by
    intro ports
    simp [Ports.links, PortMap.present, List.map_filterMap, Function.comp_def]
  rw [direct, direct]
  refine List.rel_filterMap ?_ (List.forall₂_same.2 fun port _ => rfl)
  rintro port _ rfl
  exact same port

theorem head? :
    Option.Rel (Link.Matched matched) ports.links.head? others.links.head? := by
  have both := same.links
  generalize ports.links = links at both
  generalize others.links = rest at both
  cases both with
  | nil => exact .none
  | cons here _ => exact .some here

theorem cases (port : Port) : ports.get port = none ∧ others.get port = none ∨
    ∃ link other, ports.get port = some link ∧ others.get port = some other ∧
      Link.Matched matched link other := by
  have here := same port
  generalize ports.get port = link at here
  generalize others.get port = other at here
  cases here with
  | none => exact .inl ⟨rfl, rfl⟩
  | some both => exact .inr ⟨_, _, rfl, rfl, both⟩

variable {first second : PipeTable} (twins : PipeTable.Twins matched first second)
include twins

/-! ## What is found -/

theorem arrivalAt (port : Port) : first.arrivalAt ports port = second.arrivalAt others port := by
  unfold PipeTable.arrivalAt
  rcases same.cases port with ⟨here, there⟩ | ⟨link, other, here, there, both⟩
  · rw [here, there]
    rfl
  · rw [here, there, Option.bind_some, Option.bind_some, twins.pipe? both.receive]

theorem deliveredAt (port : Port) :
    first.deliveredAt ports port = second.deliveredAt others port := by
  unfold PipeTable.deliveredAt
  rcases same.cases port with ⟨here, there⟩ | ⟨link, other, here, there, both⟩
  · rw [here, there]
    rfl
  · rw [here, there, Option.any_some, Option.any_some, twins.pipe? both.send]

theorem arrival? (node : Node) : node.arrival? ports first = node.arrival? others second := by
  unfold Node.arrival? PipeTable.firstArrival
  simp only [same.arrivalAt twins]

theorem delivery? (node : Node) : node.delivery? ports first = node.delivery? others second := by
  unfold Node.delivery? PipeTable.delivery?
  rw [funext (same.deliveredAt twins)]

/-- A node becomes the same over both tables. -/
theorem after (node : Node) : node.after ports first = node.after others second := by
  rw [Node.after, Node.after, same.arrival? twins, same.delivery? twins]

/-! ## What is done -/

theorem claimAt (port : Port) :
    PipeTable.Twins matched (first.claimAt ports port) (second.claimAt others port) := by
  unfold PipeTable.claimAt
  rcases same.cases port with ⟨here, there⟩ | ⟨link, other, here, there, both⟩
  · rw [here, there]
    exact twins
  · rw [here, there]
    exact twins.claim both.receive

theorem acknowledgeAt (port : Port) :
    PipeTable.Twins matched (first.acknowledgeAt ports port) (second.acknowledgeAt others port) := by
  unfold PipeTable.acknowledgeAt
  rcases same.cases port with ⟨here, there⟩ | ⟨link, other, here, there, both⟩
  · rw [here, there]
    exact twins
  · rw [here, there]
    exact twins.acknowledge both.send

theorem offerAt (port : Port) (value : Word) :
    PipeTable.Twins matched (Bus.offer (⟨ports, first⟩ : PortBus) port value).2.pipes
      (Bus.offer (⟨others, second⟩ : PortBus) port value).2.pipes := by
  change PipeTable.Twins matched (PortBus.offer _ _ _).2.pipes (PortBus.offer _ _ _).2.pipes
  unfold PortBus.offer
  rcases same.cases port with ⟨here, there⟩ | ⟨link, other, here, there, both⟩
  · simp only [here, there]
    exact twins
  · simp only [here, there]
    exact twins.offer both.send value false

theorem offerOn (core : Core) (write : PendingWrite) :
    PipeTable.Twins matched (core.offerOn ports first write) (core.offerOn others second write) := by
  unfold Core.offerOn Core.offer
  cases write.target with
  | port port => exact same.offerAt twins port write.value
  | any =>
      change PipeTable.Twins matched (PortBus.offerAny _ _).2.pipes (PortBus.offerAny _ _).2.pipes
      unfold PortBus.offerAny
      dsimp only
      rw [twins.any_isClaimed same.links]
      split
      next => exact twins
      next => exact twins.offerShared same.links write.value
  | last =>
      dsimp only
      cases core.registers.last with
      | none => exact twins
      | some port => exact same.offerAt twins port write.value
  | acc | nil => exact twins

theorem voice (node : Node) :
    PipeTable.Twins matched (node.voice ports first) (node.voice others second) := by
  unfold Node.voice
  cases node.activity with
  | idle | running | waitingRead => exact twins
  | waitingWrite write =>
      dsimp only
      split
      next => exact same.offerOn twins node.core write
      next => exact twins

/-- Over both tables a node does the same to its pipes. -/
theorem pipesAfter (node : Node) :
    PipeTable.Twins matched (node.pipesAfter ports first) (node.pipesAfter others second) := by
  unfold Node.pipesAfter
  rw [same.delivery? twins, same.after twins, same.arrival? twins]
  cases node.delivery? others second with
  | some port => exact (same.acknowledgeAt twins port).withdrawAll same.links
  | none =>
      refine same.voice ?_ _
      cases node.arrival? others second with
      | none => exact twins
      | some arrival => exact same.claimAt twins arrival.1

end Ports.Matched

end NodeGrid
