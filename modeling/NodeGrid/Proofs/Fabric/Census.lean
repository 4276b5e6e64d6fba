import NodeGrid.Proofs.Fabric.Topology
import Mathlib.Data.List.Perm.Subperm

/-!
# Counting links and modules

Every linked port is one end of a link.  In a wired fabric the ends and the open pipes belong to
each other one to one, by the pipe that an end sends to as well as by the pipe that it reads from.
So no pipe is left open without a link, and no link is left without its pipes.  Every module is a
node or a forwarder, and nodes come one at a time.
-/

namespace NodeGrid

theorem PortMap.mem_present {α : Type} {values : PortMap (Option α)} {port : Port} {value : α} :
    (port, value) ∈ values.present ↔ values.get port = some value := by
  simp [present]

theorem PortMap.present_nodup {α : Type} (values : PortMap (Option α)) : values.present.Nodup := by
  have ports : Port.all.Nodup := by decide
  apply ports.filterMap
  intro port other value here there
  obtain ⟨_, -, rfl⟩ := Option.map_eq_some_iff.1 here
  obtain ⟨_, -, same⟩ := Option.map_eq_some_iff.1 there
  exact (congrArg Prod.fst same).symm

namespace Fabric

/-- Every linked port with its link, in the order of the slots. -/
def ends (fabric : Fabric) : List (Handle × Port × Link) :=
  fabric.modules.entries.flatMap fun (handle, member) =>
    member.ports.present.map fun (port, link) => (handle, port, link)

theorem mem_ends {fabric : Fabric} {handle : Handle} {port : Port} {link : Link} :
    (handle, port, link) ∈ fabric.ends ↔ fabric.link? handle port = some link := by
  rw [link?_eq_some_iff]
  simp only [ends, List.mem_flatMap, Prod.exists, List.mem_map, Prod.mk.injEq,
    Arena.mem_entries_iff]
  constructor
  · rintro ⟨_, member, found, _, _, present, rfl, rfl, rfl⟩
    exact ⟨member, found, PortMap.mem_present.1 present⟩
  · rintro ⟨member, found, placed⟩
    exact ⟨handle, member, found, port, link, PortMap.mem_present.2 placed, rfl, rfl, rfl⟩

theorem ends_nodup (fabric : Fabric) : fabric.ends.Nodup := by
  apply List.nodup_flatMap.2
  constructor
  · rintro ⟨handle, member⟩ -
    apply member.ports.present_nodup.map
    rintro ⟨port, link⟩ ⟨other, second⟩ same
    simpa using same
  · -- Two entries have different handles, and so have the ends that come from them.
    have handles := fabric.modules.handles_nodup
    rw [Arena.handles, List.Nodup, List.pairwise_map] at handles
    apply handles.imp
    rintro ⟨handle, member⟩ ⟨other, second⟩ different
    simp only [Function.onFun, List.disjoint_left, List.mem_map, not_exists, not_and]
    rintro _ ⟨first, -, rfl⟩ _ - same
    exact different (congrArg Prod.fst same).symm

namespace Wired

variable {fabric : Fabric} (wired : fabric.Wired)
include wired

/-- The ends of links send to the open pipes, each of them to another one. -/
theorem send_ends_perm :
    (fabric.ends.map fun (_, _, link) => link.send).Perm fabric.pipes.openIds := by
  have distinct : (fabric.ends.map fun (_, _, link) => link.send).Nodup := by
    apply fabric.ends_nodup.map_on
    rintro ⟨handle, port, link⟩ member ⟨other, place, second⟩ found same
    rw [mem_ends] at member found
    obtain ⟨rfl, rfl⟩ := wired.send_injective member found same
    rw [member] at found
    rw [Option.some.inj found]
  apply (List.perm_ext_iff_of_nodup distinct fabric.pipes.openIds_nodup).2
  intro id
  simp only [List.mem_map, Prod.exists, mem_ends, PipeTable.mem_openIds]
  constructor
  · rintro ⟨handle, port, link, linked, rfl⟩
    obtain ⟨entry, opened, -⟩ := wired.exists_get? linked
    exact ⟨entry, opened⟩
  · rintro ⟨entry, opened⟩
    obtain ⟨port, link, linked, rfl⟩ := wired.exists_send opened
    exact ⟨entry.writer, port, link, linked, rfl⟩

theorem openCount_eq_length_ends : fabric.pipes.openCount = fabric.ends.length := by
  rw [← PipeTable.length_openIds, ← wired.send_ends_perm.length_eq, List.length_map]

/-- The port at the other end of a link is the only one there that mirrors it. -/
theorem existsUnique_flip {handle : Handle} {port : Port} {link : Link}
    (linked : fabric.link? handle port = some link) :
    ∃! other, fabric.link? link.peer other = some (link.flip handle) := by
  obtain ⟨other, mirrored⟩ := wired.mirror linked
  refine ⟨other, mirrored, fun place found => ?_⟩
  exact (wired.send_injective found mirrored rfl).2

theorem existsUnique_send {id : PipeId} {entry : OpenPipe}
    (opened : fabric.pipes.get? id = some entry) :
    ∃! place : Handle × Port, ∃ link, fabric.link? place.1 place.2 = some link ∧
      link.send = id := by
  obtain ⟨port, link, linked, rfl⟩ := wired.exists_send opened
  refine ⟨(entry.writer, port), ⟨link, linked, rfl⟩, ?_⟩
  rintro ⟨other, place⟩ ⟨second, found, same⟩
  obtain ⟨rfl, rfl⟩ := wired.send_injective found linked same
  rfl

theorem existsUnique_receive {id : PipeId} {entry : OpenPipe}
    (opened : fabric.pipes.get? id = some entry) :
    ∃! place : Handle × Port, ∃ link, fabric.link? place.1 place.2 = some link ∧
      link.receive = id := by
  obtain ⟨port, link, linked, rfl⟩ := wired.exists_send opened
  obtain ⟨facing, mirrored⟩ := wired.mirror linked
  refine ⟨(link.peer, facing), ⟨_, mirrored, rfl⟩, ?_⟩
  rintro ⟨other, place⟩ ⟨second, found, same⟩
  obtain ⟨rfl, rfl⟩ := wired.receive_injective found mirrored same
  rfl

end Wired

/-! ## Modules by their kind -/

/-- The forwarders in the order of their slots. -/
def halves (fabric : Fabric) : List (Handle × Forwarder) :=
  fabric.modules.entries.filterMap fun (handle, member) =>
    match member.role with
    | .node _ => none
    | .forwarder half => some (handle, half)

theorem mem_nodes {fabric : Fabric} {handle : Handle} {node : Node} :
    (handle, node) ∈ fabric.nodes ↔ fabric.role? handle = some (.node node) := by
  rw [role?_eq_some_iff]
  simp only [nodes, List.mem_filterMap, Prod.exists, Arena.mem_entries_iff]
  constructor
  · rintro ⟨_, ⟨ports, role⟩, found, picked⟩
    cases role with
    | node _ =>
        cases picked
        exact ⟨ports, found⟩
    | forwarder _ => cases picked
  · rintro ⟨ports, found⟩
    exact ⟨handle, _, found, rfl⟩

theorem mem_halves {fabric : Fabric} {handle : Handle} {half : Forwarder} :
    (handle, half) ∈ fabric.halves ↔ fabric.role? handle = some (.forwarder half) := by
  rw [role?_eq_some_iff]
  simp only [halves, List.mem_filterMap, Prod.exists, Arena.mem_entries_iff]
  constructor
  · rintro ⟨_, ⟨ports, role⟩, found, picked⟩
    cases role with
    | node _ => cases picked
    | forwarder _ =>
        cases picked
        exact ⟨ports, found⟩
  · rintro ⟨ports, found⟩
    exact ⟨handle, _, found, rfl⟩

theorem nodes_nodup (fabric : Fabric) : (fabric.nodes.map (·.1)).Nodup := by
  have sublist : (fabric.nodes.map (·.1)).Sublist fabric.modules.handles := by
    unfold nodes Arena.handles
    induction fabric.modules.entries with
    | nil => simp
    | cons entry rest ih =>
        obtain ⟨handle, ports, role⟩ := entry
        cases role with
        | node node => simpa using ih.cons_cons handle
        | forwarder half => simpa using ih.cons handle
  exact sublist.nodup fabric.modules.handles_nodup

theorem halves_nodup (fabric : Fabric) : (fabric.halves.map (·.1)).Nodup := by
  have sublist : (fabric.halves.map (·.1)).Sublist fabric.modules.handles := by
    unfold halves Arena.handles
    induction fabric.modules.entries with
    | nil => simp
    | cons entry rest ih =>
        obtain ⟨handle, ports, role⟩ := entry
        cases role with
        | node node => simpa using ih.cons handle
        | forwarder half => simpa using ih.cons_cons handle
  exact sublist.nodup fabric.modules.handles_nodup

/-- Every module is a node or a forwarder. -/
theorem Wired.size_eq {fabric : Fabric} (wired : fabric.Wired) :
    fabric.modules.size = fabric.nodeCount + fabric.halves.length := by
  rw [wired.modules.counted, Arena.handles, List.length_map]
  unfold nodeCount nodes halves
  induction fabric.modules.entries with
  | nil => rfl
  | cons entry rest ih =>
      obtain ⟨handle, ports, role⟩ := entry
      cases role with
      | node node => simp [ih, Nat.add_right_comm]
      | forwarder half => simp [ih, Nat.add_assoc]

/-- There are no more nodes than handles in a list that has all of theirs. -/
theorem nodeCount_le_length {fabric : Fabric} {handles : List Handle}
    (covers : ∀ {handle node}, fabric.role? handle = some (.node node) → handle ∈ handles) :
    fabric.nodeCount ≤ handles.length := by
  have subset : fabric.nodes.map (·.1) ⊆ handles := by
    intro handle member
    obtain ⟨⟨_, node⟩, found, rfl⟩ := List.mem_map.1 member
    exact covers (mem_nodes.1 found)
  have shorter := (fabric.nodes_nodup.subperm subset).length_le
  rwa [List.length_map] at shorter

/-- As long as no module becomes a node, the nodes do not become more. -/
theorem nodeCount_le {before after : Fabric}
    (nodes : ∀ {handle node}, after.role? handle = some (.node node) →
      ∃ earlier, before.role? handle = some (.node earlier)) :
    after.nodeCount ≤ before.nodeCount := by
  have covers : ∀ {handle node}, after.role? handle = some (.node node) →
      handle ∈ before.nodes.map (·.1) := by
    intro handle node role
    obtain ⟨earlier, was⟩ := nodes role
    exact List.mem_map.2 ⟨(handle, earlier), mem_nodes.2 was, rfl⟩
  have bound := nodeCount_le_length covers
  rwa [List.length_map] at bound

theorem Wired.nodeCount_withModule_le {fabric : Fabric} (wired : fabric.Wired) (role : Role) :
    (fabric.withModule role).nodeCount ≤ fabric.nodeCount + 1 := by
  set new := (fabric.modules.insert (.unlinked role)).1 with new_eq
  have covers : ∀ {handle node}, (fabric.withModule role).role? handle = some (.node node) →
      handle ∈ new :: fabric.nodes.map (·.1) := by
    intro handle node found
    rw [wired.role?_withModule, ← new_eq] at found
    by_cases same : handle = new
    · exact List.mem_cons.2 (.inl same)
    · rw [if_neg same] at found
      exact List.mem_cons_of_mem new (List.mem_map.2 ⟨(handle, node), mem_nodes.2 found, rfl⟩)
  have bound := nodeCount_le_length covers
  rwa [List.length_cons, List.length_map] at bound

end Fabric

end NodeGrid
