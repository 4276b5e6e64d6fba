import NodeGrid.Proofs.Grid.Reachable

/-!
# Generations that wrap around

The generation of a slot has 32 bits.  A node that is added and removed again ages the slot that it
got and changes nothing else.  When this is done over and over, the slot goes through all
generations, and in the end a handle that was issued long ago is issued again.
-/

namespace NodeGrid

/-- A node without links leaves nothing behind but a free slot. -/
theorem Fabric.removeNode_of_unlinked {fabric : Fabric} {handle : Handle}
    (free : ∀ port, fabric.link? handle port = none) :
    fabric.removeNode handle = { fabric with modules := (fabric.modules.remove handle).2 } := by
  have kept : Port.all.foldl (fun after port => after.unlinkPort handle port) fabric = fabric :=
    List.foldl_fixed' (fun port => by simp [unlinkPort, free port]) _
  rw [removeNode, kept]

namespace Grid

theorem execute_removeNode_of_unlinked {grid : Grid} {handle : Handle} {node : Node}
    (known : grid.fabric.node handle = .ok node)
    (free : ∀ port, grid.fabric.link? handle port = none) :
    (grid.execute (.removeNode handle)).2 =
      { grid with fabric.modules := (grid.fabric.modules.remove handle).2 } := by
  simp only [execute, removeNode, known, Fabric.removeNode_of_unlinked free]
  rfl

/-- Nodes that are added and removed again, one after the other, in a slot that is used next. -/
def recycling (index : Nat) (generation : UInt32) : Nat → List Command
  | 0 => []
  | count + 1 =>
      .addNode :: .removeNode ⟨index, generation + 1⟩ :: recycling index (generation + 1) count

/-- The grid with another generation in a slot that holds nothing. -/
def aged (grid : Grid) (index : Nat) (generation : UInt32) : Grid :=
  { grid with fabric.modules := grid.fabric.modules.aged index generation }

/-- There is room for one more node.  It would get this slot, which has been used before and has
this generation so far. -/
structure Reuses (grid : Grid) (index : Nat) (generation : UInt32) : Prop where
  room : grid.fabric.nodeCount < grid.settings.maxNodes
  next : ∃ free, grid.fabric.modules.free = index :: free
  unused : grid.fabric.modules.slots[index]? = some ⟨generation, none⟩

namespace Reuses

variable {grid : Grid} {index : Nat} {generation : UInt32}
variable (reuses : grid.Reuses index generation)
include reuses

theorem aged_self : grid.aged index generation = grid := by
  rw [Grid.aged, Arena.aged_self reuses.unused]

theorem aged (later : UInt32) : (grid.aged index later).Reuses index later where
  room := by
    have same : (grid.aged index later).fabric.nodeCount = grid.fabric.nodeCount := by
      simp only [Fabric.nodeCount, Fabric.nodes, Grid.aged, Arena.entries_aged reuses.unused]
    exact same ▸ reuses.room
  next := reuses.next
  unused := Arena.getElem?_aged reuses.unused later

/-- A node that is added and removed again ages its slot. -/
theorem execute_removeNode_addNode :
    ((grid.execute .addNode).2.execute (.removeNode ⟨index, generation + 1⟩)).2 =
      grid.aged index (generation + 1) := by
  obtain ⟨free, next⟩ := reuses.next
  let node := Node.new.setEnabled true
  let fabric := grid.fabric.withModule (.node node)
  have added : (grid.execute .addNode).2 = { grid with fabric } := by
    simp only [execute, addNode, if_neg (Nat.not_le.2 reuses.room)]
    rfl
  have stored : fabric.modules.get? ⟨index, generation + 1⟩ = some (.unlinked (.node node)) :=
    Arena.get?_insert_of_unused reuses.unused next _
  have known : fabric.node ⟨index, generation + 1⟩ = .ok node := by
    rw [Fabric.node, Fabric.module, stored]
    rfl
  have unlinked : ∀ port, fabric.link? ⟨index, generation + 1⟩ port = none := by
    intro port
    rw [Fabric.link?, stored]
    cases port <;> rfl
  rw [added, execute_removeNode_of_unlinked known unlinked, Grid.aged,
    ← Arena.remove_insert reuses.unused next]
  rfl

/-- Nodes that are added and removed again, one after the other, age the slot by their number. -/
theorem run_recycling (count : Nat) :
    grid.run (recycling index generation count) =
      grid.aged index (generation + UInt32.ofNat count) := by
  induction count generalizing grid generation with
  | zero =>
      have same : generation + UInt32.ofNat 0 = generation := UInt32.add_zero generation
      rw [same, reuses.aged_self]
      rfl
  | succ count ih =>
      have first : grid.run (recycling index generation (count + 1)) =
          (grid.aged index (generation + 1)).run (recycling index (generation + 1) count) := by
        rw [← reuses.execute_removeNode_addNode]
        rfl
      have sum : generation + 1 + UInt32.ofNat count = generation + UInt32.ofNat (count + 1) := by
        rw [UInt32.ofNat_add, UInt32.add_assoc, UInt32.add_comm 1]
        rfl
      rw [first, ih (reuses.aged _), sum, Grid.aged, Grid.aged, Arena.aged_aged]
      rfl

end Reuses

/-- A slot that is used next can have come to any generation, while nothing else has changed. -/
theorem Reachable.aged {grid : Grid} (reachable : grid.Reachable)
    (room : grid.fabric.nodeCount < grid.settings.maxNodes) {index : Nat}
    (next : grid.fabric.modules.free.head? = some index) (generation : UInt32) :
    (grid.aged index generation).Reachable := by
  obtain ⟨free, next⟩ := List.head?_eq_some_iff.1 next
  obtain ⟨⟨earlier, _⟩, found, rfl⟩ :=
    (reachable.sound.lawful.wired.modules.mem_free index).1 (next ▸ List.mem_cons_self)
  have reuses : grid.Reuses index earlier := ⟨room, ⟨free, next⟩, found⟩
  have count : earlier + UInt32.ofNat (generation - earlier).toNat = generation := by
    rw [UInt32.ofNat_toNat, UInt32.add_comm, UInt32.sub_add_cancel]
  rw [← count, ← reuses.run_recycling]
  exact reachable.run _

end Grid

end NodeGrid
