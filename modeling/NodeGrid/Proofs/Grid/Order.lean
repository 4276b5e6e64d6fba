import NodeGrid.Proofs.Grid.Reachable
import NodeGrid.Proofs.Fabric.Order
import NodeGrid.Proofs.Fabric.Relay

/-!
# The order of the slots

Modules act in the order of their slots, which says nothing about how they are linked.  Between nodes
this order does not matter, unless they race for one word.  Between the halves of a forwarder pair it
does matter: a half in front of a node that has just taken a word makes room for its sibling only if
it comes first.
-/

namespace NodeGrid

namespace Grid

/-- If a reachable grid has no forwarders and no race, then in whatever order its nodes act in the
first phase of a tick, the commit leaves the same nodes and the same in every pipe. -/
theorem Reachable.phase_order_irrelevant {grid : Grid} (reachable : grid.Reachable)
    (nodes : grid.fabric.OnlyNodes) (quiet : ¬grid.fabric.Races) {first second : List Handle}
    (firstAll : first.Perm grid.fabric.modules.handles)
    (secondAll : second.Perm grid.fabric.modules.handles) :
    (∀ handle, (grid.fabric.stepModules first).commit.node handle =
      (grid.fabric.stepModules second).commit.node handle) ∧
    ∀ id, (grid.fabric.stepModules first).commit.pipes.pipe? id =
      (grid.fabric.stepModules second).commit.pipes.pipe? id := by
  obtain ⟨roles, pipes⟩ := reachable.sound.lawful.stepModules_perm nodes quiet firstAll secondAll
  constructor
  · intro handle
    exact Fabric.node_congr (roles handle)
  · intro id
    rw [Fabric.pipe?_commit, Fabric.pipe?_commit, pipes id]

/-- A running grid in which a node offers a word on any of two ports to another one, which reads from
any port and answers. -/
def answering : Grid :=
  standard.run
    [.addNode, .addNode, .link ⟨0, 0⟩ .right ⟨1, 0⟩ .left, .link ⟨0, 0⟩ .down ⟨1, 0⟩ .up,
      .compile ⟨0, 0⟩ ["MOV 7 ANY".toList, "MOV ANY ACC".toList],
      .compile ⟨1, 0⟩ ["MOV ANY LAST".toList], .start, .step]

/-- The reader may take the word before or after the writer offers it again. -/
theorem answering_order_irrelevant : answering.Reachable ∧ answering.fabric.OnlyNodes ∧
    ¬answering.fabric.Races ∧
    (answering.fabric.stepModules [⟨1, 0⟩, ⟨0, 0⟩]).commit.node ⟨1, 0⟩ =
      (answering.fabric.stepModules [⟨0, 0⟩, ⟨1, 0⟩]).commit.node ⟨1, 0⟩ ∧
    (answering.fabric.stepModules [⟨1, 0⟩, ⟨0, 0⟩]).commit.pipes.pipe? ⟨0⟩ =
      (answering.fabric.stepModules [⟨0, 0⟩, ⟨1, 0⟩]).commit.pipes.pipe? ⟨0⟩ := by
  have reachable : answering.Reachable := standard_reachable.run _
  have nodes : answering.fabric.OnlyNodes := by decide +kernel
  have quiet : ¬answering.fabric.Races := by decide +kernel
  have handles : answering.fabric.modules.handles = [⟨0, 0⟩, ⟨1, 0⟩] := by decide +kernel
  have reader_first : [⟨1, 0⟩, ⟨0, 0⟩].Perm answering.fabric.modules.handles := by
    rw [handles]
    exact .swap _ _ _
  have writer_first : [⟨0, 0⟩, ⟨1, 0⟩].Perm answering.fabric.modules.handles := by rw [handles]
  have same := reachable.phase_order_irrelevant nodes quiet reader_first writer_first
  exact ⟨reachable, nodes, quiet, same.1 _, same.2 _⟩

/-- In a reachable grid the halves of a forwarder pair can act in either order with the same outcome
for every pipe, except when one of them would pass on its word late or both contend for one word. -/
theorem Reachable.halves_commute_iff {grid : Grid} (reachable : grid.Reachable)
    {near far : Handle} (nearHalf : grid.fabric.forwarder near = .ok ⟨some far⟩)
    (farHalf : grid.fabric.forwarder far = .ok ⟨some near⟩) :
    (∀ id, ((grid.fabric.stepModule near).stepModule far).pipes.pipe? id =
      ((grid.fabric.stepModule far).stepModule near).pipes.pipe? id) ↔
    ¬grid.fabric.OrderMatters near far :=
  reachable.sound.relay_order_iff (Fabric.forwarder_eq_ok nearHalf)
    (Fabric.forwarder_eq_ok farHalf)

/-- A running grid in which a node writes again and again to a slower one through a forwarder pair,
after some ticks. -/
def relaying (ticks : Nat) : Grid :=
  standard.run <|
    [.addNode, .addNode, .join ⟨0, 0⟩ .right ⟨1, 0⟩ .left,
      .compile ⟨0, 0⟩ ["MOV 7 RIGHT".toList],
      .compile ⟨1, 0⟩ ["MOV LEFT ACC".toList, "SWP".toList, "SWP".toList, "SWP".toList], .start] ++
    .replicate ticks .step

/-- After one tick the first word passes in either order. -/
theorem relaying_once_commutes : (relaying 1).Reachable ∧
    (relaying 1).fabric.forwarder ⟨2, 0⟩ = .ok ⟨some ⟨3, 0⟩⟩ ∧
    (relaying 1).fabric.forwarder ⟨3, 0⟩ = .ok ⟨some ⟨2, 0⟩⟩ ∧
    (((relaying 1).fabric.stepModule ⟨2, 0⟩).stepModule ⟨3, 0⟩).pipes.pipe? ⟨3⟩ = some (.pending 7) ∧
    (((relaying 1).fabric.stepModule ⟨3, 0⟩).stepModule ⟨2, 0⟩).pipes.pipe? ⟨3⟩ = some (.pending 7) := by
  have reachable : (relaying 1).Reachable := standard_reachable.run _
  have near : (relaying 1).fabric.forwarder ⟨2, 0⟩ = .ok ⟨some ⟨3, 0⟩⟩ := by decide +kernel
  have far : (relaying 1).fabric.forwarder ⟨3, 0⟩ = .ok ⟨some ⟨2, 0⟩⟩ := by decide +kernel
  have calm : ¬(relaying 1).fabric.OrderMatters ⟨2, 0⟩ ⟨3, 0⟩ := by decide +kernel
  have passes : (((relaying 1).fabric.stepModule ⟨2, 0⟩).stepModule ⟨3, 0⟩).pipes.pipe? ⟨3⟩ =
      some (.pending 7) := by decide +kernel
  have commutes := (reachable.halves_commute_iff near far).2 calm
  exact ⟨reachable, near, far, passes, (commutes ⟨3⟩).symm.trans passes⟩

/-- After seven ticks the second word is waiting while the first one has just been taken.  The half in
front of the writer leaves it there if it acts first, and passes it on if its sibling acts first. -/
theorem relaying_seven_late : (relaying 7).Reachable ∧
    (relaying 7).fabric.forwarder ⟨2, 0⟩ = .ok ⟨some ⟨3, 0⟩⟩ ∧
    (relaying 7).fabric.forwarder ⟨3, 0⟩ = .ok ⟨some ⟨2, 0⟩⟩ ∧
    (((relaying 7).fabric.stepModule ⟨2, 0⟩).stepModule ⟨3, 0⟩).pipes.pipe? ⟨3⟩ = some .empty ∧
    (((relaying 7).fabric.stepModule ⟨3, 0⟩).stepModule ⟨2, 0⟩).pipes.pipe? ⟨3⟩ =
      some (.pending 7) :=
  ⟨standard_reachable.run _, by decide +kernel, by decide +kernel, by decide +kernel,
    by decide +kernel⟩

end Grid

end NodeGrid
