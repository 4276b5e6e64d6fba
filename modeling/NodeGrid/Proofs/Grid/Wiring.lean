import NodeGrid.Proofs.Fabric.Census
import NodeGrid.Proofs.Grid.Reachable

/-!
# Links and pipes of reachable grids

Numbers of pipes and slots of modules are used again, and links are made and undone in many ways.
Still no end of a link is ever left without the other, no pipe stays open without a link, and no
port keeps a pipe that has been given to somebody else.
-/

namespace NodeGrid

namespace Grid

/-- Links come in mirrored pairs between modules that exist, with a pipe for each direction that
is recorded under the module which writes to it.  Every open pipe is written to by one linked port
and read from by one linked port, so there are as many open pipes as linked ports. -/
theorem Reachable.pipes_belong_to_links {grid : Grid} (reachable : grid.Reachable) :
    (∀ handle port link, grid.fabric.link? handle port = some link →
      grid.fabric.modules.contains link.peer ∧
      (∃! other, grid.fabric.link? link.peer other = some (link.flip handle)) ∧
      link.send ≠ link.receive ∧
      grid.fabric.pipes.writer? link.send = some handle ∧
      grid.fabric.pipes.writer? link.receive = some link.peer) ∧
    (∀ id entry, grid.fabric.pipes.get? id = some entry →
      (∃! place : Handle × Port, ∃ link, grid.fabric.link? place.1 place.2 = some link ∧
        link.send = id) ∧
      ∃! place : Handle × Port, ∃ link, grid.fabric.link? place.1 place.2 = some link ∧
        link.receive = id) ∧
    grid.fabric.pipes.openCount = grid.fabric.ends.length := by
  have wired := reachable.sound.lawful.wired
  refine ⟨?links, ?pipes, wired.openCount_eq_length_ends⟩
  case links =>
    intro handle port link linked
    have mirrored := wired.existsUnique_flip linked
    have live : grid.fabric.modules.contains link.peer := by
      obtain ⟨other, found, -⟩ := mirrored
      obtain ⟨member, known, -⟩ := Fabric.link?_eq_some_iff.1 found
      simp [Arena.contains, known]
    exact ⟨live, mirrored, wired.apart linked, wired.writer linked, wired.writer_receive linked⟩
  case pipes =>
    intro id entry opened
    exact ⟨wired.existsUnique_send opened, wired.existsUnique_receive opened⟩

/-- A grid with one node, which is linked to itself and joined with itself.  The handle of another
node has become stale on the way. -/
def selfLinked : Grid :=
  standard.run
    [.addNode, .addNode, .removeNode ⟨1, 0⟩, .link ⟨0, 0⟩ .left ⟨0, 0⟩ .right,
      .link ⟨1, 0⟩ .left ⟨0, 0⟩ .up, .join ⟨0, 0⟩ .up ⟨0, 0⟩ .down]

/-- Four ports of the node and one of each half are the ends of three links with two pipes each. -/
theorem selfLinked_pipes : selfLinked.Reachable ∧ selfLinked.fabric.ends.length = 6 ∧
    selfLinked.fabric.pipes.openCount = 6 ∧
    ∃ link, selfLinked.fabric.link? ⟨0, 0⟩ .left = some link ∧ link.peer = ⟨0, 0⟩ ∧
      ∃! other, selfLinked.fabric.link? ⟨0, 0⟩ other = some (link.flip ⟨0, 0⟩) := by
  have reachable : selfLinked.Reachable := standard_reachable.run _
  have laws := reachable.pipes_belong_to_links
  have six : selfLinked.fabric.ends.length = 6 := by decide +kernel
  have linked : selfLinked.fabric.link? ⟨0, 0⟩ .left = some ⟨⟨0⟩, ⟨1⟩, ⟨0, 0⟩⟩ := by
    decide +kernel
  exact ⟨reachable, six, laws.2.2.trans six, _, linked, rfl, (laws.1 _ _ _ linked).2.1⟩

end Grid

end NodeGrid
