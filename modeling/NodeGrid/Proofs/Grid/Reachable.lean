import NodeGrid.Grid.Command
import NodeGrid.Proofs.Fabric.Sound

/-!
# Reachable grids

Every command, also one that is refused, leads from a sound grid to a sound grid.  So whatever has
been done to a new grid, its links fit together and its pipes hold nothing but the pending writes of
its nodes.
-/

namespace NodeGrid

/-- A node that is enabled or disabled goes on waiting for the same write. -/
theorem Node.Awaits.setEnabled {node : Node} {port : Port} {entry : OpenPipe}
    (awaits : node.Awaits port entry) (enabled : Bool) :
    (node.setEnabled enabled).Awaits port entry := by
  obtain ⟨write, waiting, rest⟩ := awaits
  have stays : node.setEnabled enabled = { node with enabled } := by
    simp [Node.setEnabled, Node.wake, waiting]
  rw [stays]
  exact ⟨write, waiting, rest⟩

namespace Grid

/-- Grids that a history of commands leads to. -/
inductive Reachable : Grid → Prop where
  | new {settings : Settings} {grid : Grid} (created : Grid.new settings = .ok grid) :
      Reachable grid
  | execute {grid : Grid} (reachable : Reachable grid) (command : Command) :
      Reachable (grid.execute command).2

theorem run_append (grid : Grid) (earlier later : List Command) :
    grid.run (earlier ++ later) = (grid.run earlier).run later :=
  List.foldl_append

theorem Reachable.run {grid : Grid} (reachable : grid.Reachable) (history : List Command) :
    (grid.run history).Reachable := by
  induction history generalizing grid with
  | nil => exact reachable
  | cons command rest ih => exact ih (reachable.execute command)

/-- A new grid with the standard settings. -/
def standard : Grid :=
  ⟨.standard, .empty, .stopped, 0⟩

theorem standard_reachable : standard.Reachable :=
  .new (show Grid.new .standard = .ok standard from rfl)

/-- A new grid has no modules. -/
theorem fabric_new {settings : Settings} {grid : Grid} (created : Grid.new settings = .ok grid) :
    grid.fabric = .empty := by
  unfold Grid.new at created
  cases valid : settings.validate with
  | error error => simp [valid, bind, Except.bind] at created
  | ok =>
      simp only [valid, bind, Except.bind, pure, Except.pure, Except.ok.injEq] at created
      rw [← created]

theorem sound_new {settings : Settings} {grid : Grid} (created : Grid.new settings = .ok grid) :
    grid.fabric.Sound := by
  rw [fabric_new created]
  exact .empty

theorem sound_restartNode {grid : Grid} (sound : grid.fabric.Sound) {handle : Handle} {old : Node}
    (was : grid.fabric.role? handle = some (.node old)) (new : Node) :
    (grid.restartNode handle new).fabric.Sound := by
  obtain ⟨ports, found⟩ := Fabric.role?_eq_some_iff.1 was
  simp only [restartNode, found, Option.elim_some]
  exact sound.restart found rfl new

/-- Every command leads from a sound grid to a sound grid. -/
theorem sound_execute {grid : Grid} (sound : grid.fabric.Sound) (command : Command) :
    (grid.execute command).2.fabric.Sound := by
  cases command with
  | start | stop => exact sound
  | addNode =>
      simp only [execute, addNode]
      split
      next => exact sound
      next => exact sound.withNode _
  | removeNode handle =>
      simp only [execute, removeNode]
      cases grid.fabric.node handle with
      | error error => exact sound
      | ok node => exact sound.of_pruned (sound.lawful.wired.removeNode handle)
  | link first firstPort second secondPort =>
      simp only [execute, link]
      cases passes : grid.fabric.checkEnds first firstPort second secondPort with
      | error error => exact sound
      | ok => exact sound.connect passes
  | unlink handle port =>
      simp only [execute, unlink]
      cases grid.fabric.module handle with
      | error error => exact sound
      | ok member =>
          dsimp only
          split
          next => exact sound
          next => exact sound.of_pruned (sound.lawful.wired.unlinkPort handle port).1
  | join first firstPort second secondPort =>
      simp only [execute, join]
      cases passes : grid.fabric.checkEnds first firstPort second secondPort with
      | error error => exact sound
      | ok => exact sound.joinPorts passes
  | split handle =>
      simp only [execute, split]
      cases grid.fabric.forwarder handle with
      | error error => exact sound
      | ok half => exact sound.of_pruned (sound.lawful.wired.splitPair handle).1
  | compile handle source =>
      simp only [execute, compile]
      cases known : grid.fabric.node handle with
      | error error => exact sound
      | ok node => exact sound_restartNode sound (Fabric.node_eq_ok known) _
  | setEnabled handle enabled =>
      simp only [execute, setEnabled]
      cases known : grid.fabric.node handle with
      | error error => exact sound
      | ok node =>
          have role := Fabric.node_eq_ok known
          exact sound.setNode role fun linked opened nonempty =>
            (sound.lawful.coherent.awaited role linked opened nonempty).setEnabled enabled
  | resetNode handle =>
      simp only [execute, resetNode]
      cases known : grid.fabric.node handle with
      | error error => exact sound
      | ok node => exact sound_restartNode sound (Fabric.node_eq_ok known) _
  | step =>
      simp only [execute, step]
      cases grid.power with
      | stopped => exact sound
      | running => exact sound.tick

theorem Reachable.sound {grid : Grid} (reachable : grid.Reachable) : grid.fabric.Sound := by
  induction reachable with
  | new created => exact sound_new created
  | execute _ command ih => exact sound_execute ih command

end Grid

end NodeGrid
