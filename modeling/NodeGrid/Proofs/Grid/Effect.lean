import NodeGrid.Proofs.Grid.Reachable

/-!
# What commands do

A command leaves the fabric as it is, or makes one of a few changes to it, each under conditions
that the command has checked.  Whatever all commands keep is proved for these changes one by one.
-/

namespace NodeGrid

namespace Grid

/-- The change that a command makes to the fabric of a grid. -/
inductive Effect (grid : Grid) : Command → Fabric → Prop where
  | idle (command : Command) : Effect grid command grid.fabric
  | addNode (room : grid.fabric.nodeCount < grid.settings.maxNodes) (node : Node) :
      Effect grid .addNode (grid.fabric.withModule (.node node))
  | removeNode {handle : Handle} {node : Node}
      (role : grid.fabric.role? handle = some (.node node)) :
      Effect grid (.removeNode handle) (grid.fabric.removeNode handle)
  | link {first second : Handle} {firstPort secondPort : Port}
      (passes : grid.fabric.checkEnds first firstPort second secondPort = .ok ()) :
      Effect grid (.link first firstPort second secondPort)
        (grid.fabric.connect first firstPort second secondPort)
  | unlink {handle : Handle} {port : Port} {link : Link}
      (linked : grid.fabric.link? handle port = some link) :
      Effect grid (.unlink handle port) (grid.fabric.unlinkPort handle port)
  | join {first second : Handle} {firstPort secondPort : Port}
      (passes : grid.fabric.checkEnds first firstPort second secondPort = .ok ()) :
      Effect grid (.join first firstPort second secondPort)
        (grid.fabric.joinPorts first firstPort second secondPort).2
  | split {handle : Handle} {half : Forwarder}
      (role : grid.fabric.role? handle = some (.forwarder half)) :
      Effect grid (.split handle) (grid.fabric.splitPair handle)
  | compile {handle : Handle} {node : Node}
      (role : grid.fabric.role? handle = some (.node node)) (source : List (List Char))
      (compiled : Node) :
      Effect grid (.compile handle source) (grid.restartNode handle compiled).fabric
  | setEnabled {handle : Handle} {node : Node}
      (role : grid.fabric.role? handle = some (.node node)) (enabled : Bool) :
      Effect grid (.setEnabled handle enabled)
        (grid.fabric.setRole handle (.node (node.setEnabled enabled)))
  | resetNode {handle : Handle} {node : Node}
      (role : grid.fabric.role? handle = some (.node node)) :
      Effect grid (.resetNode handle) (grid.restartNode handle node.reset).fabric
  | step (running : grid.power = .running) : Effect grid .step grid.fabric.tick

theorem effect_execute (grid : Grid) (command : Command) :
    grid.Effect command (grid.execute command).2.fabric := by
  cases command with
  | start | stop => exact .idle _
  | addNode =>
      simp only [execute, addNode]
      split
      next => exact .idle _
      next room => exact .addNode (Nat.lt_of_not_le room) _
  | removeNode handle =>
      simp only [execute, removeNode]
      cases known : grid.fabric.node handle with
      | error error => exact .idle _
      | ok node => exact .removeNode (Fabric.node_eq_ok known)
  | link first firstPort second secondPort =>
      simp only [execute, link]
      cases passes : grid.fabric.checkEnds first firstPort second secondPort with
      | error error => exact .idle _
      | ok => exact .link passes
  | unlink handle port =>
      simp only [execute, unlink, Fabric.module]
      cases found : grid.fabric.modules.get? handle with
      | none => exact .idle _
      | some member =>
          cases placed : member.ports.get port with
          | none => simpa [placed] using Effect.idle _
          | some link =>
              simpa [placed] using
                Effect.unlink (Fabric.link?_eq_some_iff.2 ⟨member, found, placed⟩)
  | join first firstPort second secondPort =>
      simp only [execute, join]
      cases passes : grid.fabric.checkEnds first firstPort second secondPort with
      | error error => exact .idle _
      | ok => exact .join passes
  | split handle =>
      simp only [execute, split]
      cases known : grid.fabric.forwarder handle with
      | error error => exact .idle _
      | ok half => exact .split (Fabric.forwarder_eq_ok known)
  | compile handle source =>
      simp only [execute, compile]
      cases known : grid.fabric.node handle with
      | error error => exact .idle _
      | ok node => exact .compile (Fabric.node_eq_ok known) source _
  | setEnabled handle enabled =>
      simp only [execute, setEnabled]
      cases known : grid.fabric.node handle with
      | error error => exact .idle _
      | ok node => exact .setEnabled (Fabric.node_eq_ok known) enabled
  | resetNode handle =>
      simp only [execute, resetNode]
      cases known : grid.fabric.node handle with
      | error error => exact .idle _
      | ok node => exact .resetNode (Fabric.node_eq_ok known)
  | step =>
      simp only [execute, step]
      cases power : grid.power with
      | stopped => exact .idle _
      | running => exact .step power

/-- A command other than a tick changes nothing besides the fabric and the power. -/
theorem execute_of_quiet (grid : Grid) {command : Command} (quiet : command ≠ .step) :
    ∃ fabric power, (grid.execute command).2 = { grid with fabric, power } := by
  cases command with
  | start | stop => exact ⟨_, _, rfl⟩
  | addNode =>
      simp only [execute, addNode]
      split <;> exact ⟨_, _, rfl⟩
  | removeNode handle =>
      simp only [execute, removeNode]
      cases grid.fabric.node handle <;> exact ⟨_, _, rfl⟩
  | link first firstPort second secondPort =>
      simp only [execute, link]
      cases grid.fabric.checkEnds first firstPort second secondPort <;> exact ⟨_, _, rfl⟩
  | unlink handle port =>
      simp only [execute, unlink]
      cases grid.fabric.module handle with
      | error error => exact ⟨_, _, rfl⟩
      | ok member =>
          dsimp only
          split <;> exact ⟨_, _, rfl⟩
  | join first firstPort second secondPort =>
      simp only [execute, join]
      cases grid.fabric.checkEnds first firstPort second secondPort <;> exact ⟨_, _, rfl⟩
  | split handle =>
      simp only [execute, split]
      cases grid.fabric.forwarder handle <;> exact ⟨_, _, rfl⟩
  | compile handle source =>
      simp only [execute, compile]
      cases grid.fabric.node handle <;> exact ⟨_, _, rfl⟩
  | setEnabled handle enabled =>
      simp only [execute, setEnabled]
      cases grid.fabric.node handle <;> exact ⟨_, _, rfl⟩
  | resetNode handle =>
      simp only [execute, resetNode]
      cases grid.fabric.node handle <;> exact ⟨_, _, rfl⟩
  | step => exact absurd rfl quiet

/-- No command changes the settings. -/
@[simp] theorem settings_execute (grid : Grid) (command : Command) :
    (grid.execute command).2.settings = grid.settings := by
  by_cases ticks : command = .step
  · subst ticks
    simp only [execute, step]
    cases grid.power <;> rfl
  · obtain ⟨fabric, power, same⟩ := grid.execute_of_quiet ticks
    rw [same]

@[simp] theorem settings_run (grid : Grid) (history : List Command) :
    (grid.run history).settings = grid.settings := by
  induction history generalizing grid with
  | nil => rfl
  | cons command rest ih => exact (ih _).trans (grid.settings_execute command)

/-- Only a step lets a tick pass. -/
theorem ticks_execute {grid : Grid} {command : Command} (quiet : command ≠ .step) :
    (grid.execute command).2.ticks = grid.ticks := by
  obtain ⟨fabric, power, same⟩ := grid.execute_of_quiet quiet
  rw [same]

end Grid

end NodeGrid
