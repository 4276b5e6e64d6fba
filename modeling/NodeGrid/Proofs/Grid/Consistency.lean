import NodeGrid.Proofs.Grid.Rest
import NodeGrid.Proofs.Node.Consistency

/-!
# The nodes of a grid come about by calls

A grid puts no node together by itself: it adds new ones and calls them.  So every node of a
reachable grid is one that some calls lead to, and whatever holds of a node after any calls holds of
the nodes of a grid.
-/

namespace NodeGrid

namespace Node

/-- The node is what some calls make of a new one. -/
def Called (node : Node) : Prop :=
  ∃ calls, node = run calls

namespace Called

theorem new : new.Called :=
  ⟨[], rfl⟩

variable {node : Node} (called : node.Called)
include called

theorem call (asked : Call) : (node.call asked).Called := by
  obtain ⟨calls, rfl⟩ := called
  exact ⟨calls ++ [asked], by simp [run]⟩

theorem after (ports : Ports) (pipes : PipeTable) : (node.after ports pipes).Called := by
  have stepped := called.call (.step (⟨ports, pipes⟩ : PortBus))
  rwa [Node.call, step_mk] at stepped

theorem consistent : node.Consistent := by
  obtain ⟨calls, rfl⟩ := called
  exact consistent_run calls

end Called

end Node

namespace Fabric

/-- All nodes have come about by calls. -/
def NodesCalled (fabric : Fabric) : Prop :=
  ∀ handle node, fabric.role? handle = some (.node node) → node.Called

namespace NodesCalled

theorem empty : Fabric.empty.NodesCalled := by
  intro handle node role
  simp at role

variable {fabric : Fabric} (called : fabric.NodesCalled)
include called

theorem withNode (wired : fabric.Wired) {new : Node} (made : new.Called) :
    (fabric.withModule (.node new)).NodesCalled := by
  intro handle node role
  rw [wired.role?_withModule] at role
  split at role
  next =>
    cases role
    exact made
  next => exact called _ _ role

theorem setNode {handle : Handle} {new : Node} (made : new.Called) :
    (fabric.setRole handle (.node new)).NodesCalled := by
  intro other node role
  rw [role?_setRole] at role
  split at role
  next =>
    obtain ⟨_, -, same⟩ := Option.map_eq_some_iff.1 role
    cases same
    exact made
  next => exact called _ _ role

/-- It is enough that no node is new. -/
theorem of_nodes {after : Fabric} (nodes : ∀ {handle node},
    after.role? handle = some (.node node) → fabric.role? handle = some (.node node)) :
    after.NodesCalled :=
  fun handle node role => called handle node (nodes role)

theorem connect (wired : fabric.Wired) {first second : Handle} {firstPort secondPort : Port}
    (passes : fabric.checkEnds first firstPort second secondPort = .ok ()) :
    (fabric.connect first firstPort second secondPort).NodesCalled := by
  obtain ⟨forth, back, made⟩ := wired.linked_of_checkEnds passes
  exact called.of_nodes fun role => (made.role _).symm.trans role

theorem joinPorts (wired : fabric.Wired) {first second : Handle} {firstPort secondPort : Port}
    (passes : fabric.checkEnds first firstPort second secondPort = .ok ()) :
    (fabric.joinPorts first firstPort second secondPort).2.NodesCalled := by
  obtain ⟨base, middle, _, _, _, _, joined⟩ := wired.joined_of_checkEnds passes
  exact called.of_nodes joined.node_before

theorem of_pruned {after : Fabric} (pruned : fabric.Pruned after) : after.NodesCalled := by
  obtain ⟨closed, removed, cut⟩ := pruned
  exact called.of_nodes cut.role?_of_role?

theorem stepModule (actor : Handle) : (fabric.stepModule actor).NodesCalled := by
  intro handle later role
  by_cases same : handle = actor
  · subst same
    obtain ⟨node, was⟩ := exists_node_of_stepModule role
    obtain ⟨ports, found⟩ := role?_eq_some_iff.1 was
    rw [role?_stepModule_node found] at role
    cases role
    exact (called _ _ was).after ports _
  · rw [role?_stepModule_of_ne same] at role
    exact called _ _ role

theorem stepModules (actors : List Handle) : (fabric.stepModules actors).NodesCalled := by
  induction actors generalizing fabric with
  | nil => exact called
  | cons actor rest ih => exact ih (called.stepModule actor)

theorem tick : fabric.tick.NodesCalled :=
  (called.stepModules fabric.modules.handles).of_nodes fun role => role

end NodesCalled

end Fabric

namespace Grid

theorem nodesCalled_restartNode {grid : Grid} (called : grid.fabric.NodesCalled) {handle : Handle}
    {new : Node} (made : new.Called) : (grid.restartNode handle new).fabric.NodesCalled := by
  have emptied : Fabric.NodesCalled { grid.fabric with pipes := _ } := called
  exact emptied.setNode made

/-- Every command adds a new node, calls one, or leaves the nodes alone. -/
theorem nodesCalled_execute {grid : Grid} (sound : grid.fabric.Sound)
    (called : grid.fabric.NodesCalled) (command : Command) :
    (grid.execute command).2.fabric.NodesCalled := by
  have wired := sound.lawful.wired
  cases command with
  | start | stop => exact called
  | addNode =>
      simp only [execute, addNode]
      split
      next => exact called
      next => exact called.withNode wired (Node.Called.new.call (.setEnabled true))
  | removeNode handle =>
      simp only [execute, removeNode]
      cases grid.fabric.node handle with
      | error error => exact called
      | ok node => exact called.of_pruned (wired.removeNode handle)
  | link first firstPort second secondPort =>
      simp only [execute, link]
      cases passes : grid.fabric.checkEnds first firstPort second secondPort with
      | error error => exact called
      | ok => exact called.connect wired passes
  | unlink handle port =>
      simp only [execute, unlink]
      cases grid.fabric.module handle with
      | error error => exact called
      | ok member =>
          dsimp only
          split
          next => exact called
          next => exact called.of_pruned (wired.unlinkPort handle port).1
  | join first firstPort second secondPort =>
      simp only [execute, join]
      cases passes : grid.fabric.checkEnds first firstPort second secondPort with
      | error error => exact called
      | ok => exact called.joinPorts wired passes
  | split handle =>
      simp only [execute, split]
      cases grid.fabric.forwarder handle with
      | error error => exact called
      | ok half => exact called.of_pruned (wired.splitPair handle).1
  | compile handle source =>
      simp only [execute, compile]
      cases known : grid.fabric.node handle with
      | error error => exact called
      | ok node =>
          exact nodesCalled_restartNode called
            ((called _ _ (Fabric.node_eq_ok known)).call (.compile _ _ source))
  | setEnabled handle enabled =>
      simp only [execute, setEnabled]
      cases known : grid.fabric.node handle with
      | error error => exact called
      | ok node =>
          exact called.setNode ((called _ _ (Fabric.node_eq_ok known)).call (.setEnabled enabled))
  | resetNode handle =>
      simp only [execute, resetNode]
      cases known : grid.fabric.node handle with
      | error error => exact called
      | ok node =>
          exact nodesCalled_restartNode called ((called _ _ (Fabric.node_eq_ok known)).call .reset)
  | step =>
      simp only [execute, step]
      cases grid.power with
      | stopped => exact called
      | running => exact called.tick

/-- Every node of a reachable grid is what some calls make of a new one. -/
theorem Reachable.nodesCalled {grid : Grid} (reachable : grid.Reachable) :
    grid.fabric.NodesCalled := by
  induction reachable with
  | new created =>
      rw [fabric_new created]
      exact .empty
  | execute reachable command ih => exact nodesCalled_execute reachable.sound ih command

end Grid

end NodeGrid
