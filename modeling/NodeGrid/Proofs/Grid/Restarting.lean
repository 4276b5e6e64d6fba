import NodeGrid.Proofs.Grid.Relinking
import NodeGrid.Proofs.Node.Recompile

/-!
# Starting a node again

A reset keeps the program and the text of a node, and compiling replaces them; everything else they
treat alike.  So what tells them apart is the core that a node would start again with.  Nothing but
compiling changes this core, whatever becomes of the registers, the switch and the links of the
node, and a node that is reset is left as compiling its source once more would leave it.
-/

namespace NodeGrid

open Assembly

namespace Core

@[simp] theorem resetRegisters_resetRegisters (core : Core) :
    core.resetRegisters.resetRegisters = core.resetRegisters := rfl

/-- A core that compiling leaves has initial registers. -/
theorem resetRegisters_compile (core : Core) (capacity limits : Extent)
    (source : List (List Char)) :
    (core.compile capacity limits source).2.resetRegisters =
      (core.compile capacity limits source).2 := by
  cases compiled : (Assembly.compile capacity limits source).outcome with
  | ok program => rw [compile_of_ok compiled]; rfl
  | error error => rw [compile_of_error compiled]; rfl

end Core

namespace Node

@[simp] theorem core_wake (node : Node) : node.wake.core = node.core := by
  unfold wake
  split <;> rfl

@[simp] theorem core_setEnabled (node : Node) (enabled : Bool) :
    (node.setEnabled enabled).core = node.core :=
  core_wake _

@[simp] theorem core_reset (node : Node) : node.reset.core = node.core.resetRegisters :=
  core_wake _

/-- A reset and compiling differ in the core that the node starts with, and in nothing else. -/
theorem reset_eq_compile {node : Node} {capacity limits : Extent} {source : List (List Char)}
    (restarts : node.core.resetRegisters = (node.core.compile capacity limits source).2) :
    node.reset = (node.compile capacity limits source).2 := by
  rw [reset, restarts]
  rfl

end Node

namespace Fabric

/-- There is a node, and it would start again with this core. -/
def Restores (fabric : Fabric) (handle : Handle) (core : Core) : Prop :=
  ∃ node, fabric.role? handle = some (.node node) ∧ node.core.resetRegisters = core

namespace Restores

variable {fabric after : Fabric} {handle : Handle} {core : Core}

theorem of_same_role (restores : fabric.Restores handle core)
    (same : after.role? handle = fabric.role? handle) : after.Restores handle core := by
  obtain ⟨node, role, starts⟩ := restores
  exact ⟨node, same.trans role, starts⟩

/-- The node may be replaced by one that would start again with the same core. -/
theorem setRole (restores : fabric.Restores handle core) {other : Handle} {old new : Node}
    (was : fabric.role? other = some (.node old))
    (kept : new.core.resetRegisters = old.core.resetRegisters) :
    (fabric.setRole other (.node new)).Restores handle core := by
  by_cases same : handle = other
  · obtain ⟨node, role, starts⟩ := restores
    subst same
    cases role.symm.trans was
    exact ⟨new, by simp [role?_setRole, was], kept.trans starts⟩
  · exact restores.of_same_role (by rw [role?_setRole, if_neg same])

theorem stepModule (restores : fabric.Restores handle core) (actor : Handle) :
    (fabric.stepModule actor).Restores handle core := by
  by_cases same : handle = actor
  · obtain ⟨node, role, starts⟩ := restores
    subst same
    obtain ⟨ports, found⟩ := role?_eq_some_iff.1 role
    exact ⟨_, role?_stepModule_node found, (node.resetRegisters_next _ _).trans starts⟩
  · exact restores.of_same_role (role?_stepModule_of_ne same)

theorem stepModules (restores : fabric.Restores handle core) (actors : List Handle) :
    (fabric.stepModules actors).Restores handle core := by
  induction actors generalizing fabric with
  | nil => exact restores
  | cons actor rest ih => exact ih (restores.stepModule actor)

theorem tick (restores : fabric.Restores handle core) : fabric.tick.Restores handle core :=
  (restores.stepModules fabric.modules.handles).of_same_role (role?_commit _ _)

end Restores

end Fabric

namespace Grid

theorem role?_restartNode {grid : Grid} {handle : Handle} {old : Node}
    (was : grid.fabric.role? handle = some (.node old)) (new : Node) :
    (grid.restartNode handle new).fabric.role? handle = some (.node new) := by
  rw [restartNode, Fabric.role?_setRole, if_pos rfl]
  change (grid.fabric.role? handle).map _ = _
  rw [was, Option.map_some]

theorem compile_snd {grid : Grid} {handle : Handle} {node : Node}
    (known : grid.fabric.node handle = .ok node) (source : List (List Char)) :
    (grid.compile handle source).2 =
      grid.restartNode handle (node.compile nodeCapacity grid.settings.limits source).2 := by
  simp only [compile, known]

theorem resetNode_of_node {grid : Grid} {handle : Handle} {node : Node}
    (known : grid.fabric.node handle = .ok node) :
    grid.resetNode handle = (.ok (), grid.restartNode handle node.reset) := by
  simp only [resetNode, known]

section Execute

variable {grid : Grid} {handle : Handle} {core : Core}

theorem restores_of_drives (restores : grid.fabric.Restores handle core) {command : Command}
    (drives : command.drives) : (grid.execute command).2.fabric.Restores handle core := by
  cases command with
  | start | stop => exact restores
  | setEnabled other enabled =>
      simp only [execute, setEnabled]
      cases known : grid.fabric.node other with
      | error error => exact restores
      | ok node => exact restores.setRole (Fabric.node_eq_ok known) (by simp)
  | step =>
      simp only [execute, step]
      cases grid.power with
      | stopped => exact restores
      | running => exact restores.tick
  | _ => simp [Command.drives] at drives

/-- A reset ends where the next one begins. -/
theorem restores_resetNode (restores : grid.fabric.Restores handle core) (other : Handle) :
    (grid.resetNode other).2.fabric.Restores handle core := by
  cases known : grid.fabric.node other with
  | error error =>
      simp only [resetNode, known]
      exact restores
  | ok node =>
      rw [resetNode_of_node known]
      have emptied : Fabric.Restores { grid.fabric with pipes := _ } handle core := restores
      exact emptied.setRole (Fabric.node_eq_ok known) (by simp)

/-- A command that neither removes a node nor compiles a source into it leaves it the core that it
would start again with. -/
theorem restores_execute (sound : grid.fabric.Sound) (restores : grid.fabric.Restores handle core)
    {command : Command} (stays : command ≠ .removeNode handle)
    (keeps : ∀ source, command ≠ .compile handle source) :
    (grid.execute command).2.fabric.Restores handle core := by
  by_cases drives : command.drives
  · exact restores_of_drives restores drives
  by_cases abandons : command.abandons handle
  · cases command with
    | removeNode other => exact absurd (by simpa [Command.abandons] using abandons) stays
    | compile other source =>
        exact absurd (by simpa [Command.abandons] using abandons) (keeps source)
    | resetNode other => exact restores_resetNode restores other
    | _ => simp [Command.abandons] at abandons
  · obtain ⟨node, role, starts⟩ := restores
    have spares := (effect_execute grid command).spares sound role drives abandons
    exact ⟨node, spares.role.trans role, starts⟩

theorem restores_run (sound : grid.fabric.Sound) (restores : grid.fabric.Restores handle core)
    {history : List Command} (stays : .removeNode handle ∉ history)
    (keeps : ∀ source, .compile handle source ∉ history) :
    (grid.run history).fabric.Restores handle core := by
  induction history generalizing grid with
  | nil => exact restores
  | cons command rest ih =>
      simp only [List.mem_cons, not_or] at stays keeps
      apply ih (sound_execute sound command)
      · exact restores_execute sound restores (Ne.symm stays.1) fun source =>
          Ne.symm (keeps source).1
      · exact stays.2
      · exact fun source => (keeps source).2

end Execute

/-- Whatever has been done since a source was compiled into a node, whether or not it compiled,
resetting the node leads to the same grid as compiling the source once more. -/
theorem Reachable.resetNode_eq_compile {before : Grid} (reachable : before.Reachable)
    {handle : Handle} {node : Node} (known : before.fabric.node handle = .ok node)
    (source : List (List Char)) {later : List Command} (stays : .removeNode handle ∉ later)
    (latest : ∀ other, .compile handle other ∉ later) :
    let now := (before.compile handle source).2.run later
    (now.resetNode handle).1 = .ok () ∧
      (now.resetNode handle).2 = (now.compile handle source).2 := by
  intro now
  have settings : now.settings = before.settings := by
    rw [settings_run, compile_snd known]
    rfl
  have sound : (before.compile handle source).2.fabric.Sound :=
    sound_execute reachable.sound (.compile handle source)
  have compiled : (before.compile handle source).2.fabric.Restores handle
      (node.core.compile nodeCapacity before.settings.limits source).2 := by
    rw [compile_snd known]
    refine ⟨_, role?_restartNode (Fabric.node_eq_ok known) _, ?_⟩
    exact (congrArg Core.resetRegisters (Node.core_wake _)).trans
      (Core.resetRegisters_compile _ _ _ _)
  obtain ⟨last, role, starts⟩ := restores_run sound compiled stays latest
  have found : now.fabric.node handle = .ok last := Fabric.node_eq_ok_iff.2 role
  have same : last.reset = (last.compile nodeCapacity now.settings.limits source).2 := by
    apply Node.reset_eq_compile
    rw [starts, settings]
    exact congrArg Prod.snd (Core.compile_eq_compile _ _ _ _ _)
  rw [resetNode_of_node found, compile_snd found, same]
  exact ⟨rfl, rfl⟩

/-- What happens to the writing node of two linked ones: it gets a new source, its word is claimed,
and it is disabled before it has seen the claim. -/
def interrupting : List Command :=
  [.step, .step, .setEnabled ⟨0, 0⟩ false]

/-- A disabled node whose word has been claimed starts again as if compiled once more. -/
theorem handingOver_reset_amid_write :
    let now := (handingOver.compile ⟨0, 0⟩ ["MOV 5 RIGHT".toList]).2.run interrupting
    handingOver.Reachable ∧ now.fabric.pipes.pipe? ⟨0⟩ = some .delivered ∧
      (now.fabric.node ⟨0, 0⟩).map (·.activity) = .ok (.waitingWrite ⟨5, .port .right⟩) ∧
      (now.resetNode ⟨0, 0⟩).1 = .ok () ∧
      (now.resetNode ⟨0, 0⟩).2 = (now.compile ⟨0, 0⟩ ["MOV 5 RIGHT".toList]).2 := by
  have reachable : handingOver.Reachable := standard_reachable.run _
  let node := (handingOver.fabric.node ⟨0, 0⟩).toOption.getD .new
  have known : handingOver.fabric.node ⟨0, 0⟩ = .ok node := by decide +kernel
  refine ⟨reachable, by decide +kernel, by decide +kernel, ?_⟩
  exact reachable.resetNode_eq_compile known _ (by simp [interrupting]) (by simp [interrupting])

end Grid

end NodeGrid
