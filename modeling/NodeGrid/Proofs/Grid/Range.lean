import NodeGrid.Proofs.Fabric.Conveyance
import NodeGrid.Proofs.Fabric.Motion
import NodeGrid.Proofs.Grid.Rest
import NodeGrid.Proofs.Node.Range

/-!
# Words of a grid stay in range

A pipe is given words by nodes that wait to write them and by forwarders that have taken them from
another pipe.  So nodes and pipes keep each other in range, although neither a move nor a pipe
saturates what it is given.
-/

namespace NodeGrid

open Assembly

/-- The word in a pipe, if there is one, lies in the register range. -/
def Pipe.InRange (pipe : Pipe) : Prop :=
  ∀ value, pipe.word? = some value → value.InRange

theorem Pipe.Moves.inRange {drawn : Prop} {puts : Word → Prop} {before after : Pipe}
    (moves : Moves drawn puts before after) (ranged : before.InRange)
    (offers : ∀ value, puts value → value.InRange) : after.InRange := by
  cases moves with
  | stay => exact ranged
  | leave | take => exact nofun
  | put unmarked offered =>
      intro value same
      cases same
      exact offers _ offered

namespace Fabric

/-- All words of the nodes and all words in the pipes lie in the register range. -/
structure InRange (fabric : Fabric) : Prop where
  nodes : ∀ {handle node}, fabric.role? handle = some (.node node) → node.InRange
  pipes : ∀ {id entry}, fabric.pipes.get? id = some entry → entry.pipe.InRange

namespace InRange

theorem empty : InRange empty where
  nodes := by simp
  pipes := by simp [Fabric.empty]

variable {fabric : Fabric} (ranged : fabric.InRange)
include ranged

theorem of_ready {id : PipeId} {value : Word} (ready : fabric.pipes.pipe? id = some (.ready value)) :
    value.InRange := by
  obtain ⟨entry, opened, holds⟩ := PipeTable.pipe?_eq_some_iff.1 ready
  exact ranged.pipes opened value (by rw [holds, Pipe.word?])

/-- A word that has arrived at a port has come through a pipe. -/
theorem arrival (node : Node) (ports : Ports) :
    ArrivalInRange (node.arrival? ports fabric.pipes) := by
  intro port value arrives
  obtain ⟨polled, -, found⟩ := List.exists_of_findSome?_eq_some (show _ = _ from arrives)
  obtain ⟨word, ready, same⟩ := Option.map_eq_some_iff.1 found
  cases same
  obtain ⟨link, -, holds⟩ := Option.bind_eq_some_iff.1 ready
  exact ranged.of_ready (PipeTable.peek?_eq_some_iff.1 holds)

theorem after {handle : Handle} {ports : Ports} {node : Node}
    (found : fabric.modules.get? handle = some ⟨ports, .node node⟩) :
    (node.after ports fabric.pipes).InRange :=
  (ranged.nodes (role?_eq_some_iff.2 ⟨ports, found⟩)).next (ranged.arrival node ports) _

theorem puts {handle : Handle} {id : PipeId} {value : Word}
    (offers : fabric.Puts handle id value) : value.InRange := by
  cases offers with
  | write found puts =>
      obtain ⟨write, waits, rfl, -⟩ := puts
      exact (ranged.after found).pending write waits
  | pass course passes => exact ranged.of_ready (Forwarder.pipe?_of_passed passes)

/-- An action of a module keeps all words in range. -/
theorem stepModule (handle : Handle) : (fabric.stepModule handle).InRange where
  nodes := by
    intro other later role
    by_cases same : other = handle
    · subst same
      obtain ⟨node, was⟩ := exists_node_of_stepModule role
      obtain ⟨ports, found⟩ := role?_eq_some_iff.1 was
      rw [role?_stepModule_node found] at role
      cases role
      exact ranged.after found
    · rw [role?_stepModule_of_ne same] at role
      exact ranged.nodes role
  pipes := by
    intro id later opened
    obtain ⟨entry, earlier, -, moves⟩ := fabric.moves_stepModule handle id later opened
    exact moves.inRange (ranged.pipes earlier) fun _ => ranged.puts

theorem stepModules (handles : List Handle) : (fabric.stepModules handles).InRange := by
  induction handles generalizing fabric with
  | nil => exact ranged
  | cons handle rest ih => exact ih (ranged.stepModule handle)

theorem commit : fabric.commit.InRange where
  nodes := ranged.nodes
  pipes := by
    intro id later stepped
    obtain ⟨entry, opened, rfl⟩ := exists_of_commit stepped
    intro value holds
    rw [Pipe.word?_commit] at holds
    exact ranged.pipes opened value holds

theorem tick : fabric.tick.InRange :=
  (ranged.stepModules _).commit

/-- Between ticks the pipes get no new words, so it is enough that every new node is in range. -/
theorem of_rests {after : Fabric} (rests : fabric.Rests after)
    (nodes : ∀ {handle node}, after.role? handle = some (.node node) → node.InRange) :
    after.InRange where
  nodes := nodes
  pipes := by
    intro id entry opened
    rcases rests.pipes opened with empty | earlier
    · rw [empty]
      exact nofun
    · exact ranged.pipes earlier

end InRange

end Fabric

namespace Grid

/-- A node that is put in the place of another one is the only node that changes. -/
theorem inRange_setNode {before after : Fabric} (ranged : before.InRange) {handle : Handle}
    {new : Node} (inside : new.InRange)
    (roles : ∀ other, after.role? other = before.role? other) {other : Handle} {node : Node}
    (role : (after.setRole handle (.node new)).role? other = some (.node node)) : node.InRange := by
  rw [Fabric.role?_setRole] at role
  split at role
  next =>
    obtain ⟨_, -, same⟩ := Option.map_eq_some_iff.1 role
    cases same
    exact inside
  next =>
    rw [roles] at role
    exact ranged.nodes role

/-- Commands that bring in no new program leave the nodes in range. -/
theorem Effect.node_inRange {grid : Grid} {command : Command} {after : Fabric}
    (effect : grid.Effect command after) (sound : grid.fabric.Sound)
    (ranged : grid.fabric.InRange) (adds : command ≠ .addNode)
    (compiles : ∀ handle source, command ≠ .compile handle source) {handle : Handle} {node : Node}
    (role : after.role? handle = some (.node node)) : node.InRange := by
  have wired := sound.lawful.wired
  have of_pruned : grid.fabric.Pruned after → node.InRange := by
    rintro ⟨closed, removed, cut⟩
    exact ranged.nodes (cut.role?_of_role? role)
  cases effect with
  | idle => exact ranged.nodes role
  | addNode => exact absurd rfl adds
  | removeNode => exact of_pruned (wired.removeNode _)
  | link passes =>
      obtain ⟨forth, back, made⟩ := wired.linked_of_checkEnds passes
      exact ranged.nodes ((made.role handle).symm.trans role)
  | unlink => exact of_pruned (wired.unlinkPort _ _).1
  | join passes =>
      obtain ⟨base, middle, _, _, _, _, joined⟩ := wired.joined_of_checkEnds passes
      exact ranged.nodes (joined.node_before role)
  | split => exact of_pruned (wired.splitPair _).1
  | compile => exact absurd rfl (compiles _ _)
  | setEnabled was enabled =>
      exact inRange_setNode ranged ((ranged.nodes was).setEnabled enabled) (fun _ => rfl) role
  | resetNode was => exact inRange_setNode ranged (ranged.nodes was).reset (fun _ => rfl) role
  | step => exact ranged.tick.nodes role

/-- Every command leaves the nodes in range: a new node holds zeros, and the literals of a new
program have been saturated. -/
theorem node_inRange_execute {grid : Grid} (sound : grid.fabric.Sound)
    (ranged : grid.fabric.InRange) (command : Command) {handle : Handle} {node : Node}
    (role : (grid.execute command).2.fabric.role? handle = some (.node node)) : node.InRange := by
  cases command with
  | addNode =>
      simp only [execute, addNode] at role
      split at role
      next => exact ranged.nodes role
      next =>
        rw [Prod.map_snd, id] at role
        have now := (sound.lawful.wired.role?_withModule _ handle).symm.trans role
        split at now
        next =>
          cases now
          exact Node.inRange_new.setEnabled true
        next => exact ranged.nodes now
  | compile place source =>
      simp only [execute, compile] at role
      cases known : grid.fabric.node place with
      | error error =>
          rw [known] at role
          exact ranged.nodes role
      | ok old =>
          rw [known] at role
          exact inRange_setNode ranged (old.inRange_compile _ _ source) (fun _ => rfl) role
  | start | stop | removeNode | link | unlink | join | split | setEnabled | resetNode | step =>
      exact (effect_execute grid _).node_inRange sound ranged (by simp) (by simp) role

theorem inRange_execute {grid : Grid} (sound : grid.fabric.Sound) (ranged : grid.fabric.InRange)
    (command : Command) : (grid.execute command).2.fabric.InRange := by
  by_cases ticks : command = .step
  · subst ticks
    cases power : grid.power with
    | stopped => simpa [execute, step, power] using ranged
    | running => simpa [execute, step, power] using ranged.tick
  · exact ranged.of_rests ((effect_execute grid command).rests sound ticks)
      (node_inRange_execute sound ranged command)

theorem Reachable.inRange {grid : Grid} (reachable : grid.Reachable) : grid.fabric.InRange := by
  induction reachable with
  | new created =>
      rw [fabric_new created]
      exact .empty
  | execute reachable command ih => exact inRange_execute reachable.sound ih command

/-- Whatever has been done to a grid, the registers of every node, the word that it waits to write,
the literals of its program and the words in all pipes lie between -999 and 999, although a move
puts the word that it is given into the accumulator or on its way as it is. -/
theorem Reachable.words_in_range {grid : Grid} (reachable : grid.Reachable) :
    (∀ handle node, grid.fabric.node handle = .ok node →
      node.core.registers.acc.InRange ∧ node.core.registers.bak.InRange ∧
      (∀ write, node.activity = .waitingWrite write → write.value.InRange) ∧
      ∀ instruction ∈ node.core.program.instructions, ∀ value,
        instruction.input = .literal value → value.InRange) ∧
    (∀ id pipe value, grid.fabric.pipes.pipe? id = some pipe → pipe.word? = some value →
      value.InRange) ∧
    ∀ (core : Core) (source : Operand) (value : Word),
      (core.perform value (.move source .acc)).registers.acc = value ∧
      ∀ target write, core.outgoing? value (.move source target) = some write →
        write.value = value := by
  have ranged := reachable.inRange
  refine ⟨?nodes, ?pipes, fun core source value => ⟨rfl, fun _ _ => Core.outgoing?_value⟩⟩
  case nodes =>
    intro handle node known
    have inside := ranged.nodes (Fabric.node_eq_ok known)
    refine ⟨inside.core.acc, inside.core.bak, inside.pending, ?_⟩
    intro instruction mem value literal
    have operand := inside.core.program instruction mem
    rw [Instruction.InRange, literal] at operand
    exact operand
  case pipes =>
    intro id pipe value holds carries
    obtain ⟨entry, opened, rfl⟩ := PipeTable.pipe?_eq_some_iff.1 holds
    exact ranged.pipes opened value carries

/-- Two linked nodes.  The first raises its accumulator beyond the range and sends it on; the second
complements what it gets and keeps half of it as a backup. -/
def overflowing : Grid :=
  standard.run
    [.addNode, .addNode, .link ⟨0, 0⟩ .right ⟨1, 0⟩ .left,
      .compile ⟨0, 0⟩ ["ADD 2000".toList, "SHL 15".toList, "MOV ACC RIGHT".toList],
      .compile ⟨1, 0⟩ ["MOV LEFT ACC".toList, "NOT".toList, "SAV".toList, "SHL 9".toList],
      .start, .step, .step, .step]

/-- A literal and a shift beyond the range have ended at its edge, and so has the word in the
pipe. -/
theorem overflowing_in_range : overflowing.Reachable ∧
    (∃ node, overflowing.fabric.node ⟨0, 0⟩ = .ok node ∧ node.core.registers.acc = 999 ∧
      node.core.registers.acc.InRange) ∧
    overflowing.fabric.pipes.pipe? ⟨0⟩ = some (.ready 999) ∧ (999 : Word).InRange := by
  have reachable : overflowing.Reachable := standard_reachable.run _
  obtain ⟨nodes, pipes, -⟩ := reachable.words_in_range
  have ready : overflowing.fabric.pipes.pipe? ⟨0⟩ = some (.ready 999) := by decide +kernel
  have acc : (overflowing.fabric.node ⟨0, 0⟩).toOption.map (·.core.registers.acc) = some 999 := by
    decide +kernel
  cases known : overflowing.fabric.node ⟨0, 0⟩ with
  | error error => simp [known, Except.toOption] at acc
  | ok node =>
      rw [known] at acc
      exact ⟨reachable, ⟨node, rfl, Option.some.inj acc, (nodes _ _ known).1⟩, ready,
        pipes _ _ _ ready rfl⟩

end Grid

end NodeGrid
