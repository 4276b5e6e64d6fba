import NodeGrid.Proofs.Grid.Consistency
import NodeGrid.Proofs.Grid.HandOver
import NodeGrid.Proofs.Node.Claims

/-!
# Nodes at ports that lead nowhere

A node that is to read or write through ports of which none is linked can only wait, and it does so
without a trace.  A node that waits for a write goes on at a claim at any of its ports, so this rests
on there being no claim at the ports that it does not write to: what is in its pipes belongs to the
pending write, and the pending write reaches no pipe.
-/

namespace NodeGrid

namespace Core

/-- A read through ports has no word to give while none has arrived. -/
theorem take_none_of_waits {core : Core} {place : Target} (waits : core.Waits place) :
    core.take (.target place) none = none := by
  cases place with
  | acc | nil => simp [Waits, Target.isPort] at waits
  | port side | any => rfl
  | last =>
      obtain ⟨side, last⟩ := Option.isSome_iff_exists.1 (waits.2 rfl)
      simp [take, last]

/-- An operand for which no port is polled is at hand. -/
theorem exists_take_of_polled_nil {core : Core} {operand : Operand}
    (local_ : core.polled operand = []) (arrival : Option (Port × Word)) :
    ∃ value, core.take operand arrival = some (value, core) := by
  cases operand with
  | literal value => exact ⟨value, rfl⟩
  | target place =>
      cases place with
      | acc | nil => exact ⟨_, rfl⟩
      | port side | any => simp [polled, reach, Port.all] at local_
      | last =>
          have last : core.registers.last = none := by simpa [polled, reach] using local_
          exact ⟨0, by simp [take, last]⟩

/-- A move to ports becomes a pending write. -/
theorem outgoing?_of_waits {core : Core} {target : Target} (waits : core.Waits target)
    (value : Word) (source : Operand) :
    core.outgoing? value (.move source target) = some ⟨value, target⟩ := by
  cases target with
  | acc | nil => simp [Waits, Target.isPort] at waits
  | port side | any => rfl
  | last =>
      obtain ⟨side, last⟩ := Option.isSome_iff_exists.1 (waits.2 rfl)
      simp [outgoing?, last]

end Core

namespace Fabric

/-- A target is accessed through ports, and none of these is linked. -/
structure Severed (fabric : Fabric) (handle : Handle) (core : Core) (target : Target) : Prop where
  waits : core.Waits target
  unlinked : ∀ port ∈ core.reach target, fabric.link? handle port = none

/-- A node has an access before it that cannot succeed, and this is the status in which it is then
left to wait. -/
inductive Stuck (fabric : Fabric) (handle : Handle) (node : Node) : Status → Prop where
  /-- It is to read from a severed target, for an instruction that it has not read for yet. -/
  | read {instruction : Instruction} {place : Target}
      (stands : node.core.instruction? = some instruction)
      (reads : instruction.input = .target place) (unread : node.pending? = none)
      (severed : fabric.Severed handle node.core place) : Stuck fabric handle node .waitingRead
  /-- It is to move what it has at hand, a literal say or the accumulator, to a severed target. -/
  | write {source : Operand} {target : Target}
      (stands : node.core.instruction? = some (.move source target))
      (at_hand : node.core.polled source = [])
      (severed : fabric.Severed handle node.core target) : Stuck fabric handle node .waitingWrite
  /-- It waits for a write to a severed target already. -/
  | written {write : PendingWrite} (waiting : node.activity = .waitingWrite write)
      (severed : fabric.Severed handle node.core write.target) :
      Stuck fabric handle node .waitingWrite

/-- What a stuck node does in its next step: it reads, it begins to write, or it goes on waiting for
its write. -/
inductive Attempts (fabric : Fabric) (handle : Handle) (node : Node) : Status → Prop where
  | read {instruction : Instruction} {place : Target} (runs : node.Runs instruction)
      (reads : instruction.input = .target place)
      (severed : fabric.Severed handle node.core place) : Attempts fabric handle node .waitingRead
  | write {source : Operand} {target : Target} (runs : node.Runs (.move source target))
      (at_hand : node.core.polled source = [])
      (severed : fabric.Severed handle node.core target) :
      Attempts fabric handle node .waitingWrite
  | wait {write : PendingWrite} (waiting : node.activity = .waitingWrite write)
      (severed : fabric.Severed handle node.core write.target) :
      Attempts fabric handle node .waitingWrite

/-- A node that fits its program and waits for no write runs the instruction that it stands at. -/
theorem runs_of_stands {node : Node} (consistent : node.Consistent) (enabled : node.enabled)
    {instruction : Instruction} (stands : node.core.instruction? = some instruction)
    (unwritten : node.pending? = none) : node.Runs instruction := by
  refine ⟨enabled, ?_, stands⟩
  cases activity : node.activity with
  | idle =>
      have fits := consistent.activity
      rw [Node.FitsProgram, activity] at fits
      have none_fetched : node.core.instruction? = none := by
        simp [Core.instruction?, Assembly.Program.instruction?, List.isEmpty_iff.1 (fits enabled)]
      cases none_fetched.symm.trans stands
  | running => exact .inl rfl
  | waitingRead => exact .inr rfl
  | waitingWrite write => simp [Node.pending?, activity] at unwritten

variable {fabric : Fabric} {handle : Handle} {node : Node} {status : Status}

theorem Stuck.attempts (stuck : fabric.Stuck handle node status) (consistent : node.Consistent)
    (enabled : node.enabled) : fabric.Attempts handle node status := by
  cases stuck with
  | read stands reads unread severed =>
      exact .read (runs_of_stands consistent enabled stands unread) reads severed
  | written waiting severed => exact .wait waiting severed
  | write stands at_hand severed =>
      cases pending : node.pending? with
      | none => exact .write (runs_of_stands consistent enabled stands pending) at_hand severed
      | some write =>
          -- The write that is pending is the one of this instruction.
          have waiting := Node.pending?_eq_some_iff.1 pending
          have fits := consistent.activity
          rw [Node.FitsProgram, waiting] at fits
          obtain ⟨⟨_, moves⟩, -⟩ := fits
          cases stands.symm.trans moves
          exact .wait waiting severed

/-- Whether a node is stuck depends on its links alone. -/
theorem Stuck.of_links (stuck : fabric.Stuck handle node status) {after : Fabric}
    (links : ∀ port, after.link? handle port = fabric.link? handle port) :
    after.Stuck handle node status := by
  have still : ∀ {target}, fabric.Severed handle node.core target →
      after.Severed handle node.core target :=
    fun severed => ⟨severed.waits, fun port member =>
      (links port).trans (severed.unlinked port member)⟩
  cases stuck with
  | read stands reads unread severed => exact .read stands reads unread (still severed)
  | write stands at_hand severed => exact .write stands at_hand (still severed)
  | written waiting severed => exact .written waiting (still severed)

/-! ## One action -/

namespace Attempts

variable (attempts : fabric.Attempts handle node status) (lawful : fabric.Lawful)
variable {ports : Ports} (found : fabric.modules.get? handle = some ⟨ports, .node node⟩)
include attempts lawful found

/-- The node has nothing in its pipes. -/
theorem sent?_eq_empty {port : Port} {pipe : Pipe} (sends : fabric.sent? handle port = some pipe) :
    pipe = .empty := by
  obtain ⟨link, entry, linked, opened, rfl⟩ := sent?_eq_some_iff.1 sends
  have role : fabric.role? handle = some (.node node) := role?_eq_some_iff.2 ⟨ports, found⟩
  by_contra nonempty
  obtain ⟨write, awaited, reached, -⟩ := lawful.coherent.awaited role linked opened nonempty
  cases attempts with
  | read runs | write runs => exact runs.not_waiting (by rw [awaited]; rfl)
  | wait waiting severed =>
      cases waiting.symm.trans awaited
      cases (severed.unlinked port reached).symm.trans linked

omit lawful in
/-- No word arrives at the node. -/
theorem arrival?_eq_none : node.arrival? ports fabric.pipes = none := by
  have at_none : ∀ {target}, fabric.Severed handle node.core target →
      ∀ port ∈ node.core.reach target, ∀ value, ¬fabric.pipes.ReadyAt ports port value := by
    rintro target severed port member value ⟨link, linked, -⟩
    have unlinked := severed.unlinked port member
    rw [link?_eq_get found, linked] at unlinked
    cases unlinked
  cases attempts with
  | read runs reads severed =>
      rw [runs.arrival?_eq, reads]
      exact PipeTable.firstArrival_eq_none_iff.2 (at_none severed)
  | write runs at_hand severed =>
      rw [runs.arrival?_eq, show node.core.polled (Instruction.move _ _).input = [] from at_hand]
      rfl
  | wait waiting severed =>
      have polls : node.polled = [] := by simp [Node.polled, waiting]
      rw [Node.arrival?, polls]
      rfl

theorem delivery?_eq_none : node.delivery? ports fabric.pipes = none := by
  refine Option.eq_none_iff_forall_not_mem.2 fun port delivery => ?_
  obtain ⟨-, -, link, entry, linked, opened, delivered⟩ := Node.delivered_of_delivery delivery
  have sends := sent?_eq_some_iff.2
    ⟨link, entry, (link?_eq_get found port).trans linked, opened, rfl⟩
  rw [attempts.sent?_eq_empty lawful found sends] at delivered
  cases delivered

/-- The step leaves the node as it was, but waiting. -/
theorem after_eq : ∃ activity, node.after ports fabric.pipes = { node with activity } ∧
    activity.status = status ∧ fabric.Stuck handle { node with activity } status := by
  have arrival := attempts.arrival?_eq_none found
  have delivery := attempts.delivery?_eq_none lawful found
  cases attempts with
  | read runs reads severed =>
      refine ⟨.waitingRead, runs.after_of_take_eq_none ?_, rfl, .read runs.stands reads rfl severed⟩
      rw [arrival, reads]
      exact Core.take_none_of_waits severed.waits
  | @write source target runs at_hand severed =>
      obtain ⟨value, taken⟩ := Core.exists_take_of_polled_nil at_hand
        (node.arrival? ports fabric.pipes)
      refine ⟨.waitingWrite ⟨value, target⟩, ?_, rfl, .written rfl severed⟩
      rw [runs.after_of_take_eq_some taken, Node.resolve]
      simp only [Core.outgoing?_of_waits severed.waits]
  | @wait write waiting severed =>
      refine ⟨.waitingWrite write, ?_, rfl, .written rfl severed⟩
      rw [Node.after_of_waiting waiting delivery, ← waiting]

end Attempts

/-- There is an enabled node with this core that is stuck, and once it has acted it has come to the
status in which it is to wait. -/
structure Stalls (fabric : Fabric) (handle : Handle) (core : Core) (status : Status)
    (acted : Prop) (node : Node) : Prop where
  role : fabric.role? handle = some (.node node)
  core : node.core = core
  enabled : node.enabled
  consistent : node.Consistent
  stuck : fabric.Stuck handle node status
  reached : acted → node.activity.status = status

namespace Stalls

variable {core : Core} {acted : Prop} (stalls : fabric.Stalls handle core status acted node)
include stalls

theorem attempts : fabric.Attempts handle node status :=
  stalls.stuck.attempts stalls.consistent stalls.enabled

theorem of_reached {other : Prop} (reached : other → node.activity.status = status) :
    fabric.Stalls handle core status other node :=
  { stalls with reached }

/-- The node takes no word. -/
theorem drawn?_eq_none : fabric.drawn? handle = none := by
  obtain ⟨ports, found⟩ := role?_eq_some_iff.1 stalls.role
  rw [drawn?_node found, Node.drawn?, stalls.attempts.arrival?_eq_none found, Option.bind_none]

theorem sent?_eq_empty (lawful : fabric.Lawful) {port : Port} {pipe : Pipe}
    (sends : fabric.sent? handle port = some pipe) : pipe = .empty := by
  obtain ⟨ports, found⟩ := role?_eq_some_iff.1 stalls.role
  exact stalls.attempts.sent?_eq_empty lawful found sends

/-- Nothing matters to the node but itself and its links. -/
theorem of_same {after : Fabric} (role : after.role? handle = fabric.role? handle)
    (links : ∀ port, after.link? handle port = fabric.link? handle port) :
    after.Stalls handle core status acted node :=
  { stalls with role := role.trans stalls.role, stuck := stalls.stuck.of_links links }

theorem stepModule (lawful : fabric.Lawful) (actor : Handle) :
    ∃ later, (fabric.stepModule actor).Stalls handle core status (acted ∨ actor = handle) later := by
  have links := fun port => link?_stepModule fabric actor handle port
  by_cases same : handle = actor
  · subst same
    obtain ⟨ports, found⟩ := role?_eq_some_iff.1 stalls.role
    obtain ⟨activity, after, waits, stuck⟩ := stalls.attempts.after_eq lawful found
    refine ⟨{ node with activity }, ?_⟩
    exact
      { role := by rw [role?_stepModule_node found, after]
        core := stalls.core
        enabled := stalls.enabled
        consistent := after ▸ stalls.consistent.next _ _
        stuck := stuck.of_links links
        reached := fun _ => waits }
  · have kept := stalls.of_same (role?_stepModule_of_ne same) links
    exact ⟨node, kept.of_reached fun acted =>
      stalls.reached (acted.resolve_right (Ne.symm same))⟩

theorem stepModules (lawful : fabric.Lawful) (actors : List Handle) :
    ∃ later, (fabric.stepModules actors).Stalls handle core status (acted ∨ handle ∈ actors)
      later := by
  induction actors generalizing fabric acted node with
  | nil => exact ⟨node, stalls.of_reached (by simpa using stalls.reached)⟩
  | cons actor rest ih =>
      obtain ⟨next, first⟩ := stalls.stepModule lawful actor
      obtain ⟨later, both⟩ := ih first (lawful.stepModule actor)
      refine ⟨later, both.of_reached fun acted => both.reached ?_⟩
      rwa [List.mem_cons, eq_comm, ← or_assoc] at acted

/-- In a tick every module acts. -/
theorem tick (lawful : fabric.Lawful) :
    ∃ later, fabric.tick.Stalls handle core status True later := by
  obtain ⟨later, after⟩ := stalls.stepModules lawful fabric.modules.handles
  have kept := after.of_same (role?_commit _ _) (link?_commit _ _)
  exact ⟨later, kept.of_reached fun _ =>
    after.reached (.inr (mem_handles_of_role stalls.role))⟩

/-- Whenever the node has its turn, it claims nothing. -/
theorem claimed_eq_nil (lawful : fabric.Lawful) {actors : List Handle} {act : Act}
    (member : act ∈ fabric.acts actors) (actor : act.actor = handle) : act.claimed = [] := by
  obtain ⟨earlier, rest, -, before⟩ := mem_acts_iff.1 member
  obtain ⟨later, then_⟩ := stalls.stepModules lawful earlier
  rw [Act.claimed_eq, before, actor, then_.drawn?_eq_none, Option.toList_none]

end Stalls

end Fabric

/-! ## Histories -/

/-- The command makes and unmakes no link, and neither starts the node under a handle again nor
disables it. -/
def Command.leaves (handle : Handle) : Command → Bool
  | .start | .stop | .step | .addNode => true
  | .removeNode _ | .link _ _ _ _ | .unlink _ _ | .join _ _ _ _ | .split _ => false
  | .compile other _ | .resetNode other => other ≠ handle
  | .setEnabled other enabled => other ≠ handle ∨ enabled

namespace Grid

variable {grid : Grid} {handle : Handle} {core : Core} {status : Status} {acted : Prop}
variable {node : Node}

theorem stalls_restartNode (stalls : grid.fabric.Stalls handle core status acted node)
    {other : Handle} (different : other ≠ handle) (new : Node) :
    (grid.restartNode other new).fabric.Stalls handle core status acted node :=
  stalls.of_same (by rw [restartNode, Fabric.role?_setRole, if_neg different.symm]; rfl)
    fun port => by rw [restartNode, Fabric.link?_setRole]; rfl

/-- An enabled node that is at work is not changed by being enabled. -/
theorem setEnabled_eq_self (stalls : grid.fabric.Stalls handle core status acted node) :
    node.setEnabled true = node := by
  have busy : node.activity ≠ .idle := by
    cases stalls.attempts with
    | read runs | write runs => rcases runs.active with active | active <;> simp [active]
    | wait waiting => simp [waiting]
  have enabled : { node with enabled := true } = node := by rw [← stalls.enabled]
  simp [Node.setEnabled, Node.wake, enabled, busy]

/-- A command that leaves the node in its place leaves it stuck, and a tick brings it to wait. -/
theorem stalls_execute (sound : grid.fabric.Sound)
    (stalls : grid.fabric.Stalls handle core status acted node) {command : Command}
    (leaves : command.leaves handle) :
    ∃ later, (grid.execute command).2.fabric.Stalls handle core status
      (acted ∨ grid.ticks < (grid.execute command).2.ticks) later := by
  by_cases ticks : command = .step
  · subst ticks
    simp only [execute, step]
    cases grid.power with
    | stopped => exact ⟨node, stalls.of_reached (by simpa using stalls.reached)⟩
    | running =>
        obtain ⟨later, after⟩ := stalls.tick sound.lawful
        exact ⟨later, after.of_reached fun _ => after.reached trivial⟩
  · rw [ticks_execute ticks]
    suffices (grid.execute command).2.fabric.Stalls handle core status acted node from
      ⟨node, this.of_reached (by simpa using this.reached)⟩
    cases command with
    | start | stop => exact stalls
    | step => exact absurd rfl ticks
    | addNode =>
        simp only [execute, addNode]
        split
        next => exact stalls
        next =>
          have wired := sound.lawful.wired
          refine stalls.of_same ?_ fun port => wired.link?_withModule _ _ _
          refine (wired.role?_withModule _ _).trans (if_neg ?_)
          rintro rfl
          have fresh := wired.role?_insert_fst (.node (Node.new.setEnabled true))
          cases fresh.symm.trans stalls.role
    | compile other source =>
        simp only [execute, compile]
        cases grid.fabric.node other with
        | error error => exact stalls
        | ok old => exact stalls_restartNode stalls (by simpa [Command.leaves] using leaves) _
    | resetNode other =>
        simp only [execute, resetNode]
        cases grid.fabric.node other with
        | error error => exact stalls
        | ok old => exact stalls_restartNode stalls (by simpa [Command.leaves] using leaves) _
    | setEnabled other enabled =>
        simp only [execute, setEnabled]
        cases known : grid.fabric.node other with
        | error error => exact stalls
        | ok old =>
            have role := Fabric.role?_setRole grid.fabric other (.node (old.setEnabled enabled)) handle
            refine stalls.of_same (role.trans ?_) fun port => Fabric.link?_setRole _ _ _ _ _
            by_cases same : handle = other
            · subst same
              have kept : enabled = true := by simpa [Command.leaves] using leaves
              cases (Fabric.node_eq_ok known).symm.trans stalls.role
              rw [if_pos rfl, stalls.role, kept, setEnabled_eq_self stalls, Option.map_some]
            · rw [if_neg same]
    | removeNode | link | unlink | join | split => simp [Command.leaves] at leaves

theorem claimed_eq_nil_of_stalls (sound : grid.fabric.Sound)
    (stalls : grid.fabric.Stalls handle core status acted node) {command : Command} {act : Act}
    (member : act ∈ grid.actsOf command) (actor : act.actor = handle) : act.claimed = [] := by
  cases command with
  | step =>
      simp only [actsOf] at member
      cases power : grid.power with
      | stopped => simp [power] at member
      | running =>
          rw [power] at member
          exact stalls.claimed_eq_nil sound.lawful member actor
  | _ => cases member

theorem ticks_le_execute (grid : Grid) (command : Command) :
    grid.ticks ≤ (grid.execute command).2.ticks := by
  by_cases ticks : command = .step
  · subst ticks
    simp only [execute, step]
    cases grid.power with
    | stopped => exact Nat.le_refl _
    | running => exact Nat.le_succ _
  · exact Nat.le_of_eq (ticks_execute ticks).symm

theorem stalls_run (sound : grid.fabric.Sound)
    (stalls : grid.fabric.Stalls handle core status acted node) {history : List Command}
    (leaves : ∀ command ∈ history, command.leaves handle) :
    (∃ later, (grid.run history).fabric.Stalls handle core status
      (acted ∨ grid.ticks < (grid.run history).ticks) later) ∧
    ∀ act ∈ grid.acts history, act.actor = handle → act.claimed = [] := by
  induction history generalizing grid acted node with
  | nil =>
      exact ⟨⟨node, stalls.of_reached (by simpa [run] using stalls.reached)⟩, by simp [acts]⟩
  | cons command rest ih =>
      rw [List.forall_mem_cons] at leaves
      obtain ⟨next, first⟩ := stalls_execute sound stalls leaves.1
      obtain ⟨⟨later, both⟩, claims⟩ := ih (sound_execute sound command) first leaves.2
      refine ⟨⟨later, both.of_reached fun acted => both.reached ?_⟩, ?_⟩
      · have monotone := grid.ticks_le_execute command
        rcases acted with acted | ticked
        · exact .inl (.inl acted)
        · by_cases now : grid.ticks < (grid.execute command).2.ticks
          · exact .inl (.inr now)
          · have same : (grid.execute command).2.ticks = grid.ticks := by omega
            exact .inr (same ▸ ticked)
      · intro act member actor
        rcases List.mem_append.1 member with now | later
        · exact claimed_eq_nil_of_stalls sound stalls now actor
        · exact claims act later actor

/-- Let an enabled node have an access before it that reaches no linked port: a read that it has not
made yet, a move of what it has at hand, or a write that it waits for.  Whatever is done to the grid
that leaves the links alone and does not start the node again or disable it, once a tick has passed
the node waits to read or to write, its core is what it was, there is nothing in its pipes, and it
has claimed nothing. -/
theorem Reachable.stuck_node_waits {grid : Grid} (reachable : grid.Reachable) {handle : Handle}
    {node : Node} (known : grid.fabric.node handle = .ok node) (enabled : node.enabled)
    {status : Status} (stuck : grid.fabric.Stuck handle node status) {history : List Command}
    (leaves : ∀ command ∈ history, command.leaves handle)
    (ticked : grid.ticks < (grid.run history).ticks) :
    (∃ later, (grid.run history).fabric.node handle = .ok later ∧ later.core = node.core ∧
      later.activity.status = status) ∧
    (∀ port pipe, (grid.run history).fabric.sent? handle port = some pipe → pipe = .empty) ∧
    ∀ act ∈ grid.acts history, act.actor = handle → act.claimed = [] := by
  have role := Fabric.node_eq_ok known
  have stalls : grid.fabric.Stalls handle node.core status False node :=
    { role, enabled, stuck
      core := rfl
      consistent := (reachable.nodesCalled _ _ role).consistent
      reached := False.elim }
  obtain ⟨⟨later, after⟩, claims⟩ := stalls_run reachable.sound stalls leaves
  refine ⟨⟨later, ?known, after.core, after.reached (.inr ticked)⟩, ?empty, claims⟩
  case known => exact Fabric.node_eq_ok_iff.2 after.role
  case empty =>
    exact fun port pipe sends => after.sent?_eq_empty (reachable.run history).sound.lawful sends

/-- A node that sends a word to all sides, between nodes with nowhere to go: one reads from a port
that is not linked, one writes to any port and has none, and one has lost the link that it has
written to. -/
def cornered : Grid :=
  standard.run
    [.addNode, .addNode, .addNode, .addNode, .link ⟨0, 0⟩ .right ⟨1, 0⟩ .left,
      .link ⟨3, 0⟩ .right ⟨1, 0⟩ .right, .link ⟨3, 0⟩ .down ⟨1, 0⟩ .up,
      .compile ⟨0, 0⟩ ["MOV UP ACC".toList], .compile ⟨1, 0⟩ ["MOV 7 ANY".toList],
      .compile ⟨2, 0⟩ ["MOV 5 ANY".toList], .compile ⟨3, 0⟩ ["MOV 1 RIGHT".toList],
      .start, .step, .unlink ⟨3, 0⟩ .right]

/-- What is then done to the sender: it is disabled and is given a program that reads. -/
def turnedAround : List Command :=
  [.step, .setEnabled ⟨1, 0⟩ false, .step, .compile ⟨1, 0⟩ ["MOV ANY ACC".toList], .addNode,
    .setEnabled ⟨1, 0⟩ true, .step]

/-- The three nodes wait, each for what it cannot have. -/
theorem cornered_wait :
    let after := (cornered.run turnedAround).fabric
    cornered.Reachable ∧
    (∃ node, after.node ⟨0, 0⟩ = .ok node ∧ node.activity.status = .waitingRead) ∧
    (∃ node, after.node ⟨2, 0⟩ = .ok node ∧ node.activity.status = .waitingWrite) ∧
    ∃ node, after.node ⟨3, 0⟩ = .ok node ∧ node.activity.status = .waitingWrite := by
  have reachable : cornered.Reachable := standard_reachable.run _
  let node := fun handle => (cornered.fabric.node handle).toOption.getD .new
  have ticked : cornered.ticks < (cornered.run turnedAround).ticks := by decide +kernel
  have reads : cornered.fabric.Stuck ⟨0, 0⟩ (node ⟨0, 0⟩) .waitingRead :=
    @Fabric.Stuck.read _ _ _ (.move (.target (.port .up)) .acc) (.port .up) (by decide +kernel) rfl
      (by decide +kernel) ⟨⟨rfl, nofun⟩, by decide +kernel⟩
  have writes : cornered.fabric.Stuck ⟨2, 0⟩ (node ⟨2, 0⟩) .waitingWrite :=
    @Fabric.Stuck.write _ _ _ (.literal 5) .any (by decide +kernel) rfl
      ⟨⟨rfl, nofun⟩, by decide +kernel⟩
  have written : cornered.fabric.Stuck ⟨3, 0⟩ (node ⟨3, 0⟩) .waitingWrite :=
    @Fabric.Stuck.written _ _ _ ⟨1, .port .right⟩ (by decide +kernel)
      ⟨⟨rfl, nofun⟩, by decide +kernel⟩
  obtain ⟨⟨first, firstKnown, -, firstWaits⟩, -⟩ := reachable.stuck_node_waits
    (by decide +kernel) (by decide +kernel) reads (by decide) ticked
  obtain ⟨⟨second, secondKnown, -, secondWaits⟩, -⟩ := reachable.stuck_node_waits
    (by decide +kernel) (by decide +kernel) writes (by decide) ticked
  obtain ⟨⟨third, thirdKnown, -, thirdWaits⟩, -⟩ := reachable.stuck_node_waits
    (by decide +kernel) (by decide +kernel) written (by decide) ticked
  exact ⟨reachable, ⟨first, firstKnown, firstWaits⟩, ⟨second, secondKnown, secondWaits⟩,
    ⟨third, thirdKnown, thirdWaits⟩⟩

/-- A node that has read a word to pass it on loses the link that the word has come by. -/
def wordInHand : Grid :=
  standard.run
    [.addNode, .addNode, .addNode, .link ⟨0, 0⟩ .right ⟨1, 0⟩ .left,
      .link ⟨1, 0⟩ .right ⟨2, 0⟩ .left, .compile ⟨0, 0⟩ ["MOV 7 RIGHT".toList],
      .compile ⟨1, 0⟩ ["MOV LEFT RIGHT".toList, "ADD 1".toList],
      .compile ⟨2, 0⟩ ["MOV LEFT ACC".toList], .start, .step, .step, .unlink ⟨1, 0⟩ .left]

/-- The node stands at an instruction that reads from a port without a link, and yet it goes on: it
is not to read any more. -/
theorem wordInHand_goes_on : wordInHand.Reachable ∧ wordInHand.power = .running ∧
    (wordInHand.fabric.node ⟨1, 0⟩).map (fun node =>
      (node.enabled, node.core.instruction?, node.core.registers.pc, node.activity.status)) =
      .ok (true, some (.move (.target (.port .left)) (.port .right)), 0, .waitingWrite) ∧
    wordInHand.fabric.link? ⟨1, 0⟩ .left = none ∧
    ((wordInHand.run [.step]).fabric.node ⟨1, 0⟩).map (·.activity.status) = .ok .waitingWrite ∧
    ((wordInHand.run [.step, .step]).fabric.node ⟨1, 0⟩).map (fun node =>
      (node.core.registers.pc, node.activity.status)) = .ok (1, .running) :=
  ⟨standard_reachable.run _, by decide +kernel, by decide +kernel, by decide +kernel,
    by decide +kernel, by decide +kernel⟩

end Grid

end NodeGrid
