import NodeGrid.Proofs.Grid.Reachable
import NodeGrid.Proofs.Fabric.Trace

/-!
# Delivery over links

While a grid is only driven, that is stepped, started, stopped, and its nodes enabled and disabled,
its links stay.  Then the words claimed over a link are the words of the completed writes on its
port, in their order, and one more as long as the last claim has not been acknowledged.
-/

namespace NodeGrid

/-- The words among some that belong to a port. -/
def onPort (port : Port) (words : List (Port × Word)) : List Word :=
  words.filterMap fun (side, word) => if side = port then some word else none

@[simp] theorem onPort_append (port : Port) (first second : List (Port × Word)) :
    onPort port (first ++ second) = onPort port first ++ onPort port second :=
  List.filterMap_append

/-- What a pick from every port has for one of them. -/
theorem onPort_filterMap_all (port : Port) (pick : Port → Option Word) :
    onPort port (Port.all.filterMap fun side => (pick side).map (side, ·)) = (pick port).toList := by
  rw [onPort, List.filterMap_filterMap, Port.filterMap_all port]
  · cases pick port <;> simp
  · intro other different
    cases pick other <;> simp [different]

/-! ## What a trace shows -/

/-- The words that a module claims from a pipe in the course of a trace. -/
def claimedFrom (acts : List Act) (reader : Handle) (id : PipeId) : List Word :=
  acts.filterMap fun act => if act.actor = reader then act.claim? id else none

/-- The writes that a node completes in the course of a trace. -/
def completions (acts : List Act) (writer : Handle) : List Completion :=
  acts.filterMap (·.completion? writer)

/-- The words of the writes that a node completes on a port. -/
def completedOn (acts : List Act) (writer : Handle) (port : Port) : List Word :=
  (completions acts writer).filterMap fun done =>
    if done.destination = some port then some done.value else none

/-- The claims that the completed writes of a node were reported with. -/
def reportedClaims (acts : List Act) (writer : Handle) : List (Port × Word) :=
  (completions acts writer).filterMap fun done => done.reported.map (·, done.value)

theorem reportedClaims_append (first second : List Act) (writer : Handle) :
    reportedClaims (first ++ second) writer =
      reportedClaims first writer ++ reportedClaims second writer := by
  simp [reportedClaims, completions]

theorem reportedClaims_of_no_completion {acts : List Act} {writer : Handle}
    (nothing : completions acts writer = []) : reportedClaims acts writer = [] := by
  rw [reportedClaims, nothing, List.filterMap_nil]

theorem length_reportedClaims_le (acts : List Act) (writer : Handle) :
    (reportedClaims acts writer).length ≤ (completions acts writer).length :=
  List.length_filterMap_le _ _

/-- What a node owed and what has been claimed from it since is what it has acknowledged and what it
still owes. -/
def Balanced (before after : Fabric) (writer : Handle) (acts : List Act) : Prop :=
  before.owed writer ++ acts.flatMap (·.claims writer) =
    reportedClaims acts writer ++ after.owed writer

namespace Balanced

variable {before middle after : Fabric} {writer : Handle}

theorem of_owed (same : after.owed writer = before.owed writer) :
    Balanced before after writer [] := by
  simp [Balanced, reportedClaims, completions, same]

theorem of_act (act : Act) (lawful : act.before.Lawful) {node : Node}
    (role : act.before.role? writer = some (.node node)) :
    Balanced act.before act.after writer [act] := by
  have balance := Act.balance lawful role
  cases ends : act.completion? writer with
  | none =>
      rw [ends] at balance
      simpa [Balanced, reportedClaims, completions, ends] using balance
  | some done =>
      rw [ends] at balance
      simpa [Balanced, reportedClaims, completions, ends] using balance

theorem trans {first second : List Act} (earlier : Balanced before middle writer first)
    (later : Balanced middle after writer second) :
    Balanced before after writer (first ++ second) := by
  unfold Balanced at earlier later ⊢
  calc
    before.owed writer ++ (first ++ second).flatMap (·.claims writer)
      = (before.owed writer ++ first.flatMap (·.claims writer)) ++
          second.flatMap (·.claims writer) := by simp
    _ = reportedClaims first writer ++
          (middle.owed writer ++ second.flatMap (·.claims writer)) := by simp [earlier]
    _ = reportedClaims (first ++ second) writer ++ after.owed writer := by
        simp [later, reportedClaims_append]

end Balanced

namespace Fabric

/-- The actions of a phase, one after the other. -/
def acts (fabric : Fabric) : List Handle → List Act
  | [] => []
  | handle :: rest => ⟨fabric, handle⟩ :: (fabric.stepModule handle).acts rest

/-- The links are the same, and nodes are still nodes. -/
structure Continues (before after : Fabric) : Prop where
  link : ∀ handle port, after.link? handle port = before.link? handle port
  node : ∀ {handle node}, before.role? handle = some (.node node) →
    ∃ later, after.role? handle = some (.node later)

theorem Continues.refl (fabric : Fabric) : Continues fabric fabric :=
  ⟨fun _ _ => rfl, fun role => ⟨_, role⟩⟩

theorem Continues.trans {before middle after : Fabric} (first : Continues before middle)
    (second : Continues middle after) : Continues before after where
  link := fun handle port => (second.link handle port).trans (first.link handle port)
  node := by
    intro handle node role
    obtain ⟨_, between⟩ := first.node role
    exact second.node between

theorem continues_stepModule (fabric : Fabric) (handle : Handle) :
    Continues fabric (fabric.stepModule handle) :=
  ⟨fun _ _ => link?_stepModule _ _ _ _, fun role => role?_stepModule handle role⟩

theorem continues_stepModules (fabric : Fabric) (handles : List Handle) :
    Continues fabric (fabric.stepModules handles) := by
  induction handles generalizing fabric with
  | nil => exact .refl fabric
  | cons handle rest ih => exact (fabric.continues_stepModule handle).trans (ih _)

theorem continues_tick (fabric : Fabric) : Continues fabric fabric.tick :=
  have phase := fabric.continues_stepModules fabric.modules.handles
  ⟨phase.link, phase.node⟩

/-- Every action of a phase finds a lawful fabric with the links that the phase began with. -/
theorem Lawful.of_mem_acts {fabric : Fabric} (lawful : fabric.Lawful) {handles : List Handle}
    {act : Act} (member : act ∈ fabric.acts handles) :
    act.before.Lawful ∧ Continues fabric act.before := by
  induction handles generalizing fabric with
  | nil => simp [acts] at member
  | cons handle rest ih =>
      rcases List.mem_cons.1 member with rfl | later
      · exact ⟨lawful, .refl fabric⟩
      · obtain ⟨kept, continues⟩ := ih (lawful.stepModule handle) later
        exact ⟨kept, (fabric.continues_stepModule handle).trans continues⟩

theorem Lawful.balanced_acts {fabric : Fabric} (lawful : fabric.Lawful) {writer : Handle}
    {node : Node} (role : fabric.role? writer = some (.node node)) (handles : List Handle) :
    Balanced fabric (fabric.stepModules handles) writer (fabric.acts handles) := by
  induction handles generalizing fabric node with
  | nil => exact .of_owed rfl
  | cons handle rest ih =>
      have first : Balanced fabric (fabric.stepModule handle) writer [⟨fabric, handle⟩] :=
        .of_act ⟨fabric, handle⟩ lawful role
      obtain ⟨later, still⟩ := (fabric.continues_stepModule handle).node role
      exact first.trans (ih (lawful.stepModule handle) still)

theorem owed_commit (fabric : Fabric) (writer : Handle) :
    fabric.commit.owed writer = fabric.owed writer := by
  refine owed_congr rfl fun port => ?_
  rw [sent?_commit]
  cases fabric.sent? writer port with
  | none => rfl
  | some pipe => cases pipe <;> rfl

theorem Lawful.balanced_tick {fabric : Fabric} (lawful : fabric.Lawful) {writer : Handle}
    {node : Node} (role : fabric.role? writer = some (.node node)) :
    Balanced fabric fabric.tick writer (fabric.acts fabric.modules.handles) := by
  have phase := lawful.balanced_acts role fabric.modules.handles
  rw [← List.append_nil (fabric.acts fabric.modules.handles)]
  exact phase.trans (.of_owed (owed_commit _ writer))

theorem continues_setNode {fabric : Fabric} {handle : Handle} {old : Node}
    (was : fabric.role? handle = some (.node old)) (new : Node) :
    Continues fabric (fabric.setRole handle (.node new)) where
  link := fun _ _ => link?_setRole _ _ _ _ _
  node := by
    intro other node role
    rw [role?_setRole]
    by_cases same : other = handle
    · exact ⟨new, by simp [same, was]⟩
    · exact ⟨node, by simp [same, role]⟩

/-- A node that is enabled or disabled owes what it owed. -/
theorem owed_setEnabled {fabric : Fabric} {handle : Handle} {node : Node}
    (was : fabric.role? handle = some (.node node)) (enabled : Bool) (writer : Handle) :
    (fabric.setRole handle (.node (node.setEnabled enabled))).owed writer = fabric.owed writer := by
  have sent : ∀ port, (fabric.setRole handle (.node (node.setEnabled enabled))).sent? writer port =
      fabric.sent? writer port := by
    intro port
    simp only [sent?, link?_setRole]
    rfl
  refine owed_congr ?_ fun port => by rw [sent]
  by_cases same : writer = handle
  · subst same
    have now : (fabric.setRole writer (.node (node.setEnabled enabled))).role? writer =
        some (.node (node.setEnabled enabled)) := by simp [role?_setRole, was]
    rw [pendingWrite?_of_role was, pendingWrite?_of_role now, Node.pending?_setEnabled]
  · have now : (fabric.setRole handle (.node (node.setEnabled enabled))).node writer =
        fabric.node writer := by
      simp [Fabric.node, module, setRole, Arena.get?_modify, same]
    rw [pendingWrite?, now, pendingWrite?]

end Fabric

/-- The command steps, starts or stops the grid, or enables or disables a node. -/
def Command.drives : Command → Bool
  | .step | .start | .stop | .setEnabled _ _ => true
  | .addNode | .removeNode _ | .link _ _ _ _ | .unlink _ _ | .join _ _ _ _ | .split _
  | .compile _ _ | .resetNode _ => false

namespace Grid

/-- The actions of a command. -/
def actsOf (grid : Grid) : Command → List Act
  | .step =>
      match grid.power with
      | .stopped => []
      | .running => grid.fabric.acts grid.fabric.modules.handles
  | _ => []

/-- The actions of a history of commands. -/
def acts (grid : Grid) : List Command → List Act
  | [] => []
  | command :: rest => grid.actsOf command ++ (grid.execute command).2.acts rest

theorem continues_execute {grid : Grid} {command : Command} (drives : command.drives) :
    grid.fabric.Continues (grid.execute command).2.fabric := by
  cases command with
  | start | stop => exact .refl _
  | setEnabled handle enabled =>
      simp only [execute, setEnabled]
      cases known : grid.fabric.node handle with
      | error error => exact .refl _
      | ok node => exact Fabric.continues_setNode (Fabric.node_eq_ok known) _
  | step =>
      simp only [execute, step]
      cases grid.power with
      | stopped => exact .refl _
      | running => exact grid.fabric.continues_tick
  | _ => simp [Command.drives] at drives

theorem balanced_execute {grid : Grid} (sound : grid.fabric.Sound) {command : Command}
    (drives : command.drives) {writer : Handle} {node : Node}
    (role : grid.fabric.role? writer = some (.node node)) :
    Balanced grid.fabric (grid.execute command).2.fabric writer (grid.actsOf command) := by
  cases command with
  | start | stop => exact .of_owed rfl
  | setEnabled handle enabled =>
      simp only [execute, setEnabled]
      cases known : grid.fabric.node handle with
      | error error => exact .of_owed rfl
      | ok other =>
          exact .of_owed (Fabric.owed_setEnabled (Fabric.node_eq_ok known) enabled writer)
  | step =>
      simp only [execute, step, actsOf]
      cases grid.power with
      | stopped => exact .of_owed rfl
      | running => exact sound.lawful.balanced_tick role
  | _ => simp [Command.drives] at drives

theorem continues_run {grid : Grid} {history : List Command}
    (drives : ∀ command ∈ history, command.drives) :
    grid.fabric.Continues (grid.run history).fabric := by
  induction history generalizing grid with
  | nil => exact .refl _
  | cons command rest ih =>
      rw [List.forall_mem_cons] at drives
      exact (continues_execute drives.1).trans (ih drives.2)

theorem balanced_run {grid : Grid} (sound : grid.fabric.Sound) {history : List Command}
    (drives : ∀ command ∈ history, command.drives) {writer : Handle} {node : Node}
    (role : grid.fabric.role? writer = some (.node node)) :
    Balanced grid.fabric (grid.run history).fabric writer (grid.acts history) := by
  induction history generalizing grid node with
  | nil => exact .of_owed rfl
  | cons command rest ih =>
      rw [List.forall_mem_cons] at drives
      obtain ⟨later, still⟩ := (continues_execute drives.1).node role
      exact (balanced_execute sound drives.1 role).trans
        (ih (sound_execute sound command) drives.2 still)

/-- Every action of a history finds a lawful fabric with the links that the history began with. -/
theorem of_mem_acts {grid : Grid} (sound : grid.fabric.Sound) {history : List Command}
    (drives : ∀ command ∈ history, command.drives) {act : Act} (member : act ∈ grid.acts history) :
    act.before.Lawful ∧ grid.fabric.Continues act.before := by
  induction history generalizing grid with
  | nil => simp [acts] at member
  | cons command rest ih =>
      rw [List.forall_mem_cons] at drives
      rcases List.mem_append.1 member with now | later
      · cases command with
        | step =>
            simp only [actsOf] at now
            cases power : grid.power with
            | stopped => simp [power] at now
            | running =>
                rw [power] at now
                exact sound.lawful.of_mem_acts now
        | _ => simp [actsOf] at now
      · obtain ⟨lawful, continues⟩ := ih (sound_execute sound command) drives.2 later
        exact ⟨lawful, (continues_execute drives.1).trans continues⟩

end Grid

/-! ## One port -/

theorem Fabric.onPort_owed (fabric : Fabric) (writer : Handle) (port : Port) :
    onPort port (fabric.owed writer) =
      (fabric.pendingWrite? writer).elim [] fun write =>
        if (fabric.sent? writer port).any (·.isClaimed) then [write.value] else [] := by
  unfold owed
  cases fabric.pendingWrite? writer with
  | none => rfl
  | some write =>
      have picks : (fun side => if (fabric.sent? writer side).any (·.isClaimed) then
            some (side, write.value) else none) =
          fun side => (if (fabric.sent? writer side).any (·.isClaimed) then
            some write.value else none).map (side, ·) := by
        funext side
        split <;> rfl
      rw [Option.elim_some, picks, onPort_filterMap_all, Option.elim_some]
      split <;> rfl

/-- Between ticks a word is owed at a port exactly while a claim waits there to be acknowledged. -/
theorem Fabric.Sound.onPort_owed {fabric : Fabric} (sound : fabric.Sound) {writer : Handle}
    {port : Port} {link : Link} (linked : fabric.link? writer port = some link) :
    onPort port (fabric.owed writer) =
      if fabric.pipes.pipe? link.send = some .delivered then
        ((fabric.pendingWrite? writer).map (·.value)).toList
      else [] := by
  have sent : fabric.sent? writer port = fabric.pipes.pipe? link.send := by
    rw [sent?, linked, Option.bind_some]
  rw [Fabric.onPort_owed, sound.any_isClaimed, sent]
  cases fabric.pendingWrite? writer with
  | none => simp
  | some write => simp

theorem Act.onPort_claims (act : Act) {writer : Handle} {port : Port} {link : Link}
    (linked : act.before.link? writer port = some link) :
    onPort port (act.claims writer) = (act.claim? link.send).toList := by
  have picks : (fun side => (act.before.link? writer side).bind fun link =>
        (act.claim? link.send).map (side, ·)) =
      fun side => ((act.before.link? writer side).bind fun link =>
        act.claim? link.send).map (side, ·) := by
    funext side
    rw [Option.map_bind]
    rfl
  rw [claims, picks, onPort_filterMap_all, linked, Option.bind_some]

/-- If every claim at a port is made by one reader, the claims there are what the reader claims. -/
theorem onPort_claims {acts : List Act} {writer reader : Handle} {port : Port} {id : PipeId}
    (each : ∀ act ∈ acts, onPort port (act.claims writer) =
      (if act.actor = reader then act.claim? id else none).toList) :
    onPort port (acts.flatMap (·.claims writer)) = claimedFrom acts reader id := by
  induction acts with
  | nil => rfl
  | cons act rest ih =>
      rw [List.forall_mem_cons] at each
      rw [List.flatMap_cons, onPort_append, each.1, ih each.2, claimedFrom, claimedFrom,
        List.filterMap_cons]
      cases (if act.actor = reader then act.claim? id else none) <;> rfl

theorem onPort_reportedClaims {acts : List Act} {writer : Handle} {port : Port}
    (each : ∀ done ∈ completions acts writer, done.destination = done.reported) :
    onPort port (reportedClaims acts writer) = completedOn acts writer port := by
  rw [onPort, reportedClaims, List.filterMap_filterMap, completedOn]
  refine List.filterMap_congr fun done member => ?_
  rw [each done member]
  cases done.reported with
  | none => rfl
  | some side => simp

namespace Grid

section Driven

variable {grid : Grid} (sound : grid.fabric.Sound) {history : List Command}
variable (drives : ∀ command ∈ history, command.drives)
variable {writer : Handle} {node : Node} (role : grid.fabric.role? writer = some (.node node))
include sound drives role

theorem actor_of_claim {act : Act} (member : act ∈ grid.acts history) {side : Port} {facing : Link}
    {value : Word} (linked : grid.fabric.link? writer side = some facing)
    (taken : act.claim? facing.send = some value) : act.actor = facing.peer := by
  obtain ⟨lawful, continues⟩ := of_mem_acts sound drives member
  obtain ⟨later, still⟩ := continues.node role
  exact Act.actor_of_claim lawful still ((continues.link writer side).trans linked) taken

theorem destination_of_completion {done : Completion}
    (member : done ∈ completions (grid.acts history) writer) :
    done.destination = done.reported ∧ done.reported.isSome := by
  obtain ⟨act, acted, ends⟩ := List.mem_filterMap.1 member
  obtain ⟨lawful, continues⟩ := of_mem_acts sound drives acted
  obtain ⟨later, still⟩ := continues.node role
  exact Act.destination_of_completion lawful still ends

/-- The balance of a run at one linked port. -/
theorem port_balance {port : Port} {link : Link}
    (linked : grid.fabric.link? writer port = some link) :
    onPort port (grid.fabric.owed writer) ++ claimedFrom (grid.acts history) link.peer link.send =
      completedOn (grid.acts history) writer port ++
        onPort port ((grid.run history).fabric.owed writer) := by
  have claims : onPort port ((grid.acts history).flatMap (·.claims writer)) =
      claimedFrom (grid.acts history) link.peer link.send := by
    refine onPort_claims fun act member => ?_
    obtain ⟨-, continues⟩ := of_mem_acts sound drives member
    rw [act.onPort_claims ((continues.link writer port).trans linked)]
    cases taken : act.claim? link.send with
    | none => simp
    | some value => rw [if_pos (actor_of_claim sound drives role member linked taken)]
  have reports : onPort port (reportedClaims (grid.acts history) writer) =
      completedOn (grid.acts history) writer port :=
    onPort_reportedClaims fun done member =>
      (destination_of_completion sound drives role member).1
  rw [← claims, ← reports, ← onPort_append, ← onPort_append]
  exact congrArg (onPort port) (balanced_run sound drives role)

end Driven

/-- Over the run of a grid that is only driven, what is claimed over a link is what the writer
completes on its port, in the same order, and while the last claim is not acknowledged the pending
word besides.  A completed write went to the port that its claim was reported on.  Over all ports
of the writer, what has been claimed and what has been reported differ only by what is owed, and a
word at a port is claimed by nobody but the module that the port is linked to. -/
theorem Reachable.delivered_exactly_once {grid : Grid} (reachable : grid.Reachable)
    {writer : Handle} {node : Node} (writes : grid.fabric.node writer = .ok node) {port : Port}
    {link : Link} (linked : grid.fabric.link? writer port = some link)
    (unclaimed : grid.fabric.pipes.pipe? link.send ≠ some .delivered) {history : List Command}
    (drives : ∀ command ∈ history, command.drives) :
    ((grid.run history).fabric.pipes.pipe? link.send ≠ some .delivered →
      claimedFrom (grid.acts history) link.peer link.send =
        completedOn (grid.acts history) writer port) ∧
    ((grid.run history).fabric.pipes.pipe? link.send = some .delivered →
      ∃ write, (grid.run history).fabric.pendingWrite? writer = some write ∧
        claimedFrom (grid.acts history) link.peer link.send =
          completedOn (grid.acts history) writer port ++ [write.value]) ∧
    (∀ done ∈ completions (grid.acts history) writer,
      done.destination = done.reported ∧ done.reported.isSome) ∧
    (grid.fabric.owed writer ++ (grid.acts history).flatMap (·.claims writer) =
      reportedClaims (grid.acts history) writer ++ (grid.run history).fabric.owed writer) ∧
    (∀ act ∈ grid.acts history, ∀ side facing value,
      grid.fabric.link? writer side = some facing → act.claim? facing.send = some value →
      act.actor = facing.peer) := by
  have role := Fabric.node_eq_ok writes
  have sound := reachable.sound
  have later := (reachable.run history).sound
  have continues : grid.fabric.Continues (grid.run history).fabric := continues_run drives
  have laterLinked := (continues.link writer port).trans linked
  have balance := port_balance sound drives role linked
  rw [sound.onPort_owed linked, if_neg unclaimed, List.nil_append, later.onPort_owed laterLinked]
    at balance
  refine ⟨?_, ?_, fun done member => destination_of_completion sound drives role member,
    balanced_run sound drives role, fun act member side facing value facingLinked taken =>
      actor_of_claim sound drives role member facingLinked taken⟩
  · intro kept
    rw [balance, if_neg kept, List.append_nil]
  · intro delivered
    obtain ⟨entry, opened, known⟩ := PipeTable.pipe?_eq_some_iff.1 delivered
    obtain ⟨waiter, still⟩ := continues.node role
    obtain ⟨write, waiting, -⟩ :=
      later.lawful.coherent.awaited still laterLinked opened (by simp [known])
    have pending := Fabric.pendingWrite?_of_waiting still waiting
    refine ⟨write, pending, ?_⟩
    rw [balance, if_pos delivered, pending]
    rfl

/-- A running grid in which a node counts into a link and another one reads. -/
def counting : Grid :=
  standard.run
    [.addNode, .addNode, .link ⟨0, 0⟩ .right ⟨1, 0⟩ .left,
      .compile ⟨0, 0⟩ ["MOV ACC ANY".toList, "ADD 1".toList],
      .compile ⟨1, 0⟩ ["MOV LEFT ACC".toList], .start]

/-- After ten ticks two writes have been completed, and a third word has been claimed. -/
theorem counting_delivered : counting.Reachable ∧
    completedOn (counting.acts (.replicate 10 .step)) ⟨0, 0⟩ .right = [0, 1] ∧
    claimedFrom (counting.acts (.replicate 10 .step)) ⟨1, 0⟩ ⟨0⟩ = [0, 1, 2] := by
  have reachable : counting.Reachable := standard_reachable.run _
  let node := (counting.fabric.node ⟨0, 0⟩).toOption.getD .new
  have writes : counting.fabric.node ⟨0, 0⟩ = .ok node := by decide +kernel
  have linked : counting.fabric.link? ⟨0, 0⟩ .right = some ⟨⟨0⟩, ⟨1⟩, ⟨1, 0⟩⟩ := by
    decide +kernel
  have unclaimed : counting.fabric.pipes.pipe? ⟨0⟩ ≠ some .delivered := by decide +kernel
  have drives : ∀ command ∈ List.replicate 10 Command.step, command.drives := by simp [Command.drives]
  have delivered :
      (counting.run (.replicate 10 .step)).fabric.pipes.pipe? ⟨0⟩ = some .delivered := by
    decide +kernel
  have pending : (counting.run (.replicate 10 .step)).fabric.pendingWrite? ⟨0, 0⟩ =
      some ⟨2, .any⟩ := by decide +kernel
  have completed :
      completedOn (counting.acts (.replicate 10 .step)) ⟨0, 0⟩ .right = [0, 1] := by
    decide +kernel
  obtain ⟨write, waits, claimed⟩ :=
    (reachable.delivered_exactly_once writes linked unclaimed drives).2.1 delivered
  rw [pending] at waits
  cases waits
  exact ⟨reachable, completed, by rw [claimed, completed]; rfl⟩

end Grid

end NodeGrid
