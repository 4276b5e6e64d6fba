import NodeGrid.Proofs.Fabric.Conveyance
import NodeGrid.Proofs.Grid.Recycling
import NodeGrid.Proofs.Grid.Siblings

/-!
# Forwarder pairs as lossless queues

While a grid is only driven, a forwarder pair hands on the words of each node to the other one in
their order, and loses and doubles none of them.  The two directions do not affect each other.

This is so because nobody else writes to the pipes of the halves.  When the generations of a slot
have wrapped around, a half that is left over from an earlier pair can take one of the two for its
own sibling, and its words get between theirs.
-/

namespace NodeGrid

/-- What was on its way and what a half has taken since is what the other node has taken and what is
on its way then. -/
def Conveyed (before after : Fabric) (near : Handle) (own onward : Link) (acts : List Act) : Prop :=
  before.transit onward.send ++ claimedFrom acts near own.receive =
    claimedFrom acts onward.peer onward.send ++ after.transit onward.send

namespace Conveyed

variable {before middle after : Fabric} {near : Handle} {own onward : Link}

theorem of_transit (same : after.transit onward.send = before.transit onward.send) :
    Conveyed before after near own onward [] := by
  simp [Conveyed, claimedFrom, same]

theorem of_act (act : Act) {far : Handle} (lawful : act.before.Lawful)
    (single : act.before.Single) (pair : act.before.Exclusive near far own onward) :
    Conveyed act.before act.after near own onward [act] := by
  have single_taken : ∀ reader id, claimedFrom [act] reader id = (act.taken? reader id).toList := by
    intro reader id
    unfold claimedFrom Act.taken?
    split
    next here => cases claims : act.claim? id <;> simp [here, claims]
    next elsewhere => simp [elsewhere]
  rw [Conveyed, single_taken, single_taken]
  exact act.conveyed lawful pair single

theorem trans {first second : List Act} (earlier : Conveyed before middle near own onward first)
    (later : Conveyed middle after near own onward second) :
    Conveyed before after near own onward (first ++ second) := by
  have split : ∀ reader id, claimedFrom (first ++ second) reader id =
      claimedFrom first reader id ++ claimedFrom second reader id :=
    fun reader id => List.filterMap_append
  unfold Conveyed at earlier later ⊢
  calc
    before.transit onward.send ++ claimedFrom (first ++ second) near own.receive
      = (before.transit onward.send ++ claimedFrom first near own.receive) ++
          claimedFrom second near own.receive := by rw [split, List.append_assoc]
    _ = claimedFrom first onward.peer onward.send ++
          (middle.transit onward.send ++ claimedFrom second near own.receive) := by
        rw [earlier, List.append_assoc]
    _ = claimedFrom (first ++ second) onward.peer onward.send ++ after.transit onward.send := by
        rw [later, split, List.append_assoc]

end Conveyed

namespace Fabric

variable {fabric : Fabric} {near far : Handle} {own onward : Link}

theorem Exclusive.conveyed_acts (pair : fabric.Exclusive near far own onward)
    (lawful : fabric.Lawful) (single : fabric.Single) (handles : List Handle) :
    Conveyed fabric (fabric.stepModules handles) near own onward (fabric.acts handles) ∧
      (fabric.stepModules handles).Exclusive near far own onward := by
  induction handles generalizing fabric with
  | nil => exact ⟨.of_transit rfl, pair⟩
  | cons handle rest ih =>
      have first : Conveyed fabric (fabric.stepModule handle) near own onward [⟨fabric, handle⟩] :=
        .of_act ⟨fabric, handle⟩ lawful single pair
      obtain ⟨later, still⟩ := ih (pair.stepModule lawful handle) (lawful.stepModule handle)
        (single.stepModule handle)
      exact ⟨first.trans later, still⟩

theorem Exclusive.conveyed_tick (pair : fabric.Exclusive near far own onward)
    (lawful : fabric.Lawful) (single : fabric.Single) :
    Conveyed fabric fabric.tick near own onward (fabric.acts fabric.modules.handles) ∧
      fabric.tick.Exclusive near far own onward := by
  obtain ⟨phase, still⟩ := pair.conveyed_acts lawful single fabric.modules.handles
  have tick_eq : fabric.tick = (fabric.stepModules fabric.modules.handles).commit := rfl
  have whole := phase.trans (.of_transit (transit_commit _ _))
  rw [tick_eq, ← List.append_nil (fabric.acts fabric.modules.handles)]
  exact ⟨whole, still.commit⟩

/-- The ports of two nodes are joined by a forwarder pair: two forwarders that are each other's
siblings. -/
structure JoinedBy (fabric : Fabric) (near far : Handle) (first : Handle) (firstPort : Port)
    (second : Handle) (secondPort : Port) (one two : Link) : Prop where
  first_link : fabric.link? first firstPort = some one
  second_link : fabric.link? second secondPort = some two
  first_peer : one.peer = near
  second_peer : two.peer = far
  near_half : fabric.forwarder near = .ok ⟨some far⟩
  far_half : fabric.forwarder far = .ok ⟨some near⟩

/-- What is in front of a half is its only link, seen from the other side. -/
theorem forwarderLink?_of_facing {handle place : Handle} {port : Port} {half : Forwarder}
    {link : Link} (wired : fabric.Wired) (single : fabric.Single)
    (linked : fabric.link? place port = some link) (peer : link.peer = handle)
    (role : fabric.role? handle = some (.forwarder half)) :
    fabric.forwarderLink? handle = some (link.flip place) := by
  obtain ⟨other, mirrored⟩ := wired.mirror linked
  rw [peer] at mirrored
  obtain ⟨own, forwards⟩ := exists_forwarderLink? role mirrored
  obtain ⟨⟨side, found⟩, -⟩ := forwarderLink?_eq_some forwards
  cases single role found mirrored
  rw [mirrored] at found
  rw [forwards, ← found]

namespace JoinedBy

variable {first second : Handle} {firstPort secondPort : Port} {one two : Link}
variable (joined : fabric.JoinedBy near far first firstPort second secondPort one two)
include joined

theorem exclusive (wired : fabric.Wired) (single : fabric.Single)
    (unrivalled : fabric.Unrivalled near far) :
    fabric.Exclusive near far (one.flip first) (two.flip second) where
  near_role := forwarder_eq_ok joined.near_half
  far_role := forwarder_eq_ok joined.far_half
  near_link := forwarderLink?_of_facing wired single joined.first_link joined.first_peer
    (forwarder_eq_ok joined.near_half)
  far_link := forwarderLink?_of_facing wired single joined.second_link joined.second_peer
    (forwarder_eq_ok joined.far_half)
  toUnrivalled := unrivalled

/-- As long as no handle has been issued a second time, no third forwarder knows the halves. -/
theorem unrivalled (acquainted : fabric.Acquainted) : fabric.Unrivalled near far where
  near_only := fun _ known => acquainted.sibling_unique (forwarder_eq_ok joined.near_half) known
  far_only := fun _ known => acquainted.sibling_unique (forwarder_eq_ok joined.far_half) known

end JoinedBy

/-- Between ticks what is on its way in a pipe is what can be claimed from it. -/
theorem Sound.transit_eq (sound : fabric.Sound) (id : PipeId) :
    fabric.transit id = ((fabric.pipes.pipe? id).bind (·.peek?)).toList := by
  unfold transit
  cases holds : fabric.pipes.pipe? id with
  | none => rfl
  | some pipe =>
      have between := sound.pipe_cases holds
      cases pipe with
      | pending value => exact absurd rfl (between.1 value)
      | empty | ready value | claimed | delivered => rfl

end Fabric

namespace Grid

variable {near far : Handle} {own onward : Link}

theorem conveyed_execute {grid : Grid} (reachable : grid.Reachable)
    (pair : grid.fabric.Exclusive near far own onward) {command : Command}
    (drives : command.drives) :
    Conveyed grid.fabric (grid.execute command).2.fabric near own onward (grid.actsOf command) ∧
      (grid.execute command).2.fabric.Exclusive near far own onward := by
  cases command with
  | start | stop => exact ⟨.of_transit rfl, pair⟩
  | setEnabled handle enabled =>
      simp only [execute, setEnabled]
      cases known : grid.fabric.node handle with
      | error error => exact ⟨.of_transit rfl, pair⟩
      | ok node =>
          have was := Fabric.node_eq_ok known
          have forwarders : ∀ {other half},
              (grid.fabric.setRole handle (.node (node.setEnabled enabled))).role? other =
                some (.forwarder half) ↔ grid.fabric.role? other = some (.forwarder half) :=
            Fabric.role?_setNode_forwarder was _
          exact ⟨.of_transit rfl, pair.of_same (Fabric.link?_setRole _ _ _)
            (forwarders.2 pair.near_role) (forwarders.2 pair.far_role) forwarders.1⟩
  | step =>
      simp only [execute, step, actsOf]
      cases grid.power with
      | stopped => exact ⟨.of_transit rfl, pair⟩
      | running => exact pair.conveyed_tick reachable.sound.lawful reachable.single
  | _ => simp [Command.drives] at drives

theorem conveyed_run {grid : Grid} (reachable : grid.Reachable)
    (pair : grid.fabric.Exclusive near far own onward) {history : List Command}
    (drives : ∀ command ∈ history, command.drives) :
    Conveyed grid.fabric (grid.run history).fabric near own onward (grid.acts history) := by
  induction history generalizing grid with
  | nil => exact .of_transit rfl
  | cons command rest ih =>
      rw [List.forall_mem_cons] at drives
      obtain ⟨first, still⟩ := conveyed_execute reachable pair drives.1
      exact first.trans (ih (reachable.execute command) still drives.2)

/-- A pair that has nothing on its way to a node is a lossless queue toward it: whenever the grid
has been driven for some time, the words that the half in front of the other node has claimed are
those that the node has claimed, in the same order, and the one that it can claim next.  Each
direction is so whatever happens in the other.  No third half with a link may take one of the two
for its sibling; in a young grid none does. -/
theorem Reachable.pair_is_lossless_queue {grid : Grid} (reachable : grid.Reachable)
    {first second : Handle} {firstPort secondPort : Port} {one two : Link}
    (joined : grid.fabric.JoinedBy near far first firstPort second secondPort one two)
    (unrivalled : grid.Young ∨ grid.fabric.Unrivalled near far)
    {history : List Command} (drives : ∀ command ∈ history, command.drives) :
    (grid.fabric.pipes.pipe? two.receive = some .empty →
      claimedFrom (grid.acts history) near one.send =
        claimedFrom (grid.acts history) second two.receive ++
          (((grid.run history).fabric.pipes.pipe? two.receive).bind (·.peek?)).toList) ∧
    (grid.fabric.pipes.pipe? one.receive = some .empty →
      claimedFrom (grid.acts history) far two.send =
        claimedFrom (grid.acts history) first one.receive ++
          (((grid.run history).fabric.pipes.pipe? one.receive).bind (·.peek?)).toList) := by
  have alone := unrivalled.elim (fun young => joined.unrivalled young.acquainted) id
  have pair := joined.exclusive reachable.sound.lawful.wired reachable.single alone
  have sound := (reachable.run history).sound
  constructor
  · intro empty
    have forth := conveyed_run reachable pair drives
    rw [Conveyed, sound.transit_eq] at forth
    have nothing : grid.fabric.transit two.receive = [] := Fabric.transit_of_pipe? empty
    simpa only [Link.flip, nothing, List.nil_append] using forth
  · intro empty
    have back := conveyed_run reachable pair.symm drives
    rw [Conveyed, sound.transit_eq] at back
    have nothing : grid.fabric.transit one.receive = [] := Fabric.transit_of_pipe? empty
    simpa only [Link.flip, nothing, List.nil_append] using back

/-- A running grid in which two nodes write to each other through a forwarder pair. -/
def exchanging : Grid :=
  joinedOnce.run
    [.compile ⟨0, 0⟩ ["MOV 7 RIGHT".toList, "MOV 8 RIGHT".toList, "MOV RIGHT ACC".toList],
      .compile ⟨1, 0⟩ ["MOV LEFT ACC".toList, "MOV 9 LEFT".toList]]

/-- After six ticks one of two words has arrived, and a third one is about to arrive at the other
end. -/
theorem exchanging_six_ticks : exchanging.Reachable ∧
    claimedFrom (exchanging.acts (.replicate 6 .step)) ⟨2, 0⟩ ⟨0⟩ = [7, 8] ∧
    claimedFrom (exchanging.acts (.replicate 6 .step)) ⟨1, 0⟩ ⟨3⟩ ++ [8] = [7, 8] ∧
    claimedFrom (exchanging.acts (.replicate 6 .step)) ⟨3, 0⟩ ⟨2⟩ =
      claimedFrom (exchanging.acts (.replicate 6 .step)) ⟨0, 0⟩ ⟨1⟩ ++ [9] := by
  have young : exchanging.Young := by
    rw [exchanging, joinedOnce, ← run_append]
    exact standard_young (by decide)
  have joined : exchanging.fabric.JoinedBy ⟨2, 0⟩ ⟨3, 0⟩ ⟨0, 0⟩ .right ⟨1, 0⟩ .left
      ⟨⟨0⟩, ⟨1⟩, ⟨2, 0⟩⟩ ⟨⟨2⟩, ⟨3⟩, ⟨3, 0⟩⟩ := by
    constructor <;> decide +kernel
  have drives : ∀ command ∈ List.replicate 6 Command.step, command.drives := by
    simp [Command.drives]
  have queue := young.reachable.pair_is_lossless_queue joined (.inl young) drives
  have taken : claimedFrom (exchanging.acts (.replicate 6 .step)) ⟨2, 0⟩ ⟨0⟩ = [7, 8] := by
    decide +kernel
  have forth : (((exchanging.run (.replicate 6 .step)).fabric.pipes.pipe? ⟨3⟩).bind
      (·.peek?)).toList = [8] := by decide +kernel
  have back : (((exchanging.run (.replicate 6 .step)).fabric.pipes.pipe? ⟨1⟩).bind
      (·.peek?)).toList = [9] := by decide +kernel
  have toSecond := queue.1 (by decide +kernel)
  have toFirst := queue.2 (by decide +kernel)
  rw [forth, taken] at toSecond
  rw [back] at toFirst
  exact ⟨young.reachable, taken, toSecond.symm, toFirst⟩

/-! ## A third half -/

/-- A half that has outlived its sibling: the link of `3v0` was undone, so `4v0` has forgotten it
and was removed alone. -/
def bereaved : Grid :=
  standard.run
    [.addNode, .addNode, .addNode, .join ⟨0, 0⟩ .right ⟨1, 0⟩ .left, .unlink ⟨3, 0⟩ .left, .start,
      .step, .split ⟨4, 0⟩]

/-- When the generation of its slot has wrapped around, a half of a new pair is called `4v0` again.
Removing `3v0` takes it along, and the other half of the pair is left with its link. -/
def bereavedAgain : Grid :=
  (bereaved.aged 4 0xFFFFFFFF).run [.join ⟨0, 0⟩ .right ⟨1, 0⟩ .left, .split ⟨3, 0⟩]

/-- When the generation has wrapped around once more, a third pair has a half `4v0`, and the half
that was left takes it for its sibling. -/
def rivalled : Grid :=
  (bereavedAgain.aged 4 0xFFFFFFFF).run
    [.join ⟨0, 0⟩ .right ⟨2, 0⟩ .left, .compile ⟨1, 0⟩ ["MOV 7 LEFT".toList]]

/-- The pair joins `0v0` and `2v0` and has nothing on its way.  Yet a word that `1v0` writes is
ready for `0v0` after two ticks, while the half in front of `2v0` has claimed nothing. -/
theorem rivalled_breaks_queue : rivalled.Reachable ∧
    rivalled.fabric.JoinedBy ⟨4, 0⟩ ⟨3, 1⟩ ⟨0, 0⟩ .right ⟨2, 0⟩ .left
      ⟨⟨2⟩, ⟨3⟩, ⟨4, 0⟩⟩ ⟨⟨4⟩, ⟨5⟩, ⟨3, 1⟩⟩ ∧
    (∀ id ∈ [⟨2⟩, ⟨3⟩, ⟨4⟩, ⟨5⟩], rivalled.fabric.pipes.pipe? id = some .empty) ∧
    (∀ command ∈ List.replicate 2 Command.step, command.drives) ∧
    claimedFrom (rivalled.acts (.replicate 2 .step)) ⟨3, 1⟩ ⟨4⟩ = [] ∧
    (rivalled.run (.replicate 2 .step)).fabric.pipes.pipe? ⟨3⟩ = some (.ready 7) ∧
    claimedFrom (rivalled.acts (.replicate 2 .step)) ⟨3, 1⟩ ⟨4⟩ ≠
      claimedFrom (rivalled.acts (.replicate 2 .step)) ⟨0, 0⟩ ⟨3⟩ ++
        (((rivalled.run (.replicate 2 .step)).fabric.pipes.pipe? ⟨3⟩).bind (·.peek?)).toList := by
  have first : bereaved.Reachable := standard_reachable.run _
  have second : bereavedAgain.Reachable :=
    (first.aged (by decide +kernel) (by decide +kernel) _).run _
  have third : rivalled.Reachable :=
    (second.aged (by decide +kernel) (by decide +kernel) _).run _
  refine ⟨third, ?_, by decide +kernel, by simp [Command.drives], by decide +kernel,
    by decide +kernel, by decide +kernel⟩
  constructor <;> decide +kernel

end Grid

end NodeGrid
