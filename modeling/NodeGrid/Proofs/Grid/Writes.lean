import NodeGrid.Proofs.Grid.Reachable

/-!
# Pending writes in the pipes of a reachable grid

Between commands the pipes that a node writes to hold its pending write and nothing else, however
the grid got there.  After a tick a node that waits has also been heard: unless its target is not
linked, its word is on its way or has been claimed.
-/

namespace NodeGrid

/-! ## Being heard -/

/-- A node that waits for a write after a step has not just acknowledged one. -/
theorem Node.delivery?_of_waiting {node : Node} {ports : Ports} {pipes : PipeTable}
    {write : PendingWrite} (waiting : (node.after ports pipes).activity = .waitingWrite write) :
    node.delivery? ports pipes = none := by
  cases delivery : node.delivery? ports pipes with
  | none => rfl
  | some port =>
      obtain ⟨pending, -, goes_on⟩ := Node.after_of_delivery delivery
      simp [goes_on, Node.complete] at waiting

namespace Fabric

/-- If the node waits for a write and is enabled, the write is in a pipe that its target leads to,
unless none of them is open. -/
def Heard (fabric : Fabric) (handle : Handle) : Prop :=
  ∀ node write, fabric.role? handle = some (.node node) → node.enabled →
    node.activity = .waitingWrite write →
    (∃ port ∈ node.core.reach write.target, (fabric.link? handle port).isSome) →
    ∃ port ∈ node.core.reach write.target, ∃ pipe, fabric.sent? handle port = some pipe ∧
      pipe ≠ .empty

variable {fabric : Fabric} (lawful : fabric.Lawful) {handle : Handle}
include lawful

/-- A node is heard as soon as it has acted. -/
theorem Lawful.heard_self : (fabric.stepModule handle).Heard handle := by
  intro node write role enabled waiting some_linked
  obtain ⟨before, known⟩ := exists_role?_of_stepModule role
  obtain ⟨ports, found⟩ := role?_eq_some_iff.1 known
  cases before with
  | forwarder half =>
      obtain ⟨_, -, still⟩ := role?_stepModule_forwarder found
      simp [still] at role
  | node old =>
      rw [role?_stepModule_node found] at role
      cases role
      have stepped : ∀ {port link entry}, fabric.link? handle port = some link →
          fabric.pipes.get? link.send = some entry →
          (fabric.stepModule handle).sent? handle port =
            some (((old.after ports fabric.pipes).offering? ports fabric.pipes link.send).elim entry
              fun write => entry.offered write.value (write.target = .any)).pipe := by
        intro port link entry linked opened
        have law := lawful.coherent.sent?_stepModule_own lawful.wired linked opened found
        rwa [Node.delivery?_of_waiting waiting, Option.elim_none] at law
      obtain ⟨port, reached, some_link⟩ := some_linked
      rw [link?_stepModule] at some_link
      obtain ⟨link, linked⟩ := Option.isSome_iff_exists.1 some_link
      obtain ⟨entry, opened, -⟩ := lawful.wired.exists_get? linked
      by_cases free : write.target = .any →
          ∀ link ∈ ports.links, fabric.pipes.isClaimed link.send = false
      · have offers : (old.after ports fabric.pipes).offering? ports fabric.pipes link.send =
            some write := by
          have placed := (link?_eq_get found port).symm.trans linked
          have sends : ports.sendAt port = some link.send := by simp [Ports.sendAt, placed]
          exact Node.offering?_eq_some_iff.2
            ⟨waiting, enabled, List.mem_filterMap.2 ⟨port, reached, sends⟩, free⟩
        refine ⟨port, reached, _, stepped linked opened, ?_⟩
        rw [offers, Option.elim_some]
        exact OpenPipe.offered_ne_empty _ _ _
      · -- A copy has been claimed already, and its pipe is the one that is not empty.
        push Not at free
        obtain ⟨any, copy, member, claimed⟩ := free
        obtain ⟨place, placed⟩ := Ports.mem_links.1 member
        have copyLinked := link?_eq_some_iff.2 ⟨_, found, placed⟩
        obtain ⟨held, heldOpened, -⟩ := lawful.wired.exists_get? copyLinked
        have nonempty : held.pipe ≠ .empty := by
          intro empty
          simp [PipeTable.isClaimed, PipeTable.pipe?, heldOpened, empty, Pipe.isClaimed] at claimed
        refine ⟨place, by simp [any, Core.reach], _, stepped copyLinked heldOpened, ?_⟩
        cases (old.after ports fabric.pipes).offering? ports fabric.pipes copy.send with
        | none => exact nonempty
        | some write => exact OpenPipe.offered_ne_empty _ _ _

/-- A node that has been heard stays so when others act: at worst its word has been claimed. -/
theorem Lawful.heard_of_ne {other : Handle} (heard : fabric.Heard handle)
    (different : handle ≠ other) : (fabric.stepModule other).Heard handle := by
  intro node write role enabled waiting some_linked
  rw [role?_stepModule_of_ne different] at role
  simp only [link?_stepModule] at some_linked
  obtain ⟨port, reached, pipe, sends, nonempty⟩ := heard node write role enabled waiting some_linked
  obtain ⟨link, entry, linked, opened, rfl⟩ := sent?_eq_some_iff.1 sends
  have stepped : ∀ {port link entry}, fabric.link? handle port = some link →
      fabric.pipes.get? link.send = some entry →
      (fabric.stepModule other).sent? handle port =
        some (fabric.drained other link.send entry).pipe :=
    fun linked opened => lawful.coherent.sent?_stepModule_foreign lawful.wired linked opened role
      different
  rcases lawful.wired.drained_cases other opened with ⟨-, -, marked⟩ | ⟨gives, -⟩ | kept
  · refine ⟨port, reached, _, stepped linked opened, ?_⟩
    simp [marked]
  · obtain ⟨drawn, draws, writer⟩ := Option.bind_eq_some_iff.1 gives
    rw [lawful.wired.writer_eq linked opened] at writer
    obtain ⟨place, copy, copyLinked, rfl⟩ := lawful.wired.owned writer
    obtain ⟨_, _, taken, value, -, -, held, ready⟩ := lawful.wired.ready_of_drawn draws
    obtain ⟨pending, same, placeReached, -⟩ :=
      lawful.coherent.awaited role copyLinked held (by simp [ready])
    rw [waiting] at same
    cases same
    refine ⟨place, placeReached, _, stepped copyLinked held, ?_⟩
    simp [drained, draws]
  · refine ⟨port, reached, _, stepped linked opened, ?_⟩
    rwa [kept]

/-- Once a node has acted in the first phase it stays heard to its end. -/
theorem Lawful.heard_stepModules {handles : List Handle} (acts : handle ∈ handles) :
    (fabric.stepModules handles).Heard handle := by
  have kept : ∀ (rest : List Handle) {fabric : Fabric}, fabric.Lawful → fabric.Heard handle →
      (fabric.stepModules rest).Heard handle := by
    intro rest
    induction rest with
    | nil => exact fun _ heard => heard
    | cons next rest ih =>
        intro fabric lawful heard
        refine ih (lawful.stepModule next) ?_
        by_cases same : handle = next
        · exact same ▸ lawful.heard_self
        · exact lawful.heard_of_ne heard same
  obtain ⟨earlier, rest, rfl⟩ := List.append_of_mem acts
  rw [stepModules_append, stepModules_cons]
  exact kept rest ((lawful.stepModules earlier).stepModule handle)
    (lawful.stepModules earlier).heard_self

omit handle in
/-- After a tick every node is heard. -/
theorem Lawful.heard_tick (handle : Handle) : fabric.tick.Heard handle := by
  intro node write role enabled waiting some_linked
  have lawful_mid := lawful.stepModules fabric.modules.handles
  have acts : handle ∈ fabric.modules.handles := by
    obtain ⟨before, known⟩ := exists_role?_of_stepModules (show _ = _ from role)
    exact mem_handles_of_role known
  obtain ⟨port, reached, pipe, sends, nonempty⟩ :=
    lawful.heard_stepModules acts node write role enabled waiting some_linked
  obtain ⟨link, entry, linked, opened, rfl⟩ := sent?_eq_some_iff.1 sends
  have committed : (fabric.stepModules fabric.modules.handles).commit.pipes.get? link.send =
      some { entry with pipe := entry.pipe.commit } := by
    rw [Fabric.commit, PipeTable.get?_commit, opened]
    rfl
  exact ⟨port, reached, entry.pipe.commit, sent?_eq_some_iff.2 ⟨link, _, linked, committed, rfl⟩,
    fun empty => nonempty (Pipe.commit_eq_empty_iff.1 empty)⟩

end Fabric

/-! ## Between commands -/

namespace Fabric

variable {fabric : Fabric} (sound : fabric.Sound)
include sound

theorem Sound.sent?_of_not_waiting {handle : Handle} {node : Node}
    (role : fabric.role? handle = some (.node node))
    (idle : node.activity.status ≠ .waitingWrite) {port : Port} {pipe : Pipe}
    (sends : fabric.sent? handle port = some pipe) : pipe = .empty := by
  obtain ⟨link, entry, linked, opened, rfl⟩ := sent?_eq_some_iff.1 sends
  exact sound.lawful.coherent.silent sound.lawful.wired role opened
    (sound.lawful.wired.writer_eq linked opened) idle

section Waiting

variable {handle : Handle} {node : Node} {write : PendingWrite}
variable (role : fabric.role? handle = some (.node node))
variable (waiting : node.activity = .waitingWrite write)
include role waiting

theorem Sound.sent?_of_waiting {port : Port} {pipe : Pipe}
    (sends : fabric.sent? handle port = some pipe) :
    pipe = .empty ∨
      port ∈ node.core.reach write.target ∧ (pipe = .ready write.value ∨ pipe = .delivered) := by
  obtain ⟨link, entry, linked, opened, rfl⟩ := sent?_eq_some_iff.1 sends
  by_cases nonempty : entry.pipe = .empty
  · exact .inl nonempty
  · obtain ⟨pending, same, reached, -, carries⟩ :=
      sound.lawful.coherent.awaited role linked opened nonempty
    rw [waiting] at same
    cases same
    have between := sound.pipe_cases (PipeTable.pipe?_eq_some_iff.2 ⟨entry, opened, rfl⟩)
    refine .inr ⟨reached, ?_⟩
    cases holds : entry.pipe with
    | empty => exact absurd holds nonempty
    | pending value => exact absurd holds (between.1 value)
    | ready value =>
        rw [holds] at carries
        exact .inl (congrArg Pipe.ready carries)
    | claimed => exact absurd holds between.2
    | delivered => exact .inr rfl

omit waiting in
theorem Sound.sent?_of_delivered {port place : Port} {pipe : Pipe} (different : place ≠ port)
    (delivered : fabric.sent? handle port = some .delivered)
    (sends : fabric.sent? handle place = some pipe) : pipe = .empty := by
  obtain ⟨link, entry, linked, opened, known⟩ := sent?_eq_some_iff.1 delivered
  obtain ⟨facing, rival, rivalLinked, rivalOpened, rfl⟩ := sent?_eq_some_iff.1 sends
  have apart : link.send ≠ facing.send :=
    fun same => different (sound.lawful.wired.sole linked rivalLinked same).symm
  exact sound.lawful.coherent.exclusive role opened rivalOpened
    (sound.lawful.wired.writer_eq linked opened) (sound.lawful.wired.writer_eq rivalLinked rivalOpened)
    apart (by simp [known, Pipe.isClaimed])

end Waiting

end Fabric

namespace Grid

/-- Node and pipes of a reachable grid agree: nothing is halfway between commands, a node that
waits for no write has only empty pipes, and the pipes of one that waits hold its word or the claim
of its word, at the ports its target leads to.  A claim leaves nothing at the other ports.  After a
tick an enabled node that waits has something in a pipe that its target leads to. -/
theorem Reachable.pipes_hold_pending_writes {grid : Grid} (reachable : grid.Reachable) :
    (∀ id pipe, grid.fabric.pipes.pipe? id = some pipe →
      (∀ value, pipe ≠ .pending value) ∧ pipe ≠ .claimed) ∧
    (∀ handle node, grid.fabric.node handle = .ok node →
      (∀ port, (grid.fabric.sent? handle port).isSome = (grid.fabric.link? handle port).isSome) ∧
      (node.activity.status ≠ .waitingWrite →
        ∀ port pipe, grid.fabric.sent? handle port = some pipe → pipe = .empty) ∧
      (∀ write, node.activity = .waitingWrite write →
        (∀ port pipe, grid.fabric.sent? handle port = some pipe →
          pipe = .empty ∨ pipe = .ready write.value ∨ pipe = .delivered) ∧
        (∀ target, node.core.destination? write.target = some target →
          ∀ port pipe, port ≠ target → grid.fabric.sent? handle port = some pipe →
            pipe = .empty) ∧
        (write.target = .any → ∀ port, grid.fabric.sent? handle port = some .delivered →
          ∀ place pipe, place ≠ port → grid.fabric.sent? handle place = some pipe →
            pipe = .empty))) ∧
    (grid.power = .running → ∀ handle node write, grid.step.fabric.node handle = .ok node →
      node.enabled → node.activity = .waitingWrite write →
      (∀ target, node.core.destination? write.target = some target →
        (grid.step.fabric.link? handle target).isSome →
        ∃ pipe, grid.step.fabric.sent? handle target = some pipe ∧ pipe ≠ .empty) ∧
      (write.target = .any → (∃ port, (grid.step.fabric.link? handle port).isSome) →
        ∃ port pipe, grid.step.fabric.sent? handle port = some pipe ∧ pipe ≠ .empty)) := by
  have sound := reachable.sound
  refine ⟨fun id pipe holds => sound.pipe_cases holds, ?_, ?_⟩
  · intro handle node known
    have role := Fabric.node_eq_ok known
    refine ⟨sound.lawful.wired.isSome_sent? handle, ?_, ?_⟩
    · intro idle port pipe sends
      exact sound.sent?_of_not_waiting role idle sends
    · intro write waiting
      refine ⟨?_, ?_, ?_⟩
      · intro port pipe sends
        rcases sound.sent?_of_waiting role waiting sends with empty | ⟨-, holds⟩
        · exact .inl empty
        · exact .inr holds
      · intro target named port pipe different sends
        rcases sound.sent?_of_waiting role waiting sends with empty | ⟨reached, -⟩
        · exact empty
        · exact absurd ((Core.mem_reach_of_destination named port).1 reached) different
      · intro any port delivered place pipe different sends
        exact sound.sent?_of_delivered role different delivered sends
  · intro running handle node write known enabled waiting
    have stepped : grid.step.fabric = grid.fabric.tick := by simp only [step, running]
    rw [stepped] at known ⊢
    have heard := sound.lawful.heard_tick handle node write (Fabric.node_eq_ok known)
      enabled waiting
    constructor
    · intro target named linked
      obtain ⟨port, reached, holds⟩ :=
        heard ⟨target, (Core.mem_reach_of_destination named target).2 rfl, linked⟩
      rw [(Core.mem_reach_of_destination named port).1 reached] at holds
      exact holds
    · intro any some_linked
      obtain ⟨port, linked⟩ := some_linked
      obtain ⟨place, -, holds⟩ := heard ⟨port, by simp [any, Core.reach], linked⟩
      exact ⟨place, holds⟩

/-- A running grid in which a node is linked twice to another one and offers a word on any port. -/
def offeringTwice : Grid :=
  standard.run
    [.addNode, .addNode, .link ⟨0, 0⟩ .right ⟨1, 0⟩ .left, .link ⟨0, 0⟩ .down ⟨1, 0⟩ .up,
      .compile ⟨0, 0⟩ ["MOV 7 ANY".toList], .start]

/-- The word is in a pipe after the next tick. -/
theorem offeringTwice_heard : offeringTwice.Reachable ∧ offeringTwice.power = .running ∧
    ∃ node, offeringTwice.step.fabric.node ⟨0, 0⟩ = .ok node ∧
      node.activity = .waitingWrite ⟨7, .any⟩ ∧
      ∃ port pipe, offeringTwice.step.fabric.sent? ⟨0, 0⟩ port = some pipe ∧ pipe ≠ .empty := by
  have reachable : offeringTwice.Reachable := standard_reachable.run _
  have running : offeringTwice.power = .running := by decide +kernel
  let node := (offeringTwice.step.fabric.node ⟨0, 0⟩).toOption.getD .new
  have known : offeringTwice.step.fabric.node ⟨0, 0⟩ = .ok node := by decide +kernel
  have enabled : node.enabled := by decide +kernel
  have waiting : node.activity = .waitingWrite ⟨7, .any⟩ := by decide +kernel
  have linked : (offeringTwice.step.fabric.link? ⟨0, 0⟩ .right).isSome := by decide +kernel
  have heard := reachable.pipes_hold_pending_writes.2.2 running ⟨0, 0⟩ node ⟨7, .any⟩ known enabled
    waiting
  exact ⟨reachable, running, node, known, waiting, heard.2 rfl ⟨.right, linked⟩⟩

end Grid

end NodeGrid
