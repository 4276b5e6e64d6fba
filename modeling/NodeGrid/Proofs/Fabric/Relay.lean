import NodeGrid.Proofs.Fabric.Sound

/-!
# The two halves of a forwarder pair

When both halves of a pair act, each acknowledges what its own node has taken and may pass on a word
to the node of the other.  A half that acts first sees the pipe toward the other node before the
other half has acknowledged anything there, so a word may pass a tick earlier or later with the
order of the halves.  It is settled here exactly when.
-/

namespace NodeGrid

/-- What a half does to a pipe that is written by a module and holds something, given the word that
it passes on from its own link to the link of its sibling. -/
def Link.passed (own onward : Link) (word : Option Word) (id : PipeId) (writer : Handle)
    (pipe : Pipe) : Pipe :=
  if id = own.send then pipe.acknowledged
  else
    match word with
    | none => pipe
    | some value =>
        if id = onward.send then .pending value
        else if id = own.receive then .claimed
        else if writer = own.peer then .empty
        else pipe

/-- What two halves do to a pipe does not depend on their order, as long as the words that they pass
on do not. -/
theorem Link.passed_comm {own onward : Link} {near_word far_word : Option Word} {id : PipeId}
    {writer : Handle} {pipe : Pipe} (sends : own.send ≠ onward.send)
    (receives : own.receive ≠ onward.receive) (nearReads : id = own.receive → writer = own.peer)
    (farReads : id = onward.receive → writer = onward.peer)
    (both : near_word.isSome → far_word.isSome → own.peer ≠ onward.peer) :
    onward.passed own far_word id writer (own.passed onward near_word id writer pipe) =
      own.passed onward near_word id writer (onward.passed own far_word id writer pipe) := by
  unfold passed
  by_cases nearSends : id = own.send
  · subst nearSends
    cases near_word <;> cases far_word <;> simp [sends, Pipe.acknowledged]
  · by_cases farSends : id = onward.send
    · subst farSends
      cases near_word <;> cases far_word <;> simp [sends.symm, Pipe.acknowledged]
    · simp only [nearSends, farSends, if_false]
      cases near_word with
      | none => rfl
      | some value =>
          cases far_word with
          | none => rfl
          | some word =>
              have peers := both rfl rfl
              by_cases nearHere : id = own.receive
              · simp [nearHere, receives, nearReads nearHere, peers]
              · by_cases farHere : id = onward.receive
                · simp [farHere, receives.symm, farReads farHere, peers.symm]
                · simp only [nearHere, farHere, if_false]
                  split <;> split <;> rfl

namespace PipeTable

/-- The word that a half passes on: the one that is ready in front of it, if the pipe toward the
other node is empty. -/
def carried (pipes : PipeTable) (own onward : Link) : Option Word :=
  if pipes.pipe? onward.send = some .empty then (pipes.pipe? own.receive).bind (·.peek?) else none

/-- A word is ready in front of a half. -/
def Waiting (pipes : PipeTable) (own : Link) : Prop :=
  ((pipes.pipe? own.receive).bind (·.peek?)).isSome

/-- A half could pass on its word as soon as the other half has acknowledged a claim.  Nothing of
this is left if both halves stand in front of one node and have copies of one word, and the other
half can pass on its copy. -/
def Late (pipes : PipeTable) (own onward : Link) : Prop :=
  pipes.Waiting own ∧ pipes.pipe? onward.send = some .delivered ∧
    ¬(own.peer = onward.peer ∧ pipes.Waiting onward ∧ pipes.pipe? own.send = some .empty)

/-- Both halves stand in front of one node, have copies of one word, and could pass them on. -/
def Contended (pipes : PipeTable) (own onward : Link) : Prop :=
  own.peer = onward.peer ∧ pipes.Waiting own ∧ pipes.Waiting onward ∧
    pipes.pipe? own.send = some .empty ∧ pipes.pipe? onward.send = some .empty

instance (pipes : PipeTable) (own : Link) : Decidable (pipes.Waiting own) :=
  inferInstanceAs (Decidable (_ = true))

instance (pipes : PipeTable) (own onward : Link) : Decidable (pipes.Late own onward) :=
  inferInstanceAs (Decidable (_ ∧ _ ∧ ¬(_ ∧ _ ∧ _)))

instance (pipes : PipeTable) (own onward : Link) : Decidable (pipes.Contended own onward) :=
  inferInstanceAs (Decidable (_ ∧ _ ∧ _ ∧ _ ∧ _))

theorem peek?_of_get? {pipes : PipeTable} {id : PipeId} {entry : OpenPipe}
    (opened : pipes.get? id = some entry) :
    (pipes.pipe? id).bind (·.peek?) = entry.pipe.peek? := by
  rw [pipe?, opened]
  rfl

theorem carried_cases {pipes : PipeTable} {own onward : Link} {entry : OpenPipe}
    (opened : pipes.get? own.receive = some entry) :
    pipes.carried own onward = none ∨ pipes.carried own onward = entry.pipe.peek? := by
  rw [carried, peek?_of_get? opened]
  split
  next => exact .inr rfl
  next => exact .inl rfl

end PipeTable

theorem Forwarder.passed?_eq_carried {pipes : PipeTable} {own onward : Link}
    (sends : own.send ≠ onward.send) (apart : own.send ≠ own.receive) :
    Forwarder.passed? pipes own (some onward) = pipes.carried own onward := by
  rw [Forwarder.passed?, Option.bind_some, PipeTable.isEmpty, PipeTable.pipe?,
    PipeTable.get?_acknowledge_of_ne _ sends.symm, PipeTable.pipe?,
    PipeTable.get?_acknowledge_of_ne _ apart.symm, ← PipeTable.pipe?, ← PipeTable.pipe?,
    PipeTable.carried]
  cases pipes.pipe? onward.send with
  | none => rfl
  | some pipe => cases pipe <;> rfl

/-- When two halves pass on the same words in either order, as a matter of what their four pipes
hold.  The words in front of the halves count only as far as there are any. -/
theorem passes_same_iff (near_out far_out : Pipe) (near_word far_word : Option Word) (copies : Prop)
    [Decidable copies] :
    ((if far_out = .empty ∨ far_out = .delivered then
          if (if near_out = .empty then far_word else none).isSome ∧ copies then none else near_word
        else none) = (if far_out = .empty then near_word else none) ∧
      (if near_out = .empty ∨ near_out = .delivered then
          if (if far_out = .empty then near_word else none).isSome ∧ copies then none else far_word
        else none) = (if near_out = .empty then far_word else none)) ↔
    ¬((near_word.isSome ∧ far_out = .delivered ∧
          ¬(copies ∧ far_word.isSome ∧ near_out = .empty)) ∨
        (far_word.isSome ∧ near_out = .delivered ∧
          ¬(copies ∧ near_word.isSome ∧ far_out = .empty)) ∨
        (copies ∧ near_word.isSome ∧ far_word.isSome ∧ near_out = .empty ∧ far_out = .empty)) := by
  by_cases copies <;> cases near_word <;> cases far_word <;> cases near_out <;> cases far_out <;>
    simp_all

/-- Two options that can only hold the same word are equal if they agree on whether they hold it. -/
theorem eq_of_isSome_iff {first second word : Option Word} (one : first = none ∨ first = word)
    (two : second = none ∨ second = word) (same : first.isSome ↔ second.isSome) :
    first = second := by
  rcases one with rfl | rfl <;> rcases two with rfl | rfl <;>
    simp_all [Option.isSome_iff_ne_none]

namespace Fabric

theorem forwarderLink?_eq {fabric : Fabric} {handle : Handle} {ports : Ports} {half : Forwarder}
    (found : fabric.modules.get? handle = some ⟨ports, .forwarder half⟩) :
    fabric.forwarderLink? handle = Module.firstLink? ⟨ports, .forwarder half⟩ := by
  unfold forwarderLink?
  rw [found]
  rfl

/-- The link of a forwarder depends on its ports alone. -/
theorem forwarderLink?_congr {before after : Fabric} {handle : Handle} {half later : Forwarder}
    (role : before.role? handle = some (.forwarder half))
    (roleLater : after.role? handle = some (.forwarder later))
    (links : ∀ port, after.link? handle port = before.link? handle port) :
    after.forwarderLink? handle = before.forwarderLink? handle := by
  obtain ⟨ports, found⟩ := role?_eq_some_iff.1 role
  obtain ⟨portsLater, foundLater⟩ := role?_eq_some_iff.1 roleLater
  have same : portsLater = ports := by
    apply PortMap.ext_get
    intro port
    simpa [link?, found, foundLater] using links port
  rw [forwarderLink?_eq found, forwarderLink?_eq foundLater, same]
  rfl

/-- A forwarder without a link does nothing. -/
theorem stepModule_of_unlinked {fabric : Fabric} {handle : Handle} {half : Forwarder}
    (role : fabric.role? handle = some (.forwarder half))
    (unlinked : fabric.forwarderLink? handle = none) : fabric.stepModule handle = fabric := by
  obtain ⟨ports, found⟩ := role?_eq_some_iff.1 role
  rw [forwarderLink?_eq found] at unlinked
  simp only [stepModule, found, unlinked]

/-- Two linked forwarders are halves of one pair. -/
structure Paired (fabric : Fabric) (near far : Handle) (own onward : Link) : Prop where
  near_role : fabric.role? near = some (.forwarder ⟨some far⟩)
  far_role : fabric.role? far = some (.forwarder ⟨some near⟩)
  near_link : fabric.forwarderLink? near = some own
  far_link : fabric.forwarderLink? far = some onward

namespace Paired

variable {fabric : Fabric} {near far : Handle} {own onward : Link}

theorem symm (paired : Paired fabric near far own onward) : Paired fabric far near onward own :=
  ⟨paired.far_role, paired.near_role, paired.far_link, paired.near_link⟩

theorem course? (paired : Paired fabric near far own onward) :
    fabric.course? near = some (own, some onward) := by
  obtain ⟨ports, found⟩ := role?_eq_some_iff.1 paired.near_role
  have first := paired.near_link
  rw [forwarderLink?_eq found] at first
  simp [Fabric.course?, found, first, paired.far_link]

variable (lawful : fabric.Lawful) (paired : Paired fabric near far own onward)
include lawful paired

theorem distinct : near ≠ far :=
  fun same => lawful.fronted.sibling_ne paired.near_role same.symm

/-- The four pipes of a pair, with their writers: the two that the halves write to, and the two that
the nodes in front of them write to. -/
theorem ends :
    (∃ port, fabric.link? near port = some own) ∧ (∃ port, fabric.link? far port = some onward) ∧
    (∃ node, fabric.role? own.peer = some (.node node)) ∧
    (∃ node, fabric.role? onward.peer = some (.node node)) := by
  obtain ⟨⟨port, linked⟩, -⟩ := forwarderLink?_eq_some paired.near_link
  obtain ⟨⟨place, facing⟩, -⟩ := forwarderLink?_eq_some paired.far_link
  exact ⟨⟨port, linked⟩, ⟨place, facing⟩, lawful.fronted.faces_node paired.near_role linked,
    lawful.fronted.faces_node paired.far_role facing⟩

/-- The node in front of a half is no half. -/
theorem peer_ne : own.peer ≠ near ∧ own.peer ≠ far := by
  obtain ⟨-, -, ⟨node, role⟩, -⟩ := paired.ends lawful
  constructor
  · intro same
    simp [same, paired.near_role] at role
  · intro same
    simp [same, paired.far_role] at role

/-- No two of these pipes are the same, since they have different writers. -/
theorem ids_ne : own.send ≠ onward.send ∧ own.send ≠ own.receive ∧ own.receive ≠ onward.send ∧
    own.send ≠ onward.receive ∧ own.receive ≠ onward.receive := by
  obtain ⟨⟨port, linked⟩, ⟨place, facing⟩, -⟩ := paired.ends lawful
  have writers : ∀ {first second : PipeId} {one two : Handle},
      fabric.pipes.writer? first = some one → fabric.pipes.writer? second = some two →
      one ≠ two → first ≠ second := by
    rintro first second one two here there different rfl
    rw [here] at there
    exact different (Option.some.inj there)
  refine ⟨writers (lawful.wired.writer linked) (lawful.wired.writer facing) (paired.distinct lawful),
    lawful.wired.apart linked,
    writers (lawful.wired.writer_receive linked) (lawful.wired.writer facing)
      (paired.peer_ne lawful).2,
    writers (lawful.wired.writer linked) (lawful.wired.writer_receive facing)
      (paired.symm.peer_ne lawful).2.symm, ?_⟩
  intro same
  exact paired.distinct lawful (lawful.wired.receive_injective linked facing same).1

omit lawful in
theorem pipes_stepModule :
    (fabric.stepModule near).pipes = (Forwarder.relay fabric.pipes own (some onward)).2 := by
  obtain ⟨ports, found⟩ := role?_eq_some_iff.1 paired.near_role
  rw [pipes_stepModule_forwarder found, relayed, paired.course?, Option.elim_some]

/-- A half that passes on nothing acknowledges what its node has taken. -/
theorem pipe?_stepModule_of_idle {id : PipeId} {entry : OpenPipe}
    (opened : fabric.pipes.get? id = some entry) (idle : fabric.pipes.carried own onward = none) :
    (fabric.stepModule near).pipes.pipe? id =
      some (if id = own.send then entry.pipe.acknowledged else entry.pipe) := by
  obtain ⟨sends, apart, -⟩ := paired.ids_ne lawful
  obtain ⟨settled, found, -, holds⟩ := PipeTable.exists_acknowledged opened own.send
  rw [paired.pipes_stepModule,
    Forwarder.relay_of_not_passed ((Forwarder.passed?_eq_carried sends apart).trans idle),
    PipeTable.pipe?, found, Option.map_some, holds]

/-- A half that passes on a word offers it to the other node, marks it in front of its own node and
takes the copies of it, besides acknowledging what its node has taken. -/
theorem pipe?_stepModule_of_carried {id : PipeId} {entry : OpenPipe}
    (opened : fabric.pipes.get? id = some entry) {value : Word}
    (carries : fabric.pipes.carried own onward = some value) :
    (fabric.stepModule near).pipes.pipe? id = some
      (if id = onward.send then .pending value
      else if id = own.receive then .claimed
      else if entry.writer = own.peer then .empty
      else if id = own.send then entry.pipe.acknowledged
      else entry.pipe) := by
  obtain ⟨⟨port, linked⟩, ⟨place, facing⟩, ⟨node, role⟩, -⟩ := paired.ends lawful
  obtain ⟨sends, apart, crosses, -⟩ := paired.ids_ne lawful
  have passes := (Forwarder.passed?_eq_carried sends apart).trans carries
  obtain ⟨taken, held, ready⟩ := Forwarder.ready_of_passed apart passes
  have takenWriter := lawful.wired.writer_eq_peer linked held
  have heldNow := (fabric.pipes.get?_acknowledge_of_ne apart.symm).trans held
  obtain ⟨settled, found, same_writer, holds⟩ := PipeTable.exists_acknowledged opened own.send
  rw [paired.pipes_stepModule, Forwarder.relay_of_passed passes, PipeTable.pipe?,
    PipeTable.get?_offer, PipeTable.get?_claim heldNow ready, PipeTable.get?_claim heldNow ready]
  by_cases toward : id = onward.send
  · subst toward
    have empty : entry.pipe = .empty := by
      have room := (Option.ite_none_right_eq_some.1 (show _ = _ from carries)).1
      simpa [PipeTable.pipe?, opened] using room
    have unread : settled.writer ≠ taken.writer := by
      rw [same_writer, lawful.wired.writer_eq facing opened, takenWriter]
      exact (paired.peer_ne lawful).2.symm
    rw [if_pos rfl, if_pos rfl, if_neg crosses.symm, found, Option.map_some, Option.map_some,
      Option.map_some, OpenPipe.bereft_of_ne unread, OpenPipe.offered_pipe, holds,
      if_neg sends.symm, if_pos empty]
  · rw [if_neg toward, if_neg toward]
    by_cases here : id = own.receive
    · rw [if_pos here, if_pos here, Option.map_some]
    · rw [if_neg here, if_neg here, found, Option.map_some, Option.map_some]
      by_cases read : entry.writer = own.peer
      · have unsent : id ≠ own.send := by
          refine lawful.wired.ne_send opened linked ?_
          rw [read]
          exact (paired.peer_ne lawful).1.symm
        have kept : settled = entry := by
          rw [PipeTable.get?_acknowledge_of_ne _ unsent, opened] at found
          exact (Option.some.inj found).symm
        have drains := lawful.coherent.drains opened lawful.wired (read ▸ role)
        rw [if_pos read, kept, drains held ready here, if_pos (takenWriter.trans read.symm)]
      · have unread : settled.writer ≠ taken.writer := by rwa [same_writer, takenWriter]
        rw [if_neg read, OpenPipe.bereft_of_ne unread, holds]

/-- What a half does to every pipe. -/
theorem pipe?_stepModule {id : PipeId} {entry : OpenPipe}
    (opened : fabric.pipes.get? id = some entry) :
    (fabric.stepModule near).pipes.pipe? id =
      some (own.passed onward (fabric.pipes.carried own onward) id entry.writer entry.pipe) := by
  obtain ⟨⟨port, linked⟩, -⟩ := paired.ends lawful
  obtain ⟨sends, apart, -⟩ := paired.ids_ne lawful
  cases carries : fabric.pipes.carried own onward with
  | none => exact paired.pipe?_stepModule_of_idle lawful opened carries
  | some value =>
      rw [paired.pipe?_stepModule_of_carried lawful opened carries, Link.passed]
      by_cases sent : id = own.send
      · have unread : entry.writer ≠ own.peer := by
          subst sent
          rw [lawful.wired.writer_eq linked opened]
          exact (paired.peer_ne lawful).1.symm
        simp [sent, sends, apart, unread]
      · simp [sent]

/-- A pair stays a pair when one half acts. -/
theorem stepModule : Paired (fabric.stepModule near) near far own onward := by
  obtain ⟨ports, found⟩ := role?_eq_some_iff.1 paired.near_role
  have first := paired.near_link
  rw [forwarderLink?_eq found] at first
  have near_role : (fabric.stepModule near).role? near = some (.forwarder ⟨some far⟩) := by
    simp only [Fabric.stepModule, found, first, stepForwarder, Option.bind_some, paired.far_link]
    simp [role?, found]
  have far_role : (fabric.stepModule near).role? far = some (.forwarder ⟨some near⟩) :=
    (role?_stepModule_of_ne (paired.distinct lawful).symm).trans paired.far_role
  have links := link?_stepModule fabric near
  exact ⟨near_role, far_role,
    (forwarderLink?_congr paired.near_role near_role (links near)).trans paired.near_link,
    (forwarderLink?_congr paired.far_role far_role (links far)).trans paired.far_link⟩

/-- What both halves do to every pipe, one after the other. -/
theorem pipe?_stepModule_both {id : PipeId} {entry : OpenPipe}
    (opened : fabric.pipes.get? id = some entry) :
    ((fabric.stepModule near).stepModule far).pipes.pipe? id =
      some (onward.passed own ((fabric.stepModule near).pipes.carried onward own) id entry.writer
        (own.passed onward (fabric.pipes.carried own onward) id entry.writer entry.pipe)) := by
  have first := paired.pipe?_stepModule lawful opened
  obtain ⟨later, openedLater, writer⟩ := (alike_stepModule fabric near).exists_get? opened
  rw [PipeTable.pipe?, openedLater, Option.map_some, Option.some.injEq] at first
  rw [(paired.stepModule lawful).symm.pipe?_stepModule (lawful.stepModule near) openedLater, writer,
    first]

/-- What the pipes of a pair hold. -/
theorem exists_pipes : ∃ near_out far_out near_in far_in,
    fabric.pipes.pipe? own.send = some near_out ∧ fabric.pipes.pipe? onward.send = some far_out ∧
    fabric.pipes.get? own.receive = some near_in ∧ near_in.writer = own.peer ∧
    fabric.pipes.get? onward.receive = some far_in ∧ far_in.writer = onward.peer := by
  obtain ⟨⟨port, linked⟩, ⟨place, facing⟩, -⟩ := paired.ends lawful
  obtain ⟨nearOut, nearOpened, -⟩ := lawful.wired.exists_get? linked
  obtain ⟨farOut, farOpened, -⟩ := lawful.wired.exists_get? facing
  obtain ⟨nearIn, nearRead, nearWriter⟩ := lawful.wired.exists_get?_receive linked
  obtain ⟨farIn, farRead, farWriter⟩ := lawful.wired.exists_get?_receive facing
  exact ⟨nearOut.pipe, farOut.pipe, nearIn, farIn,
    PipeTable.pipe?_eq_some_iff.2 ⟨nearOut, nearOpened, rfl⟩,
    PipeTable.pipe?_eq_some_iff.2 ⟨farOut, farOpened, rfl⟩, nearRead, nearWriter, farRead, farWriter⟩

/-- The word that the second half passes on: its own pipe may have been acknowledged by the first
one, and its word may have been taken by the first one as a copy. -/
theorem carried_stepModule {near_out : Pipe} {far_in : OpenPipe}
    (nearOut : fabric.pipes.pipe? own.send = some near_out)
    (farIn : fabric.pipes.get? onward.receive = some far_in) (writer : far_in.writer = onward.peer) :
    (fabric.stepModule near).pipes.carried onward own =
      if near_out = .empty ∨ near_out = .delivered then
        if (fabric.pipes.carried own onward).isSome ∧ onward.peer = own.peer then none
        else far_in.pipe.peek?
      else none := by
  obtain ⟨sends, apart, crosses, away, receives⟩ := paired.ids_ne lawful
  obtain ⟨-, back, -⟩ := paired.symm.ids_ne lawful
  obtain ⟨entry, opened, rfl⟩ := PipeTable.pipe?_eq_some_iff.1 nearOut
  rw [PipeTable.carried, paired.pipe?_stepModule lawful opened,
    paired.pipe?_stepModule lawful farIn, writer]
  have acknowledged : own.passed onward (fabric.pipes.carried own onward) own.send entry.writer
      entry.pipe = entry.pipe.acknowledged := by simp [Link.passed]
  have waiting : own.passed onward (fabric.pipes.carried own onward) onward.receive onward.peer
      far_in.pipe =
        if (fabric.pipes.carried own onward).isSome ∧ onward.peer = own.peer then .empty
        else far_in.pipe := by
    unfold Link.passed
    rw [if_neg away.symm]
    cases fabric.pipes.carried own onward with
    | none => simp
    | some value => simp [back.symm, receives.symm]
  simp only [acknowledged, waiting, Option.some.injEq, Pipe.acknowledged_eq_empty_iff,
    Option.bind_some]
  refine if_congr Iff.rfl ?_ rfl
  split <;> rfl

/-- All that the second half can pass on is the word that lay in front of it before the first one
acted. -/
theorem carried_stepModule_cases {near_out : Pipe} {far_in : OpenPipe}
    (nearOut : fabric.pipes.pipe? own.send = some near_out)
    (farIn : fabric.pipes.get? onward.receive = some far_in) (writer : far_in.writer = onward.peer) :
    (fabric.stepModule near).pipes.carried onward own = none ∨
      (fabric.stepModule near).pipes.carried onward own = far_in.pipe.peek? := by
  rw [paired.carried_stepModule lawful nearOut farIn writer]
  split
  next =>
    split
    next => exact .inl rfl
    next => exact .inr rfl
  next => exact .inl rfl

/-- If the second half passes on a word after the first one has, they stand in front of different
nodes: otherwise the first half has taken the copies of its word, and the second one has none. -/
theorem peers_ne (first : (fabric.pipes.carried own onward).isSome)
    (second : ((fabric.stepModule near).pipes.carried onward own).isSome) :
    own.peer ≠ onward.peer := by
  intro same
  obtain ⟨near_out, _, _, far_in, nearOut, -, -, -, farIn, farWriter⟩ := paired.exists_pipes lawful
  rw [paired.carried_stepModule lawful nearOut farIn farWriter] at second
  simp [first, same] at second

/-- The marks that both halves leave say which of them passed on a word. -/
theorem claimed_iff {near_in far_in : OpenPipe}
    (nearIn : fabric.pipes.get? own.receive = some near_in) (nearWriter : near_in.writer = own.peer)
    (farIn : fabric.pipes.get? onward.receive = some far_in)
    (farWriter : far_in.writer = onward.peer) (nearUnclaimed : near_in.pipe ≠ .claimed)
    (farUnclaimed : far_in.pipe ≠ .claimed) :
    (((fabric.stepModule near).stepModule far).pipes.pipe? own.receive = some .claimed ↔
      (fabric.pipes.carried own onward).isSome) ∧
    (((fabric.stepModule near).stepModule far).pipes.pipe? onward.receive = some .claimed ↔
      ((fabric.stepModule near).pipes.carried onward own).isSome) := by
  obtain ⟨sends, apart, crosses, away, receives⟩ := paired.ids_ne lawful
  obtain ⟨-, back, crossesBack, awayBack, -⟩ := paired.symm.ids_ne lawful
  rw [paired.pipe?_stepModule_both lawful nearIn, paired.pipe?_stepModule_both lawful farIn,
    nearWriter, farWriter]
  unfold Link.passed
  cases first : fabric.pipes.carried own onward with
  | none =>
      cases (fabric.stepModule near).pipes.carried onward own with
      | none => simp [apart.symm, back.symm, crosses, crossesBack, nearUnclaimed, farUnclaimed]
      | some word =>
          by_cases same : own.peer = onward.peer
          · simp [apart.symm, back.symm, crosses, crossesBack, receives, same]
          · simp [apart.symm, back.symm, crosses, crossesBack, receives, same, nearUnclaimed]
  | some value =>
      cases also : (fabric.stepModule near).pipes.carried onward own with
      | none =>
          by_cases same : onward.peer = own.peer
          · simp [apart.symm, back.symm, crosses, crossesBack, receives.symm, same]
          · simp [apart.symm, back.symm, crosses, crossesBack, receives.symm, same, farUnclaimed]
      | some word =>
          have peers := paired.peers_ne lawful (by simp [first]) (by simp [also])
          simp [apart.symm, back.symm, crosses, crossesBack, receives, peers]

/-- If each half passes on the same word in either order, the order leaves no trace. -/
theorem pipe?_comm (first : (fabric.stepModule far).pipes.carried own onward =
      fabric.pipes.carried own onward)
    (second : (fabric.stepModule near).pipes.carried onward own =
      fabric.pipes.carried onward own) (id : PipeId) :
    ((fabric.stepModule near).stepModule far).pipes.pipe? id =
      ((fabric.stepModule far).stepModule near).pipes.pipe? id := by
  cases opened : fabric.pipes.get? id with
  | none =>
      have closed : ∀ {one two : Handle},
          ((fabric.stepModule one).stepModule two).pipes.pipe? id = none := by
        intro one two
        have alike := (alike_stepModule fabric one).trans (alike_stepModule _ two)
        rw [PipeTable.pipe?_eq_none_iff, alike.writer, PipeTable.writer?, opened, Option.map_none]
      rw [closed, closed]
  | some entry =>
      obtain ⟨⟨port, linked⟩, ⟨place, facing⟩, -⟩ := paired.ends lawful
      obtain ⟨sends, -, -, -, receives⟩ := paired.ids_ne lawful
      rw [paired.pipe?_stepModule_both lawful opened, paired.symm.pipe?_stepModule_both lawful opened,
        first, second]
      congr 1
      apply Link.passed_comm sends receives
      case nearReads => exact fun here => lawful.wired.writer_eq_peer linked (here ▸ opened)
      case farReads => exact fun here => lawful.wired.writer_eq_peer facing (here ▸ opened)
      case both => exact fun here there => paired.peers_ne lawful here (second ▸ there)

omit lawful paired in
/-- The pipes tell in which order two halves acted exactly when one of them passes on something else
as the second one than as the first one. -/
theorem pipe?_comm_iff (sound : fabric.Sound) (paired : Paired fabric near far own onward) :
    (∀ id, ((fabric.stepModule near).stepModule far).pipes.pipe? id =
      ((fabric.stepModule far).stepModule near).pipes.pipe? id) ↔
    (fabric.stepModule far).pipes.carried own onward = fabric.pipes.carried own onward ∧
      (fabric.stepModule near).pipes.carried onward own = fabric.pipes.carried onward own := by
  have lawful := sound.lawful
  obtain ⟨near_out, far_out, near_in, far_in, nearOut, farOut, nearIn, nearWriter, farIn, farWriter⟩ :=
    paired.exists_pipes lawful
  constructor
  · intro same
    have unclaimed : ∀ {id entry}, fabric.pipes.get? id = some entry → entry.pipe ≠ .claimed :=
      fun opened => (sound.pipe_cases (PipeTable.pipe?_eq_some_iff.2 ⟨_, opened, rfl⟩)).2
    have marks := paired.claimed_iff lawful nearIn nearWriter farIn farWriter (unclaimed nearIn)
      (unclaimed farIn)
    have marksBack := paired.symm.claimed_iff lawful farIn farWriter nearIn nearWriter
      (unclaimed farIn) (unclaimed nearIn)
    have near_marks := marksBack.2.symm.trans (same own.receive ▸ marks.1)
    have far_marks := marks.2.symm.trans (same onward.receive ▸ marksBack.1)
    exact ⟨eq_of_isSome_iff
        (paired.symm.carried_stepModule_cases lawful farOut nearIn nearWriter)
        (PipeTable.carried_cases nearIn) near_marks,
      eq_of_isSome_iff (paired.carried_stepModule_cases lawful nearOut farIn farWriter)
        (PipeTable.carried_cases farIn) far_marks⟩
  · intro carried
    exact paired.pipe?_comm lawful carried.1 carried.2

omit lawful paired in
/-- The order of two linked halves of a pair matters exactly when one of them would pass on its word
late, or both contend for one word. -/
theorem order_iff (sound : fabric.Sound) (paired : Paired fabric near far own onward) :
    (∀ id, ((fabric.stepModule near).stepModule far).pipes.pipe? id =
      ((fabric.stepModule far).stepModule near).pipes.pipe? id) ↔
    ¬(fabric.pipes.Late own onward ∨ fabric.pipes.Late onward own ∨
      fabric.pipes.Contended own onward) := by
  have lawful := sound.lawful
  obtain ⟨near_out, far_out, near_in, far_in, nearOut, farOut, nearIn, nearWriter, farIn, farWriter⟩ :=
    paired.exists_pipes lawful
  have peers : (onward.peer = own.peer) ↔ own.peer = onward.peer := eq_comm
  rw [paired.pipe?_comm_iff sound, paired.carried_stepModule lawful nearOut farIn farWriter,
    paired.symm.carried_stepModule lawful farOut nearIn nearWriter]
  simp only [PipeTable.carried, PipeTable.Late, PipeTable.Contended, PipeTable.Waiting,
    PipeTable.peek?_of_get? nearIn, PipeTable.peek?_of_get? farIn, nearOut, farOut,
    Option.some.injEq, peers]
  exact passes_same_iff near_out far_out near_in.pipe.peek? far_in.pipe.peek?
    (own.peer = onward.peer)

/-- What two halves contend for is a word that the node in front of both offers on any port. -/
theorem shared_of_contended (contended : fabric.pipes.Contended own onward) :
    ∃ node write, fabric.role? own.peer = some (.node node) ∧
      node.activity = .waitingWrite write ∧ write.target = .any := by
  obtain ⟨⟨port, linked⟩, ⟨place, facing⟩, ⟨node, role⟩, -⟩ := paired.ends lawful
  obtain ⟨peers, waiting, rival, -⟩ := contended
  have awaits : ∀ {link : Link} {handle : Handle} {side : Port}, link.peer = own.peer →
      fabric.link? handle side = some link → fabric.pipes.Waiting link →
      ∃ facing write, fabric.link? own.peer facing = some (link.flip handle) ∧
        node.activity = .waitingWrite write ∧ facing ∈ node.core.reach write.target := by
    intro link handle side peer here ready
    obtain ⟨facing, mirrored⟩ := lawful.wired.mirror here
    rw [peer] at mirrored
    obtain ⟨value, word⟩ := Option.isSome_iff_exists.1 ready
    obtain ⟨pipe, holds, peeked⟩ := Option.bind_eq_some_iff.1 word
    obtain ⟨entry, opened, rfl⟩ := PipeTable.pipe?_eq_some_iff.1 holds
    have nonempty : entry.pipe ≠ .empty := fun empty => by simp [empty, Pipe.peek?] at peeked
    obtain ⟨write, pending, reached, -⟩ :=
      lawful.coherent.awaited role mirrored opened nonempty
    exact ⟨facing, write, mirrored, pending, reached⟩
  obtain ⟨first, write, one, pending, reached⟩ := awaits rfl linked waiting
  obtain ⟨second, other, two, pendingToo, reachedToo⟩ := awaits peers.symm facing rival
  rw [pending] at pendingToo
  cases pendingToo
  refine ⟨node, write, role, pending, ?_⟩
  by_contra single
  -- A named target reaches one port, and there is only one half behind a port.
  rw [Core.eq_of_mem_reach single reached reachedToo, two] at one
  have links := congrArg Link.peer (Option.some.inj one)
  exact paired.distinct lawful links.symm

end Paired

/-- Whether the order of the two halves of a pair matters, as a matter of what their four pipes
hold. -/
def OrderMatters (fabric : Fabric) (near far : Handle) : Prop :=
  ∃ own ∈ fabric.forwarderLink? near, ∃ onward ∈ fabric.forwarderLink? far,
    fabric.pipes.Late own onward ∨ fabric.pipes.Late onward own ∨ fabric.pipes.Contended own onward

instance (fabric : Fabric) (near far : Handle) : Decidable (fabric.OrderMatters near far) :=
  inferInstanceAs (Decidable (∃ _ ∈ _, ∃ _ ∈ _, _))

theorem orderMatters_iff {fabric : Fabric} {near far : Handle} {own onward : Link}
    (near_link : fabric.forwarderLink? near = some own)
    (far_link : fabric.forwarderLink? far = some onward) :
    fabric.OrderMatters near far ↔ fabric.pipes.Late own onward ∨ fabric.pipes.Late onward own ∨
      fabric.pipes.Contended own onward := by
  simp [OrderMatters, near_link, far_link]

/-- A half without a link does nothing, whether its sibling acts before or after it. -/
theorem stepModule_comm_of_unlinked {fabric : Fabric} {near far : Handle} {half : Forwarder}
    (different : near ≠ far) (role : fabric.role? near = some (.forwarder half))
    (unlinked : fabric.forwarderLink? near = none) :
    (fabric.stepModule near).stepModule far = (fabric.stepModule far).stepModule near := by
  have roleLater : (fabric.stepModule far).role? near = some (.forwarder half) :=
    (role?_stepModule_of_ne different).trans role
  have unlinkedLater : (fabric.stepModule far).forwarderLink? near = none :=
    (forwarderLink?_congr role roleLater (link?_stepModule fabric far near)).trans unlinked
  rw [stepModule_of_unlinked role unlinked, stepModule_of_unlinked roleLater unlinkedLater]

/-- In which order two halves of a pair act can be told from the pipes exactly when one of them
would pass on its word late, or both contend for one word. -/
theorem Sound.relay_order_iff {fabric : Fabric} (sound : fabric.Sound) {near far : Handle}
    (near_role : fabric.role? near = some (.forwarder ⟨some far⟩))
    (far_role : fabric.role? far = some (.forwarder ⟨some near⟩)) :
    (∀ id, ((fabric.stepModule near).stepModule far).pipes.pipe? id =
      ((fabric.stepModule far).stepModule near).pipes.pipe? id) ↔ ¬fabric.OrderMatters near far := by
  have different : near ≠ far :=
    fun same => sound.lawful.fronted.sibling_ne near_role same.symm
  cases near_link : fabric.forwarderLink? near with
  | none =>
      rw [stepModule_comm_of_unlinked different near_role near_link]
      simp [OrderMatters, near_link]
  | some own =>
      cases far_link : fabric.forwarderLink? far with
      | none =>
          rw [stepModule_comm_of_unlinked different.symm far_role far_link]
          simp [OrderMatters, far_link]
      | some onward =>
          rw [orderMatters_iff near_link far_link]
          exact Paired.order_iff sound ⟨near_role, far_role, near_link, far_link⟩

end Fabric

end NodeGrid
