import NodeGrid.Proofs.Fabric.Phase

/-!
# Traces of the first phase

A trace lists the actions of a phase, each with the fabric that it found.  What has been claimed
from a pipe, and which writes have been completed, is read off the two sides of an action.  For
every node the words claimed from it and the writes completed by it balance: an action that takes a
word from a node makes the node owe a completion, and an action that completes a write pays it.
-/

namespace NodeGrid

/-- Going through all ports to pick from one of them gives what that port has. -/
theorem Port.filterMap_all {α : Type} {pick : Port → Option α} (port : Port)
    (only : ∀ other, other ≠ port → pick other = none) :
    Port.all.filterMap pick = (pick port).toList := by
  cases port with
  | left => cases picked : pick .left <;> simp [all, picked, only]
  | right => cases picked : pick .right <;> simp [all, picked, only]
  | up => cases picked : pick .up <;> simp [all, picked, only]
  | down => cases picked : pick .down <;> simp [all, picked, only]

theorem Node.pending?_setEnabled (node : Node) (enabled : Bool) :
    (node.setEnabled enabled).pending? = node.pending? := by
  cases activity : node.activity with
  | idle =>
      unfold setEnabled wake
      split <;> simp [pending?, activity]
  | running | waitingRead => simp [setEnabled, wake, pending?, activity]
  | waitingWrite write => simp [setEnabled, wake, pending?, activity]

namespace Fabric

/-- The write that the node under a handle waits for. -/
def pendingWrite? (fabric : Fabric) (handle : Handle) : Option PendingWrite :=
  (fabric.node handle).toOption.bind (·.pending?)

/-- The last port of the node under a handle. -/
def last? (fabric : Fabric) (handle : Handle) : Option Port :=
  (fabric.node handle).toOption.bind (·.core.registers.last)

/-- The claims of a node's word that it has not acknowledged, each with its port. -/
def owed (fabric : Fabric) (handle : Handle) : List (Port × Word) :=
  (fabric.pendingWrite? handle).elim [] fun write =>
    Port.all.filterMap fun port =>
      if (fabric.sent? handle port).any (·.isClaimed) then some (port, write.value) else none

theorem pendingWrite?_of_role {fabric : Fabric} {handle : Handle} {node : Node}
    (role : fabric.role? handle = some (.node node)) :
    fabric.pendingWrite? handle = node.pending? := by
  rw [pendingWrite?, node_eq_ok_iff.2 role]
  rfl

theorem pendingWrite?_of_waiting {fabric : Fabric} {handle : Handle} {node : Node}
    {write : PendingWrite} (role : fabric.role? handle = some (.node node))
    (waiting : node.activity = .waitingWrite write) :
    fabric.pendingWrite? handle = some write := by
  rw [pendingWrite?_of_role role, Node.pending?_eq_some_iff.2 waiting]

theorem last?_of_role {fabric : Fabric} {handle : Handle} {node : Node}
    (role : fabric.role? handle = some (.node node)) :
    fabric.last? handle = node.core.registers.last := by
  rw [last?, node_eq_ok_iff.2 role]
  rfl

theorem owed_congr {before after : Fabric} {handle : Handle}
    (pending : after.pendingWrite? handle = before.pendingWrite? handle)
    (claims : ∀ port, (after.sent? handle port).any (·.isClaimed) =
      (before.sent? handle port).any (·.isClaimed)) :
    after.owed handle = before.owed handle := by
  simp only [owed, pending, claims]

theorem owed_eq_nil {fabric : Fabric} {handle : Handle}
    (unclaimed : ∀ port, (fabric.sent? handle port).any (·.isClaimed) = false) :
    fabric.owed handle = [] := by
  unfold owed
  cases fabric.pendingWrite? handle with
  | none => rfl
  | some write => simp [unclaimed]

/-- If a word has been claimed on one port alone, it is owed there. -/
theorem owed_eq_single {fabric : Fabric} {handle : Handle} {write : PendingWrite} {port : Port}
    (pending : fabric.pendingWrite? handle = some write)
    (claimed : (fabric.sent? handle port).any (·.isClaimed))
    (only : ∀ other, other ≠ port → (fabric.sent? handle other).any (·.isClaimed) = false) :
    fabric.owed handle = [(port, write.value)] := by
  rw [owed, pending, Option.elim_some, Port.filterMap_all port]
  · simp [claimed]
  · intro other different
    simp [only other different]

/-- If a word has been claimed on a port, it has been claimed there alone, and is owed there. -/
theorem Lawful.owed_of_claimed {fabric : Fabric} (lawful : fabric.Lawful) {handle : Handle}
    {node : Node} {write : PendingWrite} {port : Port} {link : Link} {entry : OpenPipe}
    (role : fabric.role? handle = some (.node node))
    (pending : fabric.pendingWrite? handle = some write)
    (linked : fabric.link? handle port = some link)
    (opened : fabric.pipes.get? link.send = some entry) (claimed : entry.pipe.isClaimed) :
    fabric.owed handle = [(port, write.value)] := by
  apply owed_eq_single pending
  · rw [sent?_of_get? linked opened]
    exact claimed
  · intro other elsewhere
    apply sent?_any_eq_false
    intro facing rival facingLinked rivalOpened
    have apart : link.send ≠ facing.send :=
      fun same => elsewhere (lawful.wired.sole facingLinked linked same.symm)
    have empty := lawful.coherent.exclusive role opened rivalOpened
      (lawful.wired.writer_eq linked opened) (lawful.wired.writer_eq facingLinked rivalOpened)
      apart claimed
    rw [empty]
    rfl

end Fabric

/-- An action: a module, and the fabric that it finds. -/
structure Act where
  before : Fabric
  actor : Handle

/-- The end of a write: where the write went, the port that the claim was reported on, and the
word. -/
structure Completion where
  destination : Option Port
  reported : Option Port
  value : Word
  deriving DecidableEq, Repr

namespace Act

/-- The fabric that an action leaves. -/
def after (act : Act) : Fabric :=
  act.before.stepModule act.actor

/-- The word that an action claims from a pipe. -/
def claim? (act : Act) (id : PipeId) : Option Word :=
  if act.after.pipes.pipe? id = some .claimed then (act.before.pipes.pipe? id).bind (·.peek?)
  else none

/-- The words that an action claims from the pipes of a module, with the ports that sent them. -/
def claims (act : Act) (writer : Handle) : List (Port × Word) :=
  Port.all.filterMap fun port =>
    (act.before.link? writer port).bind fun link => (act.claim? link.send).map (port, ·)

/-- Where a write of a node went that the action ended.  A write to any port went to the port that
is then recorded as the last one. -/
def destination? (act : Act) (writer : Handle) : Target → Option Port
  | .port port => some port
  | .last => act.before.last? writer
  | .any => act.after.last? writer
  | .acc | .nil => none

/-- The port that the actor's ports report a claim on. -/
def reported? (act : Act) : Option Port :=
  (act.before.modules.get? act.actor).bind fun member =>
    (Bus.pollDelivered (⟨member.ports, act.before.pipes⟩ : PortBus)).1

/-- The write of a node that the action ends: it was pending before, and no write is after. -/
def completion? (act : Act) (writer : Handle) : Option Completion :=
  if act.actor = writer then
    match act.before.pendingWrite? writer, act.after.pendingWrite? writer with
    | some write, none => some ⟨act.destination? writer write.target, act.reported?, write.value⟩
    | _, _ => none
  else none

theorem mem_claims {act : Act} {writer : Handle} {port : Port} {link : Link} {value : Word}
    (linked : act.before.link? writer port = some link) (taken : act.claim? link.send = some value) :
    (port, value) ∈ act.claims writer := by
  refine List.mem_filterMap.2 ⟨port, Port.mem_all port, ?_⟩
  simp [linked, taken]

theorem claims_eq_nil {act : Act} {writer : Handle}
    (nothing : ∀ port link, act.before.link? writer port = some link →
      act.claim? link.send = none) : act.claims writer = [] := by
  refine List.filterMap_eq_nil_iff.2 fun port _ => ?_
  cases linked : act.before.link? writer port with
  | none => rfl
  | some link => simp [nothing port link linked]

theorem claims_eq_single {act : Act} {writer : Handle} {port : Port} {link : Link} {value : Word}
    (linked : act.before.link? writer port = some link)
    (taken : act.claim? link.send = some value)
    (only : ∀ other facing, other ≠ port → act.before.link? writer other = some facing →
      act.claim? facing.send = none) : act.claims writer = [(port, value)] := by
  rw [claims, Port.filterMap_all port]
  · simp [linked, taken]
  · intro other different
    cases elsewhere : act.before.link? writer other with
    | none => rfl
    | some facing => simp [only other facing different elsewhere]

/-- A pipe that holds the same before and after has not been claimed from. -/
theorem claim?_eq_none {act : Act} {id : PipeId} {entry later : OpenPipe}
    (opened : act.before.pipes.get? id = some entry)
    (stepped : act.after.pipes.get? id = some later)
    (kept : later.pipe = .claimed → entry.pipe.peek? = none) : act.claim? id = none := by
  simp only [claim?, PipeTable.pipe?, stepped, opened, Option.map_some, Option.some.injEq,
    Option.bind_some]
  split
  next claimed => exact kept claimed
  next => rfl

section Foreign

variable {act : Act} (lawful : act.before.Lawful) {writer : Handle} {node : Node}
variable (role : act.before.role? writer = some (.node node)) (different : writer ≠ act.actor)
include lawful role different

omit lawful in
theorem pendingWrite?_foreign :
    act.after.pendingWrite? writer = act.before.pendingWrite? writer := by
  rw [Fabric.pendingWrite?_of_role role, Fabric.pendingWrite?_of_role]
  exact (Fabric.role?_stepModule_of_ne different).trans role

/-- A module that takes no word from a node leaves the node's pipes alone. -/
theorem balance_of_not_giver (gives : act.before.giver? act.actor ≠ some writer) :
    act.before.owed writer ++ act.claims writer = act.after.owed writer := by
  have kept : ∀ {port link entry}, act.before.link? writer port = some link →
      act.before.pipes.get? link.send = some entry →
      act.before.drained act.actor link.send entry = entry := by
    intro port link entry linked opened
    have own := lawful.wired.writer_eq linked opened
    rcases lawful.wired.drained_cases act.actor opened with ⟨draws, -, -⟩ | ⟨giver, -⟩ | kept
    · exact absurd (by simp [Fabric.giver?, draws, PipeTable.writer?, opened, own]) gives
    · exact absurd (own ▸ giver) gives
    · exact kept
  have sent : ∀ port, act.after.sent? writer port = act.before.sent? writer port := by
    intro port
    cases linked : act.before.link? writer port with
    | none => simp [Fabric.sent?, after, linked]
    | some link =>
        obtain ⟨entry, opened, -⟩ := lawful.wired.exists_get? linked
        rw [after, lawful.coherent.sent?_stepModule_foreign lawful.wired linked opened role different,
          kept linked opened, Fabric.sent?_of_get? linked opened]
  have nothing : act.claims writer = [] := by
    refine claims_eq_nil fun port link linked => ?_
    obtain ⟨entry, opened, own⟩ := lawful.wired.exists_get? linked
    have stepped := lawful.coherent.get?_stepModule_foreign lawful.wired opened (own ▸ role)
      (own ▸ different)
    rw [kept linked opened] at stepped
    refine claim?_eq_none opened stepped fun claimed => ?_
    rw [claimed]
    rfl
  rw [nothing, List.append_nil]
  exact (Fabric.owed_congr (pendingWrite?_foreign role different)
    fun port => by rw [sent port]).symm

section Drawn

variable {port : Port} {link : Link} (linked : act.before.link? writer port = some link)
variable (draws : act.before.drawn? act.actor = some link.send)
include linked draws

omit different in
/-- A word that is taken from a node is the one that the node waits to write. -/
theorem ready_of_drawn : ∃ taken write, act.before.pipes.get? link.send = some taken ∧
    taken.writer = writer ∧ taken.pipe = .ready write.value ∧
    act.before.pendingWrite? writer = some write := by
  obtain ⟨_, _, taken, value, -, -, opened, ready⟩ := lawful.wired.ready_of_drawn draws
  obtain ⟨write, waiting, -, -, carries⟩ :=
    lawful.coherent.awaited role linked opened (by simp [ready])
  have same : value = write.value := by simpa [ready, Pipe.Carries] using carries
  exact ⟨taken, write, opened, lawful.wired.writer_eq linked opened, same ▸ ready,
    Fabric.pendingWrite?_of_waiting role waiting⟩

omit different in
/-- Every other pipe of the node was unclaimed, since this one was ready, and is empty afterwards. -/
theorem others_of_drawn {other : Port} {facing : Link} {rival : OpenPipe} (elsewhere : other ≠ port)
    (facingLinked : act.before.link? writer other = some facing)
    (rivalOpened : act.before.pipes.get? facing.send = some rival) :
    rival.pipe.isClaimed = false ∧
      (act.before.drained act.actor facing.send rival).pipe = .empty := by
  obtain ⟨taken, write, opened, own, ready, -⟩ := ready_of_drawn lawful role linked draws
  have rivalOwn := lawful.wired.writer_eq facingLinked rivalOpened
  have apart : facing.send ≠ link.send :=
    fun same => elsewhere (lawful.wired.sole facingLinked linked same)
  constructor
  · by_contra claimed
    have empty := lawful.coherent.exclusive role rivalOpened opened rivalOwn own apart
      (by simpa using claimed)
    simp [ready] at empty
  · simp [Fabric.drained, Fabric.giver?, draws, apart.symm, PipeTable.writer?, opened, own, rivalOwn]

omit different in
theorem owed_before_drawn : act.before.owed writer = [] := by
  refine Fabric.owed_eq_nil fun other => Fabric.sent?_any_eq_false ?_
  intro facing rival facingLinked rivalOpened
  by_cases same : other = port
  · obtain ⟨taken, write, opened, -, ready, -⟩ := ready_of_drawn lawful role linked draws
    subst same
    rw [linked] at facingLinked
    cases facingLinked
    rw [opened] at rivalOpened
    cases rivalOpened
    simp [ready, Pipe.isClaimed]
  · exact (others_of_drawn lawful role linked draws same facingLinked rivalOpened).1

theorem claims_of_drawn {write : PendingWrite}
    (pending : act.before.pendingWrite? writer = some write) :
    act.claims writer = [(port, write.value)] := by
  obtain ⟨taken, _, opened, own, ready, same⟩ := ready_of_drawn lawful role linked draws
  rw [pending] at same
  cases same
  apply claims_eq_single linked
  · have stepped := lawful.coherent.get?_stepModule_foreign lawful.wired opened (own ▸ role)
      (own ▸ different)
    simp [claim?, after, PipeTable.pipe?, stepped, Fabric.drained, draws, opened, ready, Pipe.peek?]
  · intro other facing elsewhere facingLinked
    obtain ⟨rival, rivalOpened, rivalOwn⟩ := lawful.wired.exists_get? facingLinked
    have stepped := lawful.coherent.get?_stepModule_foreign lawful.wired rivalOpened
      (rivalOwn ▸ role) (rivalOwn ▸ different)
    have empty := (others_of_drawn lawful role linked draws elsewhere facingLinked rivalOpened).2
    refine claim?_eq_none rivalOpened stepped fun claimed => ?_
    simp [empty] at claimed

theorem owed_after_drawn {write : PendingWrite}
    (pending : act.before.pendingWrite? writer = some write) :
    act.after.owed writer = [(port, write.value)] := by
  have sent : ∀ {other facing rival}, act.before.link? writer other = some facing →
      act.before.pipes.get? facing.send = some rival →
      act.after.sent? writer other =
        some (act.before.drained act.actor facing.send rival).pipe :=
    fun linked opened => lawful.coherent.sent?_stepModule_foreign lawful.wired linked opened role
      different
  apply Fabric.owed_eq_single ((pendingWrite?_foreign role different).trans pending)
  · obtain ⟨taken, _, opened, -⟩ := ready_of_drawn lawful role linked draws
    simp [sent linked opened, Fabric.drained, draws, Pipe.isClaimed]
  · intro other elsewhere
    cases facingLinked : act.before.link? writer other with
    | none => simp [Fabric.sent?, after, facingLinked]
    | some facing =>
        obtain ⟨rival, rivalOpened, -⟩ := lawful.wired.exists_get? facingLinked
        rw [sent facingLinked rivalOpened,
          (others_of_drawn lawful role linked draws elsewhere facingLinked rivalOpened).2]
        rfl

/-- A module that takes the word of a node makes the node owe for it. -/
theorem balance_of_drawn :
    act.before.owed writer ++ act.claims writer = act.after.owed writer := by
  obtain ⟨_, write, -, -, -, pending⟩ := ready_of_drawn lawful role linked draws
  rw [owed_before_drawn lawful role linked draws,
    claims_of_drawn lawful role different linked draws pending,
    owed_after_drawn lawful role different linked draws pending, List.nil_append]

end Drawn

end Foreign

section Own

variable {act : Act} (lawful : act.before.Lawful) {ports : Ports} {node : Node}
variable (found : act.before.modules.get? act.actor = some ⟨ports, .node node⟩)
include found

theorem reported?_eq : act.reported? = act.before.pipes.delivery? ports := by
  rw [reported?, found, Option.bind_some, PortBus.pollDelivered_mk]

theorem role_after :
    act.after.role? act.actor = some (.node (node.after ports act.before.pipes)) :=
  Fabric.role?_stepModule_node found

include lawful

/-- Nobody claims its own word. -/
theorem claims_own : act.claims act.actor = [] := by
  refine claims_eq_nil fun port link linked => ?_
  obtain ⟨entry, opened, own⟩ := lawful.wired.exists_get? linked
  have stepped := lawful.coherent.get?_stepModule_own lawful.wired found opened own
  refine claim?_eq_none opened stepped fun claimed => ?_
  cases delivery : node.delivery? ports act.before.pipes with
  | some port => simp [delivery] at claimed
  | none =>
      rw [delivery, Option.elim_none] at claimed
      cases offers : (node.after ports act.before.pipes).offering? ports act.before.pipes
          link.send with
      | none =>
          rw [offers, Option.elim_none] at claimed
          rw [claimed]
          rfl
      | some write =>
          rw [offers, Option.elim_some, OpenPipe.offered] at claimed
          split at claimed
          next => simp at claimed
          next =>
            rw [claimed]
            rfl

/-- A node that acknowledges a claim ends its write at the port that the claim is reported on, and
that is where the write went. -/
theorem completion?_of_delivery {port : Port}
    (delivery : node.delivery? ports act.before.pipes = some port) :
    ∃ write, node.activity = .waitingWrite write ∧
      act.completion? act.actor = some ⟨some port, some port, write.value⟩ := by
  have role : act.before.role? act.actor = some (.node node) := by simp [Fabric.role?, found]
  obtain ⟨write, waiting, goes_on⟩ := Node.after_of_delivery delivery
  obtain ⟨-, -, link, entry, linked, opened, known⟩ := Node.delivered_of_delivery delivery
  obtain ⟨pending, same, reached, -⟩ := lawful.coherent.awaited role
    (Fabric.link?_eq_some_iff.2 ⟨_, found, linked⟩) opened (by simp [known])
  rw [waiting] at same
  cases same
  have before := Fabric.pendingWrite?_of_waiting role waiting
  have later : act.after.pendingWrite? act.actor = none := by
    rw [Fabric.pendingWrite?_of_role (role_after found), goes_on]
    rfl
  have reported : act.reported? = some port := by
    rw [reported?_eq found]
    exact (Option.ite_none_right_eq_some.1 (show _ = _ from delivery)).2
  have destination : act.destination? act.actor write.target = some port := by
    cases target : write.target with
    | port side =>
        rw [target, Core.reach, List.mem_singleton] at reached
        rw [destination?, reached]
    | any =>
        rw [destination?, Fabric.last?_of_role (role_after found), goes_on]
        simp [Node.complete, target, Core.advance, Core.jump]
    | last =>
        rw [target, Core.reach, Option.mem_toList] at reached
        rw [destination?, Fabric.last?_of_role role, reached]
    | acc | nil => simp [target, Core.reach] at reached
  refine ⟨write, waiting, ?_⟩
  simp [completion?, before, later, destination, reported]

omit lawful in
/-- A node that acknowledges nothing ends no write. -/
theorem completion?_of_no_delivery (delivery : node.delivery? ports act.before.pipes = none) :
    act.completion? act.actor = none := by
  have role : act.before.role? act.actor = some (.node node) := by simp [Fabric.role?, found]
  simp only [completion?, if_true, Fabric.pendingWrite?_of_role role]
  cases pending : node.pending? with
  | none => rfl
  | some write =>
      have waiting := Node.pending?_eq_some_iff.1 pending
      rw [Fabric.pendingWrite?_of_role (role_after found),
        Node.after_of_waiting waiting delivery, pending]

theorem owed_of_delivery {port : Port} {write : PendingWrite}
    (delivery : node.delivery? ports act.before.pipes = some port)
    (waiting : node.activity = .waitingWrite write) :
    act.before.owed act.actor = [(port, write.value)] ∧ act.after.owed act.actor = [] := by
  have role : act.before.role? act.actor = some (.node node) := by simp [Fabric.role?, found]
  obtain ⟨-, -, link, entry, placed, opened, known⟩ := Node.delivered_of_delivery delivery
  have linked := Fabric.link?_eq_some_iff.2 ⟨_, found, placed⟩
  constructor
  · exact lawful.owed_of_claimed role (Fabric.pendingWrite?_of_waiting role waiting) linked opened
      (by simp [known, Pipe.isClaimed])
  · obtain ⟨_, -, goes_on⟩ := Node.after_of_delivery delivery
    rw [Fabric.owed, Fabric.pendingWrite?_of_role (role_after found), goes_on]
    rfl

/-- An offer claims nothing and undoes no claim. -/
theorem isClaimed_own (delivery : node.delivery? ports act.before.pipes = none) (port : Port) :
    (act.after.sent? act.actor port).any (·.isClaimed) =
      (act.before.sent? act.actor port).any (·.isClaimed) := by
  cases linked : act.before.link? act.actor port with
  | none => simp [Fabric.sent?, after, linked]
  | some link =>
      obtain ⟨entry, opened, -⟩ := lawful.wired.exists_get? linked
      have law := lawful.coherent.sent?_stepModule_own lawful.wired linked opened found
      rw [delivery, Option.elim_none] at law
      rw [after, law, Fabric.sent?_of_get? linked opened]
      cases (node.after ports act.before.pipes).offering? ports act.before.pipes link.send with
      | none => rfl
      | some write =>
          cases holds : entry.pipe <;> simp [OpenPipe.offered, holds, Pipe.isClaimed]

/-- What a node owes for its word is what it acknowledges or goes on to owe. -/
theorem balance_own :
    act.before.owed act.actor =
      (act.completion? act.actor).toList.filterMap
        (fun done => done.reported.map (·, done.value)) ++ act.after.owed act.actor := by
  have role : act.before.role? act.actor = some (.node node) := by simp [Fabric.role?, found]
  cases delivery : node.delivery? ports act.before.pipes with
  | some port =>
      obtain ⟨write, waiting, done⟩ := completion?_of_delivery lawful found delivery
      obtain ⟨owed_before, owed_after⟩ := owed_of_delivery lawful found delivery waiting
      simp [done, owed_before, owed_after]
  | none =>
      have claims := isClaimed_own lawful found delivery
      rw [completion?_of_no_delivery found delivery, Option.toList_none, List.filterMap_nil,
        List.nil_append]
      cases pending : node.pending? with
      | some write =>
          refine (Fabric.owed_congr ?_ claims).symm
          rw [Fabric.pendingWrite?_of_role role, Fabric.pendingWrite?_of_role (role_after found),
            Node.after_of_waiting (Node.pending?_eq_some_iff.1 pending) delivery]
      | none =>
          have idle : node.activity.status ≠ .waitingWrite := by
            intro waiting
            unfold Node.pending? at pending
            cases activity : node.activity <;> simp [activity, Activity.status] at waiting pending
          have unclaimed : ∀ port,
              (act.before.sent? act.actor port).any (·.isClaimed) = false := by
            refine fun port => Fabric.sent?_any_eq_false fun link entry linked opened => ?_
            have own := lawful.wired.writer_eq linked opened
            rw [lawful.coherent.silent lawful.wired role opened own idle]
            rfl
          rw [Fabric.owed_eq_nil unclaimed, Fabric.owed_eq_nil]
          intro port
          rw [claims, unclaimed]

end Own

/-! ## The balance of an action -/

variable {act : Act} (lawful : act.before.Lawful) {writer : Handle} {node : Node}
variable (role : act.before.role? writer = some (.node node))
include lawful role

/-- What a node owed and what is now claimed from it is what it has acknowledged and what it owes
afterwards. -/
theorem balance :
    act.before.owed writer ++ act.claims writer =
      (act.completion? writer).toList.filterMap (fun done => done.reported.map (·, done.value)) ++
        act.after.owed writer := by
  by_cases same : writer = act.actor
  · subst same
    obtain ⟨ports, found⟩ := Fabric.role?_eq_some_iff.1 role
    rw [claims_own lawful found, List.append_nil]
    exact balance_own lawful found
  · have nothing : act.completion? writer = none := by
      rw [completion?, if_neg (Ne.symm same)]
    rw [nothing, Option.toList_none, List.filterMap_nil, List.nil_append]
    by_cases gives : act.before.giver? act.actor = some writer
    · obtain ⟨drawn, draws, opened⟩ := Option.bind_eq_some_iff.1 gives
      obtain ⟨port, link, linked, rfl⟩ := lawful.wired.owned opened
      exact balance_of_drawn lawful role same linked draws
    · exact balance_of_not_giver lawful role same gives

/-- A write went to the port that its claim is reported on. -/
theorem destination_of_completion {done : Completion} (ends : act.completion? writer = some done) :
    done.destination = done.reported ∧ done.reported.isSome := by
  have same : act.actor = writer := by
    by_contra different
    simp [completion?, different] at ends
  subst same
  obtain ⟨ports, found⟩ := Fabric.role?_eq_some_iff.1 role
  cases delivery : node.delivery? ports act.before.pipes with
  | some port =>
      obtain ⟨write, -, done_eq⟩ := completion?_of_delivery lawful found delivery
      rw [ends] at done_eq
      cases done_eq
      exact ⟨rfl, rfl⟩
  | none => simp [completion?_of_no_delivery found delivery] at ends

/-- The word at a port is claimed by the module that the port is linked to. -/
theorem actor_of_claim {port : Port} {link : Link} {value : Word}
    (linked : act.before.link? writer port = some link)
    (taken : act.claim? link.send = some value) : act.actor = link.peer := by
  obtain ⟨entry, opened, own⟩ := lawful.wired.exists_get? linked
  by_cases same : writer = act.actor
  · subst same
    obtain ⟨ports, found⟩ := Fabric.role?_eq_some_iff.1 role
    have claimed := mem_claims linked taken
    simp [claims_own lawful found] at claimed
  · have stepped := lawful.coherent.get?_stepModule_foreign lawful.wired opened (own ▸ role)
      (own ▸ same)
    rcases lawful.wired.drained_cases act.actor opened with ⟨draws, -, -⟩ | ⟨-, emptied⟩ | kept
    · obtain ⟨place, facing, _, _, facingLinked, receives, -⟩ := lawful.wired.ready_of_drawn draws
      obtain ⟨other, mirrored⟩ := lawful.wired.mirror linked
      exact (lawful.wired.receive_injective facingLinked mirrored receives).1
    · have nothing := claim?_eq_none opened stepped (by simp [emptied])
      simp [nothing] at taken
    · have nothing := claim?_eq_none opened stepped fun claimed => by
        rw [kept] at claimed
        rw [claimed]
        rfl
      simp [nothing] at taken

end Act

end NodeGrid
