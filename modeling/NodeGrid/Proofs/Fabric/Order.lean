import NodeGrid.Proofs.Fabric.Trace

/-!
# The order of the first phase

Among nodes the order in which modules act in the first phase does not matter.  Each node ends up
as if it had acted alone, and what a pipe holds is fixed by who takes words and by what its writer
alone would leave in it.  The exception is a word for any port that two nodes would take, where the
first one gets it.
-/

namespace NodeGrid

/-- Two searches that agree on what the one finds, where the other finds nothing that the one does
not, find the same. -/
theorem findSome?_eq_of_agree {α β : Type} {first second : α → Option β} {list : List α}
    (missing : ∀ item ∈ list, first item = none → second item = none)
    (found : ∀ item ∈ list, ∀ result, list.findSome? first = some result →
      first item = some result → second item = some result) :
    list.findSome? second = list.findSome? first := by
  cases search : list.findSome? first with
  | none =>
      rw [List.findSome?_eq_none_iff] at search ⊢
      exact fun item member => missing item member (search item member)
  | some result =>
      obtain ⟨earlier, item, later, rfl, here, before⟩ := List.findSome?_eq_some_iff.1 search
      refine List.findSome?_eq_some_iff.2 ⟨earlier, item, later, rfl, ?_, ?_⟩
      · exact found item (by simp) result search here
      · exact fun other member => missing other (by simp [member]) (before other member)

namespace Fabric

/-- Two modules would each, acting alone, claim a word that a third one offers on any port. -/
def Races (fabric : Fabric) : Prop :=
  ∃ writer ∈ fabric.modules.handles,
    (fabric.pendingWrite? writer).any (fun write => write.target = .any) ∧
    ∃ first ∈ fabric.modules.handles, ∃ second ∈ fabric.modules.handles, first ≠ second ∧
      (⟨fabric, first⟩ : Act).claims writer ≠ [] ∧ (⟨fabric, second⟩ : Act).claims writer ≠ []

instance (fabric : Fabric) : Decidable fabric.Races :=
  inferInstanceAs (Decidable (∃ _ ∈ _, _ ∧ _))

/-- No module is a forwarder. -/
def OnlyNodes (fabric : Fabric) : Prop :=
  ∀ handle ∈ fabric.modules.handles, fabric.isForwarder handle = false

instance (fabric : Fabric) : Decidable fabric.OnlyNodes :=
  inferInstanceAs (Decidable (∀ _ ∈ _, _))

theorem OnlyNodes.exists_node {fabric : Fabric} (nodes : fabric.OnlyNodes) {handle : Handle}
    {role : Role} (known : fabric.role? handle = some role) : ∃ node, role = .node node := by
  obtain ⟨ports, found⟩ := role?_eq_some_iff.1 known
  have kind := nodes handle (mem_handles_of_role known)
  cases role with
  | node node => exact ⟨node, rfl⟩
  | forwarder half => simp [isForwarder, found, Module.isNode] at kind

section Start

variable {start : Fabric} (lawful : start.Lawful) (nodes : start.OnlyNodes)
include lawful nodes

/-- Among nodes a word is taken from another node, which knows nothing of it yet. -/
theorem Lawful.taken_of_drawn {handle : Handle} {id : PipeId}
    (draws : start.drawn? handle = some id) :
    ∃ taken value, start.pipes.get? id = some taken ∧ taken.pipe = .ready value ∧
      taken.writer ≠ handle ∧ ∃ writer, start.role? taken.writer = some (.node writer) := by
  obtain ⟨_, _, taken, value, -, -, opened, ready⟩ := lawful.wired.ready_of_drawn draws
  obtain ⟨_, _, sends, -⟩ := lawful.wired.exists_send opened
  obtain ⟨_, known⟩ := role?_isSome_of_link? sends
  obtain ⟨writer, rfl⟩ := nodes.exists_node known
  refine ⟨taken, value, opened, ready, ?_, writer, known⟩
  rintro rfl
  obtain ⟨ports, found⟩ := role?_eq_some_iff.1 known
  simp only [drawn?, found, Option.bind_some] at draws
  obtain ⟨_, _, _, _, -, polled, -⟩ := Node.ready_of_drawn draws
  have empty := lawful.coherent.silent lawful.wired known opened rfl
    (Node.not_waiting_of_polled polled)
  simp [ready] at empty

/-- Acting alone, a node claims the word that it takes. -/
theorem Lawful.claims_of_drawn {handle : Handle} {id : PipeId} {taken : OpenPipe}
    (draws : start.drawn? handle = some id) (opened : start.pipes.get? id = some taken) :
    (⟨start, handle⟩ : Act).claims taken.writer ≠ [] := by
  obtain ⟨_, value, same, ready, foreign, writer, role⟩ := lawful.taken_of_drawn nodes draws
  rw [opened] at same
  cases same
  obtain ⟨port, link, linked, rfl⟩ := lawful.wired.exists_send opened
  have stepped := lawful.coherent.get?_stepModule_foreign lawful.wired opened role foreign
  have claimed : (⟨start, handle⟩ : Act).claim? link.send = some value := by
    simp [Act.claim?, Act.after, PipeTable.pipe?, stepped, drained, draws, opened, ready, Pipe.peek?]
  exact List.ne_nil_of_mem (Act.mem_claims linked claimed)

/-- No module takes its own word. -/
theorem Lawful.giver?_ne_self (handle : Handle) : start.giver? handle ≠ some handle := by
  intro gives
  obtain ⟨drawn, draws, from_self⟩ := Option.bind_eq_some_iff.1 gives
  obtain ⟨taken, _, takenOpened, -, foreign, -⟩ := lawful.taken_of_drawn nodes draws
  rw [PipeTable.writer?, takenOpened] at from_self
  exact foreign (Option.some.inj from_self)

variable (quiet : ¬start.Races)
include quiet

/-- Without a race no two nodes take words of one writer. -/
theorem Lawful.sole_reader {handle other : Handle} {id place : PipeId}
    (draws : start.drawn? handle = some id) (rivalDraws : start.drawn? other = some place)
    (writers : start.pipes.writer? id = start.pipes.writer? place) : handle = other := by
  obtain ⟨taken, value, opened, ready, -, writer, role⟩ := lawful.taken_of_drawn nodes draws
  obtain ⟨rival, word, rivalOpened, rivalReady, -⟩ := lawful.taken_of_drawn nodes rivalDraws
  obtain ⟨_, _, _, _, linked, receives, -⟩ := lawful.wired.ready_of_drawn draws
  obtain ⟨_, _, _, _, rivalLinked, rivalReceives, -⟩ := lawful.wired.ready_of_drawn rivalDraws
  by_contra different
  have apart : id ≠ place := by
    rintro rfl
    exact different (lawful.wired.receive_injective linked rivalLinked
      (receives.trans rivalReceives.symm)).1
  have opens : start.pipes.writer? id = some taken.writer := by simp [PipeTable.writer?, opened]
  have rivalOpens : start.pipes.writer? place = some taken.writer := by rw [← writers, opens]
  have rivalWriter : rival.writer = taken.writer := by
    simpa [PipeTable.writer?, rivalOpened] using rivalOpens
  obtain ⟨-, -, write, waiting, any⟩ := lawful.coherent.shared_of_two lawful.wired role opened
    rivalOpened rfl rivalWriter apart (by simp [ready]) (by simp [rivalReady])
  have pending := pendingWrite?_of_waiting role waiting
  have rivalClaims := lawful.claims_of_drawn nodes rivalDraws rivalOpened
  rw [rivalWriter] at rivalClaims
  exact quiet ⟨taken.writer, mem_handles_of_role role, by simp [pending, any], handle,
    mem_handles_of_link linked, other, mem_handles_of_link rivalLinked, different,
    lawful.claims_of_drawn nodes draws opened, rivalClaims⟩

end Start

/-- What a node leaves in its own pipe, seen from the pipe: a word that is ready stays if nobody
takes it. -/
theorem Lawful.lone_of_ready {start : Fabric} (lawful : start.Lawful) {node : Node} {id : PipeId}
    {entry : OpenPipe} (opened : start.pipes.get? id = some entry)
    (role : start.role? entry.writer = some (.node node)) {value : Word}
    (ready : entry.pipe = .ready value) :
    (start.stepModule entry.writer).pipes.pipe? id = some (.ready value) := by
  obtain ⟨ports, found⟩ := role?_eq_some_iff.1 role
  rw [PipeTable.pipe?, lawful.coherent.get?_stepModule_own lawful.wired found opened rfl]
  cases delivery : node.delivery? ports start.pipes with
  | some port =>
      -- The claim that is acknowledged would be on another pipe, which excludes a word here.
      obtain ⟨-, -, link, claim, placed, claimOpened, known⟩ := Node.delivered_of_delivery delivery
      have claimOwn := lawful.wired.writer_eq (link?_eq_some_iff.2 ⟨_, found, placed⟩) claimOpened
      have apart : link.send ≠ id := by
        rintro rfl
        rw [opened] at claimOpened
        cases claimOpened
        simp [ready] at known
      have empty := lawful.coherent.exclusive role claimOpened opened claimOwn rfl apart
        (by simp [known, Pipe.isClaimed])
      simp [ready] at empty
  | none =>
      cases (node.after ports start.pipes).offering? ports start.pipes id with
      | none => simp [ready]
      | some write => simp [OpenPipe.offered, ready]

/-- A node alone makes no word ready. -/
theorem Lawful.lone_peek? {start : Fabric} (lawful : start.Lawful) {node : Node} {id : PipeId}
    {entry : OpenPipe} (opened : start.pipes.get? id = some entry)
    (role : start.role? entry.writer = some (.node node)) (not_ready : entry.pipe.peek? = none) :
    (((start.stepModule entry.writer).pipes.pipe? id).getD .empty).peek? = none := by
  obtain ⟨ports, found⟩ := role?_eq_some_iff.1 role
  rw [PipeTable.pipe?, lawful.coherent.get?_stepModule_own lawful.wired found opened rfl]
  cases node.delivery? ports start.pipes with
  | some port => rfl
  | none =>
      cases (node.after ports start.pipes).offering? ports start.pipes id with
      | none => simpa using not_ready
      | some write =>
          simp only [Option.elim_none, Option.elim_some, OpenPipe.offered]
          split
          next => rfl
          next => simpa using not_ready

/-- What a pipe holds after some modules have acted: its word has been taken, or another copy of it
has, or its writer has left there what it leaves when it acts alone, or nothing has happened. -/
def outcome (start : Fabric) (acted : List Handle) (id : PipeId) (entry : OpenPipe) : Pipe :=
  if ∃ reader ∈ acted, start.drawn? reader = some id then .claimed
  else if ∃ reader ∈ acted, start.giver? reader = some entry.writer then .empty
  else if entry.writer ∈ acted then ((start.stepModule entry.writer).pipes.pipe? id).getD .empty
  else entry.pipe

theorem giver?_of_drawn {start : Fabric} {reader : Handle} {id : PipeId} {entry : OpenPipe}
    (opened : start.pipes.get? id = some entry) (draws : start.drawn? reader = some id) :
    start.giver? reader = some entry.writer := by
  simp [giver?, draws, PipeTable.writer?, opened]

/-- Where no word of the writer has been taken, the writer alone decides. -/
theorem outcome_of_not_taken {start : Fabric} {acted : List Handle} {id : PipeId}
    {entry : OpenPipe} (opened : start.pipes.get? id = some entry)
    (kept : ∀ reader ∈ acted, start.giver? reader ≠ some entry.writer) :
    start.outcome acted id entry =
      if entry.writer ∈ acted then ((start.stepModule entry.writer).pipes.pipe? id).getD .empty
      else entry.pipe := by
  have undrawn : ¬∃ reader ∈ acted, start.drawn? reader = some id := by
    intro drawn
    rcases drawn with ⟨reader, member, draws⟩
    exact kept reader member (giver?_of_drawn opened draws)
  have ungiven : ¬∃ reader ∈ acted, start.giver? reader = some entry.writer := by
    intro given
    rcases given with ⟨reader, member, gives⟩
    exact kept reader member gives
  rw [outcome, if_neg undrawn, if_neg ungiven]

section Outcome

variable {start : Fabric} (lawful : start.Lawful) {acted : List Handle}
variable {id : PipeId} {entry : OpenPipe} (opened : start.pipes.get? id = some entry)
variable {node : Node} (role : start.role? entry.writer = some (.node node))
include lawful opened role

/-- No action makes a word ready. -/
theorem Lawful.peek?_outcome (not_ready : entry.pipe.peek? = none) :
    (start.outcome acted id entry).peek? = none := by
  unfold outcome
  split
  next => rfl
  next =>
    split
    next => rfl
    next =>
      split
      next => exact lawful.lone_peek? opened role not_ready
      next => exact not_ready

/-- A word that is ready stays ready until it, or a copy of it, is taken. -/
theorem Lawful.outcome_of_ready {value : Word} (ready : entry.pipe = .ready value)
    (kept : ∀ reader ∈ acted, start.giver? reader ≠ some entry.writer) :
    start.outcome acted id entry = .ready value := by
  rw [outcome_of_not_taken opened kept, lawful.lone_of_ready opened role ready, ready]
  simp

/-- A claim that a node can acknowledge stays until the node acts, and none is added: a word of the
node that could still be taken would exclude it. -/
theorem Lawful.outcome_eq_delivered_iff (nodes : start.OnlyNodes) (idle : entry.writer ∉ acted) :
    start.outcome acted id entry = .delivered ↔ entry.pipe = .delivered := by
  by_cases kept : ∀ reader ∈ acted, start.giver? reader ≠ some entry.writer
  · rw [outcome_of_not_taken opened kept, if_neg idle]
  · push Not at kept
    obtain ⟨reader, member, gives⟩ := kept
    obtain ⟨drawn, draws, writer⟩ := Option.bind_eq_some_iff.1 gives
    obtain ⟨taken, value, takenOpened, ready, -⟩ := lawful.taken_of_drawn nodes draws
    have takenOwn : taken.writer = entry.writer := by
      simpa [PipeTable.writer?, takenOpened] using writer
    have undelivered : entry.pipe ≠ .delivered := by
      intro known
      have apart : id ≠ drawn := by
        rintro rfl
        rw [opened] at takenOpened
        cases takenOpened
        simp [ready] at known
      have empty := lawful.coherent.exclusive role opened takenOpened rfl takenOwn apart
        (by simp [known, Pipe.isClaimed])
      simp [ready] at empty
    have now_undelivered : start.outcome acted id entry ≠ .delivered := by
      unfold outcome
      split
      next => simp
      next =>
        rw [if_pos ⟨reader, member, gives⟩]
        simp
    exact iff_of_false now_undelivered undelivered

end Outcome

/-- The fabric after some modules have acted, in whatever order. -/
structure Mixed (start : Fabric) (acted : List Handle) (now : Fabric) : Prop where
  lawful : now.Lawful
  link : ∀ handle port, now.link? handle port = start.link? handle port
  writer : ∀ id, now.pipes.writer? id = start.pipes.writer? id
  acted_role : ∀ {handle}, handle ∈ acted →
    now.role? handle = (start.stepModule handle).role? handle
  idle_role : ∀ {handle}, handle ∉ acted → now.role? handle = start.role? handle
  pipe : ∀ {id entry}, start.pipes.get? id = some entry →
    now.pipes.pipe? id = some (start.outcome acted id entry)

theorem Mixed.refl {start : Fabric} (lawful : start.Lawful) : Mixed start [] start where
  lawful := lawful
  link := fun _ _ => rfl
  writer := fun _ => rfl
  acted_role := by simp
  idle_role := fun _ => rfl
  pipe := by
    intro id entry opened
    simp [outcome, PipeTable.pipe?, opened]

namespace Mixed

variable {start now : Fabric} {acted : List Handle} (mixed : Mixed start acted now)
variable (lawful : start.Lawful) (nodes : start.OnlyNodes)
variable {handle : Handle} (idle : handle ∉ acted) {ports : Ports} {node : Node}
variable (found : start.modules.get? handle = some ⟨ports, .node node⟩)
include mixed lawful nodes idle found

omit lawful nodes in
theorem found_now : now.modules.get? handle = some ⟨ports, .node node⟩ := by
  rw [get?_eq_of_views (mixed.idle_role idle) (mixed.link handle), found]

/-- A node that has not acted finds the claims of its word as they were. -/
theorem delivery?_eq : node.delivery? ports now.pipes = node.delivery? ports start.pipes := by
  have role : start.role? handle = some (.node node) := by simp [role?, found]
  have same : ∀ port, now.pipes.deliveredAt ports port = start.pipes.deliveredAt ports port := by
    intro port
    unfold PipeTable.deliveredAt
    cases placed : ports.get port with
    | none => rfl
    | some link =>
        obtain ⟨entry, opened, own⟩ :=
          lawful.wired.exists_get? (link?_eq_some_iff.2 ⟨_, found, placed⟩)
        have before : start.pipes.pipe? link.send = some entry.pipe := by
          simp [PipeTable.pipe?, opened]
        have claims := lawful.outcome_eq_delivered_iff opened (own ▸ role) nodes (own ▸ idle)
        rw [Option.any_some, Option.any_some, mixed.pipe opened, before]
        simp only [Option.some.injEq, claims]
  unfold Node.delivery? PipeTable.delivery?
  rw [show now.pipes.deliveredAt ports = start.pipes.deliveredAt ports from funext same]

variable (quiet : ¬start.Races)
include quiet

/-- A node that has not acted finds the word that it would have found at the start. -/
theorem arrival?_eq : node.arrival? ports now.pipes = node.arrival? ports start.pipes := by
  have facts : ∀ {port link}, ports.get port = some link →
      ∃ entry writer, start.pipes.get? link.receive = some entry ∧
        start.role? entry.writer = some (.node writer) := by
    intro port link placed
    have linked := link?_eq_some_iff.2 ⟨_, found, placed⟩
    obtain ⟨entry, opened, -⟩ := lawful.wired.exists_get?_receive linked
    obtain ⟨_, _, sends, -⟩ := lawful.wired.exists_send opened
    obtain ⟨_, known⟩ := role?_isSome_of_link? sends
    obtain ⟨writer, rfl⟩ := nodes.exists_node known
    exact ⟨entry, writer, opened, known⟩
  apply findSome?_eq_of_agree
  · intro port member nothing
    rw [Option.map_eq_none_iff] at nothing ⊢
    unfold PipeTable.arrivalAt at nothing ⊢
    cases placed : ports.get port with
    | none => rfl
    | some link =>
        obtain ⟨entry, writer, opened, role⟩ := facts placed
        have before : start.pipes.pipe? link.receive = some entry.pipe := by
          simp [PipeTable.pipe?, opened]
        rw [placed, Option.bind_some, before, Option.bind_some] at nothing
        rw [Option.bind_some, mixed.pipe opened, Option.bind_some]
        exact lawful.peek?_outcome opened role nothing
  · intro port member result search here
    obtain ⟨value, arrives, rfl⟩ := Option.map_eq_some_iff.1 here
    unfold PipeTable.arrivalAt at arrives ⊢
    cases placed : ports.get port with
    | none => simp [placed] at arrives
    | some link =>
        obtain ⟨entry, writer, opened, role⟩ := facts placed
        have before : start.pipes.pipe? link.receive = some entry.pipe := by
          simp [PipeTable.pipe?, opened]
        rw [placed, Option.bind_some, before, Option.bind_some] at arrives
        have draws : start.drawn? handle = some link.receive := by
          have arrival : node.arrival? ports start.pipes = some (port, value) := search
          simp [drawn?, found, Node.drawn?, arrival, placed]
        have kept : ∀ reader ∈ acted, start.giver? reader ≠ some entry.writer := by
          intro reader acts gives
          obtain ⟨drawn, rivalDraws, writer⟩ := Option.bind_eq_some_iff.1 gives
          have writers : start.pipes.writer? link.receive = start.pipes.writer? drawn := by
            rw [writer, PipeTable.writer?, opened, Option.map_some]
          have same := lawful.sole_reader nodes quiet draws rivalDraws writers
          exact idle (same ▸ acts)
        have ready : entry.pipe = .ready value := Pipe.peek?_eq_some_iff.1 arrives
        rw [Option.bind_some, mixed.pipe opened, lawful.outcome_of_ready opened role ready kept]
        rfl

theorem drawn?_eq : now.drawn? handle = start.drawn? handle := by
  have found_now := mixed.found_now idle found
  have arrival := mixed.arrival?_eq lawful nodes idle found quiet
  simp only [drawn?, found_now, found, Option.bind_some, Node.drawn?, arrival]

/-- A node that has not acted will do what it would have done at the start. -/
theorem after_eq : node.after ports now.pipes = node.after ports start.pipes := by
  rw [Node.after, Node.after, mixed.arrival?_eq lawful nodes idle found quiet,
    mixed.delivery?_eq lawful nodes idle found]

theorem giver?_eq : now.giver? handle = start.giver? handle := by
  rw [giver?, giver?, mixed.drawn?_eq lawful nodes idle found quiet,
    show now.pipes.writer? = start.pipes.writer? from funext mixed.writer]

omit lawful nodes idle found quiet in
theorem exists_entry {id : PipeId} {entry : OpenPipe} (opened : start.pipes.get? id = some entry) :
    ∃ later, now.pipes.get? id = some later ∧ later.writer = entry.writer ∧
      later.pipe = start.outcome acted id entry := by
  have writer := mixed.writer id
  rw [PipeTable.writer?, PipeTable.writer?, opened, Option.map_some] at writer
  obtain ⟨later, found, same⟩ := Option.map_eq_some_iff.1 writer
  have holds := mixed.pipe opened
  rw [PipeTable.pipe?, found, Option.map_some, Option.some.injEq] at holds
  exact ⟨later, found, same, holds⟩

omit lawful idle found quiet in
theorem exists_node {other : Handle} {role : Role} (known : start.role? other = some role) :
    ∃ later, now.role? other = some (.node later) := by
  obtain ⟨before, rfl⟩ := nodes.exists_node known
  by_cases acts : other ∈ acted
  · rw [mixed.acted_role acts]
    exact role?_stepModule other known
  · exact ⟨before, (mixed.idle_role acts).trans known⟩

/-- The pipe of another node is taken from by the module that acts, or stays as it was. -/
theorem pipe_foreign {id : PipeId} {entry : OpenPipe}
    (opened : start.pipes.get? id = some entry) (foreign : entry.writer ≠ handle) :
    (now.stepModule handle).pipes.pipe? id = some (start.outcome (handle :: acted) id entry) := by
  obtain ⟨later, found_later, writer, holds⟩ := mixed.exists_entry opened
  obtain ⟨_, _, sends, -⟩ := lawful.wired.exists_send opened
  obtain ⟨_, known⟩ := role?_isSome_of_link? sends
  obtain ⟨_, role⟩ := mixed.exists_node nodes known
  rw [PipeTable.pipe?, mixed.lawful.coherent.get?_stepModule_foreign mixed.lawful.wired found_later
    (writer ▸ role) (writer ▸ foreign), Option.map_some, drained,
    mixed.drawn?_eq lawful nodes idle found quiet, mixed.giver?_eq lawful nodes idle found quiet,
    writer]
  by_cases draws : start.drawn? handle = some id
  · rw [if_pos draws, outcome, if_pos ⟨handle, by simp, draws⟩]
  · rw [if_neg draws]
    by_cases gives : start.giver? handle = some entry.writer
    · have undrawn : ¬∃ reader ∈ handle :: acted, start.drawn? reader = some id := by
        intro drawn
        rcases drawn with ⟨reader, member, rivalDraws⟩
        rcases List.mem_cons.1 member with rfl | acts
        · exact draws rivalDraws
        · obtain ⟨drawn, taken, from_writer⟩ := Option.bind_eq_some_iff.1 gives
          have writers : start.pipes.writer? drawn = start.pipes.writer? id := by
            rw [from_writer, PipeTable.writer?, opened, Option.map_some]
          have same := lawful.sole_reader nodes quiet taken rivalDraws writers
          exact idle (same ▸ acts)
      rw [if_pos gives, outcome, if_neg undrawn, if_pos ⟨handle, by simp, gives⟩]
    · rw [if_neg gives, holds]
      simp [outcome, draws, gives, foreign]

/-- A node of which no word has been taken leaves in its pipes what it leaves when it acts alone. -/
theorem pipe_own_of_kept {id : PipeId} {entry : OpenPipe}
    (opened : start.pipes.get? id = some entry) (own : entry.writer = handle)
    (kept : ∀ reader ∈ acted, start.giver? reader ≠ some handle) :
    (now.stepModule handle).pipes.pipe? id = some (start.outcome (handle :: acted) id entry) := by
  obtain ⟨later, found_later, writer, holds⟩ := mixed.exists_entry opened
  have all_kept : ∀ reader ∈ handle :: acted, start.giver? reader ≠ some entry.writer := by
    rw [own, List.forall_mem_cons]
    exact ⟨lawful.giver?_ne_self nodes handle, kept⟩
  have unchanged : ∀ {place rival}, start.pipes.get? place = some rival →
      rival.writer = handle → start.outcome acted place rival = rival.pipe := by
    intro place rival rivalOpened rivalOwn
    rw [outcome_of_not_taken rivalOpened (rivalOwn ▸ kept), if_neg (rivalOwn ▸ idle)]
  have offers : (node.after ports now.pipes).offering? ports now.pipes id =
      (node.after ports start.pipes).offering? ports start.pipes id := by
    rw [mixed.after_eq lawful nodes idle found quiet]
    refine Node.offering?_congr (fun link member => ?_) id
    obtain ⟨port, placed⟩ := Ports.mem_links.1 member
    obtain ⟨rival, rivalOpened, rivalOwn⟩ :=
      lawful.wired.exists_get? (link?_eq_some_iff.2 ⟨_, found, placed⟩)
    rw [mixed.pipe rivalOpened, unchanged rivalOpened rivalOwn, PipeTable.pipe?, rivalOpened,
      Option.map_some]
  rw [unchanged opened own] at holds
  rw [outcome_of_not_taken opened all_kept, own, if_pos (by simp), PipeTable.pipe?, PipeTable.pipe?,
    mixed.lawful.coherent.get?_stepModule_own mixed.lawful.wired (mixed.found_now idle found)
      found_later (writer.trans own),
    lawful.coherent.get?_stepModule_own lawful.wired found opened own,
    mixed.delivery?_eq lawful nodes idle found, offers]
  cases node.delivery? ports start.pipes with
  | some port => rfl
  | none =>
      cases (node.after ports start.pipes).offering? ports start.pipes id with
      | none => simp [holds]
      | some write => simp [OpenPipe.offered_pipe, holds]

omit lawful nodes quiet in
/-- Where a word of the node has been taken, the mark stays when the node acts. -/
theorem pipe_marked {reader : Handle} (acts : reader ∈ acted) {drawn : PipeId}
    (draws : start.drawn? reader = some drawn)
    (from_self : start.pipes.writer? drawn = some handle) :
    ∃ later, (now.stepModule handle).pipes.get? drawn = some later ∧ later.writer = handle ∧
      later.pipe = .claimed := by
  obtain ⟨taken, takenOpened, takenOwn⟩ := Option.map_eq_some_iff.1 from_self
  obtain ⟨marked, found_marked, writer, holds⟩ := mixed.exists_entry takenOpened
  rw [outcome, if_pos ⟨reader, acts, draws⟩] at holds
  have found_now := mixed.found_now idle found
  have own := writer.trans takenOwn
  have no_delivery : node.delivery? ports now.pipes = none := by
    refine Option.eq_none_iff_forall_not_mem.2 fun port delivery => ?_
    obtain ⟨-, -, link, claim, placed, claimOpened, known⟩ := Node.delivered_of_delivery delivery
    have claimOwn := mixed.lawful.wired.writer_eq
      (link?_eq_some_iff.2 ⟨_, found_now, placed⟩) claimOpened
    have apart : link.send ≠ drawn := by
      intro same
      rw [same, found_marked] at claimOpened
      cases claimOpened
      simp [holds] at known
    have role_now : now.role? handle = some (.node node) := by simp [role?, found_now]
    have empty := mixed.lawful.coherent.exclusive role_now claimOpened found_marked claimOwn own
      apart (by simp [known, Pipe.isClaimed])
    simp [holds] at empty
  have law := mixed.lawful.coherent.get?_stepModule_own mixed.lawful.wired found_now found_marked own
  rw [no_delivery, Option.elim_none] at law
  refine ⟨_, law, ?_, ?_⟩
  · cases (node.after ports now.pipes).offering? ports now.pipes drawn with
    | none => exact own
    | some write => exact (OpenPipe.offered_writer _ _ _).trans own
  · cases (node.after ports now.pipes).offering? ports now.pipes drawn with
    | none => exact holds
    | some write => simp [OpenPipe.offered_pipe, holds]

/-- A node of which a word has been taken leaves nothing in its other pipes. -/
theorem pipe_own_of_taken {id : PipeId} {entry : OpenPipe}
    (opened : start.pipes.get? id = some entry) (own : entry.writer = handle) {reader : Handle}
    (acts : reader ∈ acted) {drawn : PipeId} (draws : start.drawn? reader = some drawn)
    (from_self : start.pipes.writer? drawn = some handle) :
    (now.stepModule handle).pipes.pipe? id = some (start.outcome (handle :: acted) id entry) := by
  obtain ⟨marked, found_marked, markedOwn, marked_pipe⟩ :=
    mixed.pipe_marked idle found acts draws from_self
  have joins : reader ∈ handle :: acted := List.mem_cons_of_mem _ acts
  by_cases same : id = drawn
  · subst same
    rw [outcome, if_pos ⟨reader, joins, draws⟩, PipeTable.pipe?, found_marked, Option.map_some,
      marked_pipe]
  · have undrawn : ¬∃ other ∈ handle :: acted, start.drawn? other = some id := by
      intro drawnToo
      rcases drawnToo with ⟨other, member, rivalDraws⟩
      rcases List.mem_cons.1 member with actor | rivalActs
      · rw [actor] at rivalDraws
        have gives := giver?_of_drawn opened rivalDraws
        rw [own] at gives
        exact lawful.giver?_ne_self nodes handle gives
      · have writers : start.pipes.writer? drawn = start.pipes.writer? id := by
          rw [from_self, PipeTable.writer?, opened, Option.map_some, own]
        have both := lawful.sole_reader nodes quiet draws rivalDraws writers
        rw [← both, draws] at rivalDraws
        exact same (Option.some.inj rivalDraws).symm
    have gives : start.giver? reader = some entry.writer := by
      rw [giver?, draws, Option.bind_some, from_self, own]
    obtain ⟨later, found_later, writer, -⟩ := mixed.exists_entry opened
    obtain ⟨left, found_left, leftWriter⟩ :=
      (alike_stepModule now handle).exists_get? found_later
    have empty := (mixed.lawful.stepModule handle).coherent.exclusive
      (role?_stepModule_node (mixed.found_now idle found)) found_marked found_left markedOwn
      (leftWriter.trans (writer.trans own)) (Ne.symm same) (by simp [marked_pipe, Pipe.isClaimed])
    rw [outcome, if_neg undrawn, if_pos ⟨reader, joins, gives⟩, PipeTable.pipe?, found_left,
      Option.map_some, empty]

theorem pipe_own {id : PipeId} {entry : OpenPipe} (opened : start.pipes.get? id = some entry)
    (own : entry.writer = handle) :
    (now.stepModule handle).pipes.pipe? id = some (start.outcome (handle :: acted) id entry) := by
  by_cases kept : ∀ reader ∈ acted, start.giver? reader ≠ some handle
  · exact mixed.pipe_own_of_kept lawful nodes idle found quiet opened own kept
  · push Not at kept
    obtain ⟨reader, acts, gives⟩ := kept
    obtain ⟨drawn, draws, from_self⟩ := Option.bind_eq_some_iff.1 gives
    exact mixed.pipe_own_of_taken lawful nodes idle found quiet opened own acts draws from_self

/-- One more module acts. -/
theorem stepModule : Mixed start (handle :: acted) (now.stepModule handle) where
  lawful := mixed.lawful.stepModule handle
  link := by
    intro other port
    rw [link?_stepModule, mixed.link]
  writer := fun id => ((alike_stepModule now handle).writer id).trans (mixed.writer id)
  acted_role := by
    intro other member
    rcases List.mem_cons.1 member with rfl | acts
    · rw [role?_stepModule_node (mixed.found_now idle found), role?_stepModule_node found,
        mixed.after_eq lawful nodes idle found quiet]
    · have different : other ≠ handle := fun same => idle (same ▸ acts)
      rw [role?_stepModule_of_ne different, mixed.acted_role acts]
  idle_role := by
    intro other rest
    rw [List.mem_cons, not_or] at rest
    rw [role?_stepModule_of_ne rest.1, mixed.idle_role rest.2]
  pipe := by
    intro id entry opened
    by_cases own : entry.writer = handle
    · exact mixed.pipe_own lawful nodes idle found quiet opened own
    · exact mixed.pipe_foreign lawful nodes idle found quiet opened own

end Mixed

/-- Two fabrics in which the same modules have acted show the same. -/
theorem Mixed.same {start one two : Fabric} {first second : List Handle}
    (left : Mixed start first one) (right : Mixed start second two)
    (members : ∀ handle, handle ∈ first ↔ handle ∈ second) :
    (∀ handle, one.role? handle = two.role? handle) ∧
      ∀ id, one.pipes.pipe? id = two.pipes.pipe? id := by
  constructor
  · intro handle
    by_cases acts : handle ∈ first
    · rw [left.acted_role acts, right.acted_role ((members handle).1 acts)]
    · rw [left.idle_role acts, right.idle_role (mt (members handle).2 acts)]
  · intro id
    cases opened : start.pipes.get? id with
    | none =>
        have closed : ∀ {now acted}, Mixed start acted now → now.pipes.pipe? id = none := by
          intro now acted mixed
          rw [PipeTable.pipe?_eq_none_iff, mixed.writer, PipeTable.writer?, opened, Option.map_none]
        rw [closed left, closed right]
    | some entry =>
        rw [left.pipe opened, right.pipe opened]
        simp only [outcome, members]

/-- Nodes that act one after the other, in whatever order. -/
theorem Lawful.mixed_stepModules {start : Fabric} (lawful : start.Lawful) (nodes : start.OnlyNodes)
    (quiet : ¬start.Races) (order : List Handle) :
    ∀ {acted : List Handle} {now : Fabric}, Mixed start acted now → order.Nodup →
      (∀ handle ∈ order, handle ∉ acted) → (∀ handle ∈ order, handle ∈ start.modules.handles) →
      Mixed start (order.reverse ++ acted) (now.stepModules order) := by
  induction order with
  | nil => exact fun mixed _ _ _ => mixed
  | cons handle rest ih =>
      intro acted now mixed distinct idle live
      rw [List.nodup_cons] at distinct
      rw [List.forall_mem_cons] at idle live
      obtain ⟨member, found⟩ := Arena.mem_handles_iff.1 live.1
      have known : start.role? handle = some member.role := by simp [role?, found]
      obtain ⟨node, kind⟩ := nodes.exists_node known
      have found_node : start.modules.get? handle = some ⟨member.ports, .node node⟩ := by
        rw [found, ← kind]
      have next := mixed.stepModule lawful nodes idle.1 found_node quiet
      have rest_idle : ∀ other ∈ rest, other ∉ handle :: acted := by
        intro other member
        rw [List.mem_cons, not_or]
        exact ⟨fun same => distinct.1 (same ▸ member), idle.2 other member⟩
      rw [List.reverse_cons, List.append_assoc]
      exact ih next distinct.2 rest_idle live.2

/-- In whatever order the nodes of a fabric act, each once, they all end up the same, and so do all
pipes. -/
theorem Lawful.stepModules_perm {start : Fabric} (lawful : start.Lawful)
    (nodes : start.OnlyNodes) (quiet : ¬start.Races) {first second : List Handle}
    (firstAll : first.Perm start.modules.handles) (secondAll : second.Perm start.modules.handles) :
    (∀ handle, (start.stepModules first).role? handle = (start.stepModules second).role? handle) ∧
      ∀ id, (start.stepModules first).pipes.pipe? id = (start.stepModules second).pipes.pipe? id := by
  have mixed : ∀ {order : List Handle}, order.Perm start.modules.handles →
      Mixed start (order.reverse ++ []) (start.stepModules order) := by
    intro order all
    exact lawful.mixed_stepModules nodes quiet order (.refl lawful)
      (all.nodup_iff.2 (Arena.handles_nodup _)) (by simp) fun handle member => all.mem_iff.1 member
  refine (mixed firstAll).same (mixed secondAll) fun handle => ?_
  simp [firstAll.mem_iff, secondAll.mem_iff]

theorem node_congr {before after : Fabric} {handle : Handle}
    (same : after.role? handle = before.role? handle) : after.node handle = before.node handle := by
  unfold role? at same
  unfold Fabric.node module
  cases earlier : before.modules.get? handle <;> cases later : after.modules.get? handle <;>
    simp [earlier, later] at same
  · rfl
  · simp [same, bind, Except.bind]

end Fabric

end NodeGrid
