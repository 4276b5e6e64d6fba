import NodeGrid.Proofs.Fabric.Action

/-!
# The two laws of the first phase

When a module acts, the pipes of another node change only by losing a word to it: the pipe that the
word is taken from is marked, and the node's other pipes are emptied.  The module's own pipes are
emptied when it acknowledges a claim, and otherwise receive what it then waits to write.  Either way
the fabric stays coherent, in the middle of a tick as much as at its end.
-/

namespace NodeGrid

theorem Node.offering?_congr {node : Node} {ports : Ports} {before after : PipeTable}
    (same : ∀ link ∈ ports.links, after.pipe? link.send = before.pipe? link.send) (id : PipeId) :
    node.offering? ports after id = node.offering? ports before id := by
  have claims : (∀ link ∈ ports.links, after.isClaimed link.send = false) ↔
      ∀ link ∈ ports.links, before.isClaimed link.send = false := by
    refine forall₂_congr fun link member => ?_
    rw [PipeTable.isClaimed, PipeTable.isClaimed, same link member]
  unfold offering?
  simp only [claims]

namespace Fabric

/-- What becomes of an entry when a module takes its word: the pipe that the word is taken from is
marked, and no other pipe of its writer keeps anything. -/
def drained (fabric : Fabric) (handle : Handle) (id : PipeId) (entry : OpenPipe) : OpenPipe :=
  if fabric.drawn? handle = some id then { entry with pipe := .claimed }
  else if fabric.giver? handle = some entry.writer then { entry with pipe := .empty }
  else entry

theorem drained_of_drawn_none {fabric : Fabric} {handle : Handle}
    (nothing : fabric.drawn? handle = none) (id : PipeId) (entry : OpenPipe) :
    fabric.drained handle id entry = entry := by
  simp [drained, giver?, nothing]

/-- A claim of another word takes all that a pipe holds if it is a word of the same writer, and
nothing otherwise. -/
def Drains (fabric : Fabric) (id : PipeId) (entry : OpenPipe) : Prop :=
  ∀ ⦃drawn taken value⦄, fabric.pipes.get? drawn = some taken → taken.pipe = .ready value →
    id ≠ drawn → entry.bereft taken =
      if taken.writer = entry.writer then { entry with pipe := .empty } else entry

section Laws

variable {fabric : Fabric} {id : PipeId} {entry : OpenPipe}
variable (opened : fabric.pipes.get? id = some entry)
include opened

/-- A claim leaves nothing in the other pipes of a node, whether or not they held copies. -/
theorem Coherent.drains (wired : fabric.Wired) (coherent : fabric.Coherent) {node : Node}
    (role : fabric.role? entry.writer = some (.node node)) : fabric.Drains id entry := by
  intro drawn taken value found ready different
  by_cases same : taken.writer = entry.writer
  · rw [if_pos same]
    by_cases nonempty : entry.pipe = .empty
    · cases entry with
      | mk pipe writer shared =>
          cases nonempty
          simp [OpenPipe.bereft, OpenPipe.withdrawn, Pipe.withdraw]
    · obtain ⟨shared, takenShared, -⟩ := coherent.shared_of_two wired role opened found rfl same
        different nonempty (by simp [ready])
      have unclaimed : ¬entry.pipe.isClaimed := by
        intro claimed
        have empty := coherent.exclusive role opened found rfl same different claimed
        simp [ready] at empty
      rw [OpenPipe.bereft, if_pos ⟨takenShared, shared, same.symm⟩, OpenPipe.withdrawn]
      cases pipe : entry.pipe <;> simp [pipe, Pipe.isClaimed, Pipe.withdraw] at unclaimed ⊢
  · rw [if_neg same, OpenPipe.bereft, if_neg fun copies => same copies.2.2.symm]

/-- Claiming the word that a module is about to take drains the pipes, also in a table that differs
elsewhere. -/
theorem Drains.get?_claim_drawn (drains : fabric.Drains id entry) {handle : Handle}
    {drawn : PipeId} {taken : OpenPipe} {value : Word} (draws : fabric.drawn? handle = some drawn)
    (found : fabric.pipes.get? drawn = some taken) (ready : taken.pipe = .ready value)
    {pipes : PipeTable} (foundHere : pipes.get? drawn = some taken)
    (openedHere : pipes.get? id = some entry) :
    (pipes.claim drawn).2.get? id = some (fabric.drained handle id entry) := by
  have gives : fabric.giver? handle = some taken.writer := by
    simp [giver?, draws, PipeTable.writer?, found]
  rw [PipeTable.get?_claim foundHere ready]
  by_cases same : id = drawn
  · subst same
    rw [if_pos rfl, drained, if_pos draws]
    rw [found] at opened
    rw [Option.some.inj opened]
  · have otherwise : fabric.drawn? handle ≠ some id := by
      rw [draws]
      exact fun equal => same (Option.some.inj equal).symm
    rw [if_neg same, openedHere, Option.map_some, drained, if_neg otherwise, gives,
      drains found ready same]
    simp

end Laws

end Fabric

/-- A step of a node that writes elsewhere does to a pipe only what its claim does. -/
theorem Node.get?_pipesAfter_of_not_own {node : Node} {ports : Ports} {pipes : PipeTable}
    {id : PipeId} (not_own : ∀ port, ports.sendAt port ≠ some id) :
    (node.pipesAfter ports pipes).get? id =
      (pipes.draw ports (node.arrival? ports pipes)).get? id := by
  have not_sent : id ∉ ports.links.map (·.send) := by
    rw [Ports.mem_map_send_links]
    exact fun sends => sends.elim not_own
  unfold pipesAfter
  cases delivery : node.delivery? ports pipes with
  | some port =>
      rw [node.draw_arrival?, node.drawn?_of_delivery delivery]
      simp only [PipeTable.settle, PipeTable.get?_withdrawAll, not_sent, if_false,
        PipeTable.acknowledgeAt, Option.elim_none]
      cases linked : ports.get port with
      | none => rfl
      | some link =>
          have different : id ≠ link.send := by
            rintro rfl
            exact not_own port (by simp [Ports.sendAt, linked])
          rw [Option.elim_some, PipeTable.get?_acknowledge_of_ne _ different]
  | none =>
      rw [get?_voice]
      have silent : (node.after ports pipes).offering? ports
          (pipes.draw ports (node.arrival? ports pipes)) id = none := by
        refine Option.eq_none_iff_forall_not_mem.2 fun write offers => ?_
        obtain ⟨-, -, reached, -⟩ := offering?_eq_some_iff.1 offers
        obtain ⟨port, -, sends⟩ := List.mem_filterMap.1 reached
        exact not_own port sends
      simp [silent]

namespace Fabric

section Laws

variable {fabric : Fabric} (wired : fabric.Wired) {id : PipeId} {entry : OpenPipe}
variable (opened : fabric.pipes.get? id = some entry)
include wired opened

/-- A node that acts takes a word from another module, and does nothing else to its pipes. -/
theorem Drains.get?_pipesAfter_foreign (drains : fabric.Drains id entry) {handle : Handle}
    (foreign : entry.writer ≠ handle) {ports : Ports} {reader : Node}
    (found : fabric.modules.get? handle = some ⟨ports, .node reader⟩) :
    (reader.pipesAfter ports fabric.pipes).get? id = some (fabric.drained handle id entry) := by
  have elsewhere : ∀ port, ports.sendAt port ≠ some id := by
    intro port sends
    obtain ⟨link, linked, same⟩ := Ports.sendAt_eq_some_iff.1 sends
    exact wired.ne_send opened (link?_eq_some_iff.2 ⟨_, found, linked⟩) foreign.symm same.symm
  rw [reader.get?_pipesAfter_of_not_own elsewhere, reader.draw_arrival?, ← drawn?_node found]
  cases draws : fabric.drawn? handle with
  | none => rw [drained_of_drawn_none draws, Option.elim_none, opened]
  | some drawn =>
      obtain ⟨_, _, _, taken, -, -, -, -, held, ready⟩ :=
        Node.ready_of_drawn (drawn?_node found ▸ draws)
      exact drains.get?_claim_drawn opened draws held ready held opened

/-- A half that acts takes a word from a node in front of it, and does nothing else to the pipes
of any module but itself and its sibling. -/
theorem Drains.get?_relayed_foreign (drains : fabric.Drains id entry) {handle : Handle}
    (foreign : entry.writer ≠ handle) {ports : Ports} {half : Forwarder}
    (found : fabric.modules.get? handle = some ⟨ports, .forwarder half⟩)
    (unrelayed : ∀ {port own other link}, fabric.link? handle port = some own →
      half.sibling = some other → fabric.forwarderLink? other = some link →
        other ≠ entry.writer) :
    (fabric.relayed handle).get? id = some (fabric.drained handle id entry) := by
  have drawn_eq := drawn?_forwarder found
  rw [relayed]
  cases course : fabric.course? handle with
  | none => rw [drained_of_drawn_none (by simp [drawn_eq, course]), Option.elim_none, opened]
  | some leads =>
      obtain ⟨own, onward⟩ := leads
      obtain ⟨⟨port, linked⟩, half', role, onward_eq⟩ := course?_eq_some course
      have same_half : half' = half := by simpa [role?, found, eq_comm] using role
      have kept := fabric.pipes.get?_acknowledge_of_ne (wired.ne_send opened linked foreign.symm)
      rw [Option.elim_some]
      dsimp only
      cases passes : Forwarder.passed? fabric.pipes own onward with
      | none =>
          rw [Forwarder.relay_of_not_passed passes, kept,
            drained_of_drawn_none (by simp [drawn_eq, course, passes]), opened]
      | some value =>
          have draws : fabric.drawn? handle = some own.receive := by
            simp [drawn_eq, course, passes]
          obtain ⟨taken, held, ready⟩ := Forwarder.ready_of_passed (wired.apart linked) passes
          cases onward with
          | none => simp [Forwarder.passed?] at passes
          | some target =>
              obtain ⟨other, sibling, forwards⟩ := Option.bind_eq_some_iff.1 onward_eq.symm
              obtain ⟨⟨place, facing⟩, -⟩ := forwarderLink?_eq_some forwards
              have sibling_ne := unrelayed linked (same_half ▸ sibling) forwards
              have held_now :=
                (fabric.pipes.get?_acknowledge_of_ne (wired.apart linked).symm).trans held
              rw [Forwarder.relay_of_passed passes, PipeTable.get?_offer,
                if_neg (wired.ne_send opened facing sibling_ne)]
              exact drains.get?_claim_drawn opened draws held ready held_now (kept.trans opened)

/-- The pipes of another module lose what the module takes, and nothing else happens to them, unless
they lead onward from the module as a half. -/
theorem Drains.get?_stepModule_foreign (drains : fabric.Drains id entry) {handle : Handle}
    (foreign : entry.writer ≠ handle)
    (unrelayed : ∀ {port own half other link}, fabric.link? handle port = some own →
      fabric.role? handle = some (.forwarder half) → half.sibling = some other →
        fabric.forwarderLink? other = some link → other ≠ entry.writer) :
    (fabric.stepModule handle).pipes.get? id = some (fabric.drained handle id entry) := by
  cases found : fabric.modules.get? handle with
  | none =>
      rw [stepModule_missing found, drained_of_drawn_none (by simp [drawn?, found]), opened]
  | some member =>
      cases member with
      | mk ports what =>
          cases what with
          | node reader =>
              rw [pipes_stepModule_node found]
              exact drains.get?_pipesAfter_foreign wired opened foreign found
          | forwarder half =>
              rw [pipes_stepModule_forwarder found]
              exact drains.get?_relayed_foreign wired opened foreign found
                fun linked => unrelayed linked (by simp [role?, found])

/-- The pipes of another node lose what the module takes, and nothing else happens to them. -/
theorem Coherent.get?_stepModule_foreign (coherent : fabric.Coherent) {node : Node}
    (role : fabric.role? entry.writer = some (.node node)) {handle : Handle}
    (foreign : entry.writer ≠ handle) :
    (fabric.stepModule handle).pipes.get? id = some (fabric.drained handle id entry) := by
  apply (coherent.drains opened wired role).get?_stepModule_foreign wired opened foreign
  rintro - - half other link - - - forwards rfl
  obtain ⟨-, what, isHalf⟩ := forwarderLink?_eq_some forwards
  simp [isHalf] at role

end Laws

section Own

variable {fabric : Fabric} (wired : fabric.Wired) (coherent : fabric.Coherent)
variable {handle : Handle} {ports : Ports} {node : Node}
variable (found : fabric.modules.get? handle = some ⟨ports, .node node⟩)
include wired coherent found

/-- A node never takes a word of its own, for it has none while it polls. -/
theorem Coherent.get?_draw_own {id : PipeId} {entry : OpenPipe}
    (opened : fabric.pipes.get? id = some entry) (own : entry.writer = handle) :
    (fabric.pipes.draw ports (node.arrival? ports fabric.pipes)).get? id = some entry := by
  have role : fabric.role? handle = some (.node node) := by simp [role?, found]
  rw [node.draw_arrival?]
  cases draws : node.drawn? ports fabric.pipes with
  | none => exact opened
  | some drawn =>
      obtain ⟨_, _, _, taken, -, polled, -, -, held, ready⟩ := Node.ready_of_drawn draws
      have drawn_eq : fabric.drawn? handle = some drawn := by simp [drawn?, found, draws]
      have foreign : taken.writer ≠ handle := by
        intro same
        have empty := coherent.silent wired role held same (Node.not_waiting_of_polled polled)
        simp [ready] at empty
      have elsewhere : drawn ≠ id := by
        rintro rfl
        rw [held] at opened
        cases opened
        exact foreign own
      rw [Option.elim_some, (coherent.drains opened wired (own ▸ role)).get?_claim_drawn opened drawn_eq
        held ready held opened]
      simp [drained, giver?, drawn_eq, elsewhere, PipeTable.writer?, held, own, foreign]

/-- What a node does to a pipe that it writes to: it empties it when it acknowledges a claim, and
otherwise offers on it what it then waits to write there. -/
theorem Coherent.get?_stepModule_own {id : PipeId} {entry : OpenPipe}
    (opened : fabric.pipes.get? id = some entry) (own : entry.writer = handle) :
    (fabric.stepModule handle).pipes.get? id =
      some ((node.delivery? ports fabric.pipes).elim
        (((node.after ports fabric.pipes).offering? ports fabric.pipes id).elim entry
          fun write => entry.offered write.value (write.target = .any))
        fun _ => { entry with pipe := .empty }) := by
  have role : fabric.role? handle = some (.node node) := by simp [role?, found]
  have linked_of_get : ∀ {port link}, ports.get port = some link →
      fabric.link? handle port = some link := fun linked => link?_eq_some_iff.2 ⟨_, found, linked⟩
  rw [pipes_stepModule_node found]
  unfold Node.pipesAfter
  cases delivery : node.delivery? ports fabric.pipes with
  | some port =>
      obtain ⟨-, -, link, claim, linked, held, known⟩ := Node.delivered_of_delivery delivery
      have sent : id ∈ ports.links.map (·.send) := by
        obtain ⟨place, facing, there, sends⟩ := wired.exists_send opened
        rw [own] at there
        rw [link?_eq_get found] at there
        exact List.mem_map.2 ⟨facing, Ports.mem_links.2 ⟨place, there⟩, sends⟩
      simp only [PipeTable.settle, PipeTable.get?_withdrawAll, sent, if_true, Option.elim_some,
        PipeTable.acknowledgeAt, linked, PipeTable.get?_acknowledge]
      by_cases same : id = link.send
      · rw [same, held] at opened
        cases opened
        rw [if_pos same, held]
        simp [OpenPipe.acknowledged, OpenPipe.withdrawn, known, Pipe.withdraw]
      · have empty := coherent.exclusive role held opened
          (wired.writer_eq (linked_of_get linked) held) own (Ne.symm same)
          (by simp [known, Pipe.isClaimed])
        rw [if_neg same, opened]
        simp [OpenPipe.withdrawn, empty, Pipe.withdraw]
  | none =>
      rw [Node.get?_voice, coherent.get?_draw_own wired found opened own, Option.map_some,
        Option.elim_none, Node.offering?_congr]
      intro link member
      obtain ⟨port, linked⟩ := Ports.mem_links.1 member
      obtain ⟨rival, rivalOpened, rivalOwn⟩ := wired.exists_get? (linked_of_get linked)
      rw [PipeTable.pipe?, PipeTable.pipe?, coherent.get?_draw_own wired found rivalOpened rivalOwn,
        rivalOpened]

end Own

/-- A module takes words only from pipes that lead to it. -/
theorem Wired.ready_of_drawn {fabric : Fabric} (wired : fabric.Wired) {handle : Handle}
    {id : PipeId} (draws : fabric.drawn? handle = some id) :
    ∃ port link taken value, fabric.link? handle port = some link ∧ link.receive = id ∧
      fabric.pipes.get? id = some taken ∧ taken.pipe = .ready value := by
  obtain ⟨member, found, takes⟩ := Option.bind_eq_some_iff.1 draws
  cases member with
  | mk ports role =>
      cases role with
      | node node =>
          obtain ⟨port, value, link, taken, -, -, linked, receives, held, ready⟩ :=
            Node.ready_of_drawn takes
          exact ⟨port, link, taken, value, link?_eq_some_iff.2 ⟨_, found, linked⟩, receives, held,
            ready⟩
      | forwarder half =>
          obtain ⟨⟨own, onward⟩, course, passes⟩ := Option.bind_eq_some_iff.1 takes
          obtain ⟨value, passed, rfl⟩ := Option.map_eq_some_iff.1 passes
          obtain ⟨⟨port, linked⟩, -⟩ := course?_eq_some course
          obtain ⟨taken, held, ready⟩ := Forwarder.ready_of_passed (wired.apart linked) passed
          exact ⟨port, own, taken, value, linked, rfl, held, ready⟩

/-- A pipe is marked, emptied or left alone. -/
theorem Wired.drained_cases {fabric : Fabric} (wired : fabric.Wired) (handle : Handle)
    {id : PipeId} {entry : OpenPipe} (opened : fabric.pipes.get? id = some entry) :
    (fabric.drawn? handle = some id ∧ (∃ value, entry.pipe = .ready value) ∧
        fabric.drained handle id entry = { entry with pipe := .claimed }) ∨
      (fabric.giver? handle = some entry.writer ∧
        fabric.drained handle id entry = { entry with pipe := .empty }) ∨
      fabric.drained handle id entry = entry := by
  unfold drained
  by_cases draws : fabric.drawn? handle = some id
  · obtain ⟨_, _, taken, value, -, -, held, ready⟩ := wired.ready_of_drawn draws
    rw [opened] at held
    cases held
    exact .inl ⟨draws, ⟨value, ready⟩, if_pos draws⟩
  · rw [if_neg draws]
    by_cases gives : fabric.giver? handle = some entry.writer
    · exact .inr (.inl ⟨gives, if_pos gives⟩)
    · exact .inr (.inr (if_neg gives))

end Fabric

/-- A node goes on waiting until its word has been claimed. -/
theorem Node.after_of_waiting {node : Node} {ports : Ports} {pipes : PipeTable}
    {write : PendingWrite} (waiting : node.activity = .waitingWrite write)
    (delivery : node.delivery? ports pipes = none) : node.after ports pipes = node := by
  cases enabled : node.enabled <;> simp [after, next, enabled, waiting, delivery]

namespace Fabric

section Own

variable {fabric : Fabric} (wired : fabric.Wired) (coherent : fabric.Coherent)
variable {handle : Handle} {ports : Ports} {node : Node}
variable (found : fabric.modules.get? handle = some ⟨ports, .node node⟩)
variable {port : Port} {link : Link} (linked : fabric.link? handle port = some link)
variable {entry later : OpenPipe} (opened : fabric.pipes.get? link.send = some entry)
variable (stepped : (fabric.stepModule handle).pipes.get? link.send = some later)
variable (nonempty : later.pipe ≠ .empty)
include wired coherent found linked opened stepped nonempty

/-- A pipe of the node that acts, if it holds anything afterwards, held it before or is offered it
now. -/
theorem Coherent.own_cases :
    node.delivery? ports fabric.pipes = none ∧
      ((later = entry ∧ node.Awaits port entry ∧ node.after ports fabric.pipes = node) ∨
        ∃ write, entry.pipe = .empty ∧
          (node.after ports fabric.pipes).offering? ports fabric.pipes link.send = some write ∧
          later = { entry with pipe := .pending write.value, shared := write.target = .any }) := by
  have role : fabric.role? handle = some (.node node) := by simp [role?, found]
  have own := wired.writer_eq linked opened
  rw [coherent.get?_stepModule_own wired found opened own] at stepped
  have result := (Option.some.inj stepped).symm
  cases delivery : node.delivery? ports fabric.pipes with
  | some port =>
      rw [delivery, Option.elim_some] at result
      exact absurd (congrArg OpenPipe.pipe result) nonempty
  | none =>
      refine ⟨rfl, ?_⟩
      rw [delivery, Option.elim_none] at result
      have kept : later = entry → later = entry ∧ node.Awaits port entry ∧
          node.after ports fabric.pipes = node := by
        intro same
        rcases coherent.awaited role linked opened (same ▸ nonempty) with ⟨write, waiting, rest⟩
        exact ⟨same, ⟨write, waiting, rest⟩, Node.after_of_waiting waiting delivery⟩
      cases offers : (node.after ports fabric.pipes).offering? ports fabric.pipes link.send with
      | none =>
          rw [offers, Option.elim_none] at result
          exact .inl (kept result)
      | some write =>
          rw [offers, Option.elim_some] at result
          by_cases empty : entry.pipe = .empty
          · refine .inr ⟨write, empty, rfl, ?_⟩
            rw [result, OpenPipe.offered, if_pos empty]
          · refine .inl (kept ?_)
            rw [result, OpenPipe.offered, if_neg empty]

end Own

section Step

variable {fabric : Fabric} (wired : fabric.Wired) (coherent : fabric.Coherent)
include wired coherent

/-- The role of a node that did not act, before and after an action. -/
theorem Coherent.awaited_stepModule (handle : Handle) {other : Handle} {node : Node} {port : Port}
    {link : Link} {later : OpenPipe}
    (role : (fabric.stepModule handle).role? other = some (.node node))
    (linked : fabric.link? other port = some link)
    (stepped : (fabric.stepModule handle).pipes.get? link.send = some later)
    (nonempty : later.pipe ≠ .empty) : node.Awaits port later := by
  obtain ⟨entry, opened, writer⟩ := (alike_stepModule fabric handle).exists_get?_of_after stepped
  by_cases same : other = handle
  · subst same
    obtain ⟨before, known⟩ := exists_role?_of_stepModule role
    obtain ⟨ports, found⟩ := role?_eq_some_iff.1 known
    cases before with
    | forwarder half =>
        obtain ⟨_, -, still⟩ := role?_stepModule_forwarder found
        simp [still] at role
    | node old =>
        rw [role?_stepModule_node found] at role
        cases role
        obtain ⟨-, ⟨rfl, awaits, stays⟩ | ⟨write, -, offers, rfl⟩⟩ :=
          coherent.own_cases wired found linked opened stepped nonempty
        · rw [stays]
          exact awaits
        · obtain ⟨waiting, -, reached, -⟩ := Node.offering?_eq_some_iff.1 offers
          refine ⟨write, waiting, ?_, rfl, rfl⟩
          obtain ⟨place, member, sends⟩ := List.mem_filterMap.1 reached
          obtain ⟨facing, placed, same⟩ := Ports.sendAt_eq_some_iff.1 sends
          rw [wired.sole linked (link?_eq_some_iff.2 ⟨_, found, placed⟩) same.symm]
          exact member
  · rw [role?_stepModule_of_ne same] at role
    have own := wired.writer_eq linked opened
    rw [coherent.get?_stepModule_foreign wired opened (own ▸ role) (own ▸ same)] at stepped
    have result := (Option.some.inj stepped).symm
    rcases wired.drained_cases handle opened with ⟨-, ⟨value, ready⟩, marked⟩ | ⟨-, emptied⟩ | kept
    · obtain ⟨write, waiting, reached, shared, -⟩ :=
        coherent.awaited role linked opened (by simp [ready])
      rw [result, marked]
      exact ⟨write, waiting, reached, shared, trivial⟩
    · rw [result, emptied] at nonempty
      exact absurd rfl nonempty
    · rw [kept] at result
      subst result
      exact coherent.awaited role linked opened nonempty

theorem Coherent.exclusive_foreign {handle : Handle} {node : Node} {id other : PipeId}
    {entry rival : OpenPipe} (role : fabric.role? entry.writer = some (.node node))
    (opened : fabric.pipes.get? id = some entry) (rivalOpened : fabric.pipes.get? other = some rival)
    (writers : rival.writer = entry.writer) (different : id ≠ other)
    (claimed : (fabric.drained handle id entry).pipe.isClaimed) :
    (fabric.drained handle other rival).pipe = .empty := by
  rcases wired.drained_cases handle opened with ⟨draws, ⟨value, ready⟩, -⟩ | ⟨-, emptied⟩ | kept
  · have otherwise : fabric.drawn? handle ≠ some other := by
      rw [draws]
      exact fun equal => different (Option.some.inj equal)
    have gives : fabric.giver? handle = some rival.writer := by
      simp [giver?, draws, PipeTable.writer?, opened, writers]
    rw [drained, if_neg otherwise, if_pos gives]
  · simp [emptied, Pipe.isClaimed] at claimed
  · rw [kept] at claimed
    have rivalEmpty := coherent.exclusive role opened rivalOpened rfl writers different claimed
    rcases wired.drained_cases handle rivalOpened with ⟨-, ⟨value, ready⟩, -⟩ | ⟨-, emptied⟩ | stays
    · simp [rivalEmpty] at ready
    · rw [emptied]
    · rw [stays, rivalEmpty]

/-- A node whose word has been claimed offers it on none of its other ports. -/
theorem Coherent.exclusive_own {handle : Handle} {ports : Ports} {node : Node}
    (found : fabric.modules.get? handle = some ⟨ports, .node node⟩) {port place : Port}
    {link facing : Link} (linked : fabric.link? handle port = some link)
    (rivalLinked : fabric.link? handle place = some facing) {later rivalLater : OpenPipe}
    (stepped : (fabric.stepModule handle).pipes.get? link.send = some later)
    (rivalStepped : (fabric.stepModule handle).pipes.get? facing.send = some rivalLater)
    (different : link.send ≠ facing.send) (claimed : later.pipe.isClaimed) :
    rivalLater.pipe = .empty := by
  have role : fabric.role? handle = some (.node node) := by simp [role?, found]
  obtain ⟨entry, opened, -⟩ := (alike_stepModule fabric handle).exists_get?_of_after stepped
  obtain ⟨rival, rivalOpened, -⟩ :=
    (alike_stepModule fabric handle).exists_get?_of_after rivalStepped
  have nonempty : later.pipe ≠ .empty := by
    intro empty
    simp [empty, Pipe.isClaimed] at claimed
  by_contra rivalNonempty
  obtain ⟨-, ⟨rfl, awaits, stays⟩ | ⟨write, -, -, rfl⟩⟩ :=
    coherent.own_cases wired found linked opened stepped nonempty
  · have rivalEmpty : rival.pipe = .empty := coherent.exclusive role opened rivalOpened
      (wired.writer_eq linked opened) (wired.writer_eq rivalLinked rivalOpened) different claimed
    obtain ⟨-, ⟨rfl, -⟩ | ⟨write, -, offers, rfl⟩⟩ :=
      coherent.own_cases wired found rivalLinked rivalOpened rivalStepped rivalNonempty
    · exact rivalNonempty rivalEmpty
    · rw [stays] at offers
      obtain ⟨waiting, -, reached, free⟩ := Node.offering?_eq_some_iff.1 offers
      obtain ⟨pending, still, here, -⟩ := awaits
      rw [still] at waiting
      cases waiting
      by_cases any : write.target = .any
      · have placed := (link?_eq_get found port).symm.trans linked
        have unclaimed := free any link (Ports.mem_links.2 ⟨port, placed⟩)
        simp [PipeTable.isClaimed, PipeTable.pipe?, opened, claimed] at unclaimed
      · obtain ⟨side, member, sends⟩ := List.mem_filterMap.1 reached
        cases Core.eq_of_mem_reach any here member
        obtain ⟨towards, placed, same⟩ := Ports.sendAt_eq_some_iff.1 sends
        rw [link?_eq_some_iff.2 ⟨_, found, placed⟩] at linked
        cases linked
        exact different same
  · simp [Pipe.isClaimed] at claimed

theorem Coherent.exclusive_stepModule (handle : Handle) {node : Node} {id other : PipeId}
    {later rivalLater : OpenPipe}
    (role : (fabric.stepModule handle).role? later.writer = some (.node node))
    (stepped : (fabric.stepModule handle).pipes.get? id = some later)
    (rivalStepped : (fabric.stepModule handle).pipes.get? other = some rivalLater)
    (writers : rivalLater.writer = later.writer) (different : id ≠ other)
    (claimed : later.pipe.isClaimed) : rivalLater.pipe = .empty := by
  obtain ⟨entry, opened, writer⟩ := (alike_stepModule fabric handle).exists_get?_of_after stepped
  obtain ⟨rival, rivalOpened, rivalWriter⟩ :=
    (alike_stepModule fabric handle).exists_get?_of_after rivalStepped
  have rivals : rival.writer = entry.writer := by rw [rivalWriter, writers, writer]
  rw [← writer] at role
  by_cases same : entry.writer = handle
  · obtain ⟨before, known⟩ := exists_role?_of_stepModule role
    rw [same] at role known
    obtain ⟨ports, found⟩ := role?_eq_some_iff.1 known
    cases before with
    | forwarder half =>
        obtain ⟨_, -, still⟩ := role?_stepModule_forwarder found
        simp [still] at role
    | node old =>
        obtain ⟨port, link, linked, rfl⟩ := wired.exists_send opened
        obtain ⟨place, facing, rivalLinked, rfl⟩ := wired.exists_send rivalOpened
        rw [same] at linked
        rw [rivals, same] at rivalLinked
        exact coherent.exclusive_own wired found linked rivalLinked stepped rivalStepped different
          claimed
  · rw [role?_stepModule_of_ne same] at role
    rw [coherent.get?_stepModule_foreign wired opened role same] at stepped
    rw [coherent.get?_stepModule_foreign wired rivalOpened (rivals ▸ role)
      (rivals ▸ same)] at rivalStepped
    cases stepped
    cases rivalStepped
    exact coherent.exclusive_foreign wired role opened rivalOpened rivals different claimed

/-- Whatever module acts, nodes and pipes stay coherent. -/
theorem Coherent.stepModule (handle : Handle) : (fabric.stepModule handle).Coherent where
  awaited := by
    intro other node port link entry role linked stepped nonempty
    rw [link?_stepModule] at linked
    exact coherent.awaited_stepModule wired handle role linked stepped nonempty
  exclusive := by
    intro other node id place entry rival role stepped rivalStepped writer rivalWriter
    subst writer
    exact coherent.exclusive_stepModule wired handle role stepped rivalStepped rivalWriter

end Step

/-! ## What a port sends to -/

section Sent

variable {fabric : Fabric} (wired : fabric.Wired) (coherent : fabric.Coherent)
variable {handle : Handle} {port : Port} {link : Link} {entry : OpenPipe}
variable (linked : fabric.link? handle port = some link)
variable (opened : fabric.pipes.get? link.send = some entry)
include wired coherent linked opened

theorem Coherent.sent?_stepModule_foreign {node : Node}
    (role : fabric.role? handle = some (.node node)) {other : Handle} (different : handle ≠ other) :
    (fabric.stepModule other).sent? handle port =
      some (fabric.drained other link.send entry).pipe := by
  have own := wired.writer_eq linked opened
  have law := coherent.get?_stepModule_foreign wired opened (own ▸ role) (own ▸ different)
  exact sent?_eq_some_iff.2 ⟨link, _, by rw [link?_stepModule, linked], law, rfl⟩

theorem Coherent.sent?_stepModule_own {ports : Ports} {node : Node}
    (found : fabric.modules.get? handle = some ⟨ports, .node node⟩) :
    (fabric.stepModule handle).sent? handle port =
      some ((node.delivery? ports fabric.pipes).elim
        (((node.after ports fabric.pipes).offering? ports fabric.pipes link.send).elim entry
          fun write => entry.offered write.value (write.target = .any))
        fun _ => { entry with pipe := .empty }).pipe := by
  have law := coherent.get?_stepModule_own wired found opened (wired.writer_eq linked opened)
  exact sent?_eq_some_iff.2 ⟨link, _, by rw [link?_stepModule, linked], law, rfl⟩

end Sent

/-! ## The second phase -/

@[simp] theorem link?_commit (fabric : Fabric) (handle : Handle) (port : Port) :
    fabric.commit.link? handle port = fabric.link? handle port := rfl

@[simp] theorem role?_commit (fabric : Fabric) (handle : Handle) :
    fabric.commit.role? handle = fabric.role? handle := rfl

theorem pipe?_commit (fabric : Fabric) (id : PipeId) :
    fabric.commit.pipes.pipe? id = (fabric.pipes.pipe? id).map (·.commit) := by
  rw [commit, PipeTable.pipe?, PipeTable.get?_commit, PipeTable.pipe?]
  cases fabric.pipes.get? id <;> rfl

theorem sent?_commit (fabric : Fabric) (handle : Handle) (port : Port) :
    fabric.commit.sent? handle port = (fabric.sent? handle port).map (·.commit) := by
  unfold sent?
  rw [link?_commit]
  cases fabric.link? handle port with
  | none => rfl
  | some link => rw [Option.bind_some, Option.bind_some, pipe?_commit]

theorem Wired.commit {fabric : Fabric} (wired : fabric.Wired) : fabric.commit.Wired :=
  have alike := PipeTable.Alike.commit fabric.pipes
  wired.of_same wired.modules (alike.sound wired.pipes) (by simp) alike.writer

theorem Fronted.commit {fabric : Fabric} (fronted : fabric.Fronted) : fabric.commit.Fronted :=
  fronted.of_same (by simp) (fun role => ⟨_, role, .inl rfl⟩) (fun role => ⟨_, role⟩)

/-- An entry after a commit comes from one that was empty or claimed in the same way. -/
theorem exists_of_commit {fabric : Fabric} {id : PipeId} {later : OpenPipe}
    (stepped : fabric.commit.pipes.get? id = some later) :
    ∃ entry, fabric.pipes.get? id = some entry ∧
      later = { entry with pipe := entry.pipe.commit } := by
  obtain ⟨entry, opened, same⟩ :=
    Option.map_eq_some_iff.1 ((PipeTable.get?_commit fabric.pipes id).symm.trans stepped)
  exact ⟨entry, opened, same.symm⟩

theorem Coherent.commit {fabric : Fabric} (coherent : fabric.Coherent) :
    fabric.commit.Coherent where
  awaited := by
    intro handle node port link later role linked stepped nonempty
    obtain ⟨entry, opened, rfl⟩ := exists_of_commit stepped
    have before : entry.pipe ≠ .empty :=
      fun empty => nonempty (Pipe.commit_eq_empty_iff.2 empty)
    obtain ⟨write, waiting, reached, shared, carries⟩ :=
      coherent.awaited role linked opened before
    exact ⟨write, waiting, reached, shared, carries.commit⟩
  exclusive := by
    intro handle node id other later rivalLater role stepped rivalStepped writer rivalWriter
      different claimed
    obtain ⟨entry, opened, rfl⟩ := exists_of_commit stepped
    obtain ⟨rival, rivalOpened, rfl⟩ := exists_of_commit rivalStepped
    have before : entry.pipe.isClaimed := by
      rw [← Pipe.isClaimed_commit]
      exact claimed
    have empty := coherent.exclusive role opened rivalOpened writer rivalWriter different before
    exact Pipe.commit_eq_empty_iff.2 empty

theorem settled_commit (fabric : Fabric) : fabric.commit.Settled := by
  intro id later stepped
  obtain ⟨entry, -, rfl⟩ := exists_of_commit stepped
  cases entry.pipe <;> rfl

/-! ## Whole ticks -/

/-- Links, forwarders, nodes and pipes fit together. -/
structure Lawful (fabric : Fabric) : Prop where
  wired : fabric.Wired
  fronted : fabric.Fronted
  coherent : fabric.Coherent

namespace Lawful

variable {fabric : Fabric} (lawful : fabric.Lawful)
include lawful

theorem stepModule (handle : Handle) : (fabric.stepModule handle).Lawful where
  wired := lawful.wired.stepModule handle
  fronted := lawful.fronted.stepModule handle
  coherent := lawful.coherent.stepModule lawful.wired handle

/-- The first phase, in whatever order, is a run of single actions. -/
theorem stepModules (handles : List Handle) : (fabric.stepModules handles).Lawful := by
  induction handles generalizing fabric with
  | nil => exact lawful
  | cons handle rest ih => exact ih (lawful.stepModule handle)

theorem commit : fabric.commit.Lawful where
  wired := lawful.wired.commit
  fronted := lawful.fronted.commit
  coherent := lawful.coherent.commit

theorem tick : fabric.tick.Lawful :=
  (lawful.stepModules fabric.modules.handles).commit

end Lawful

end Fabric

end NodeGrid
