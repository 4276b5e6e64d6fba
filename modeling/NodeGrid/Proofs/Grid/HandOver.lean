import NodeGrid.Proofs.Grid.Visibility
import NodeGrid.Proofs.Node.Consistency
import Mathlib.Logic.Function.Iterate

/-!
# Handing over a word

A node writes to a port, and the node that the port is linked to stands ready to read there.  The
word is offered in the first tick, taken in the second and acknowledged in the third, in whatever
order the two nodes act and whatever the modules around them do.
-/

namespace NodeGrid

/-! ## The two nodes -/

namespace Node

theorem Runs.arrival?_port {node : Node} {port : Port} {target : Target}
    (runs : node.Runs (.move (.target (.port port)) target)) (ports : Ports) (pipes : PipeTable) :
    node.arrival? ports pipes = (pipes.arrivalAt ports port).map (port, ·) := by
  rw [runs.arrival?_eq]
  simp only [Instruction.input, Core.polled, Core.reach, PipeTable.firstArrival,
    List.findSome?_cons, List.findSome?_nil]
  cases pipes.arrivalAt ports port <;> rfl

/-- A node that reads from a port into the accumulator goes on with the word, or waits for one. -/
theorem Runs.after_read {node : Node} {port : Port}
    (runs : node.Runs (.move (.target (.port port)) .acc)) (ports : Ports) (pipes : PipeTable) :
    node.after ports pipes =
      (pipes.arrivalAt ports port).elim { node with activity := .waitingRead } fun value =>
        { node with
          core := { node.core with registers.acc := value }.advance
          activity := .running } := by
  have arrives := runs.arrival?_port ports pipes
  cases found : pipes.arrivalAt ports port with
  | none => exact runs.after_of_take_eq_none (by rw [arrives, found]; rfl)
  | some value => exact runs.after_of_take_eq_some (by rw [arrives, found]; rfl)

/-- A node that has read what it moves to a port waits for it to be claimed. -/
theorem Runs.after_write {node : Node} {source : Operand} {port : Port}
    (runs : node.Runs (.move source (.port port))) {ports : Ports} {pipes : PipeTable}
    {value : Word} {core : Core}
    (reads : (node.core.read (⟨ports, pipes⟩ : PortBus) source).1 = some (value, core)) :
    node.after ports pipes = { node with core, activity := .waitingWrite ⟨value, .port port⟩ } := by
  rw [Core.read_eq, PortBus.claimFirst_mk] at reads
  refine runs.after_of_take_eq_some ?_
  rw [runs.arrival?_eq]
  exact reads

end Node

namespace Fabric

/-! ## The turn of a node -/

/-- The ports of a module over the pipes. -/
def bus (fabric : Fabric) (handle : Handle) : PortBus :=
  ⟨((fabric.modules.get? handle).map (·.ports)).getD Ports.unlinked, fabric.pipes⟩

theorem bus_eq {fabric : Fabric} {handle : Handle} {ports : Ports} {role : Role}
    (found : fabric.modules.get? handle = some ⟨ports, role⟩) :
    fabric.bus handle = ⟨ports, fabric.pipes⟩ := by
  rw [bus, found]
  rfl

theorem mem_acts_iff {fabric : Fabric} {handles : List Handle} {act : Act} :
    act ∈ fabric.acts handles ↔
      ∃ earlier rest, handles = earlier ++ act.actor :: rest ∧
        act.before = fabric.stepModules earlier := by
  induction handles generalizing fabric with
  | nil => simp [acts]
  | cons handle rest ih =>
      rw [acts, List.mem_cons, ih]
      constructor
      · rintro (rfl | ⟨earlier, later, rfl, before⟩)
        · exact ⟨[], rest, rfl, rfl⟩
        · exact ⟨handle :: earlier, later, rfl, before⟩
      · rintro ⟨earlier, later, split, before⟩
        cases earlier with
        | nil =>
            obtain ⟨rfl, -⟩ := List.cons.inj split
            exact .inl (by cases act; cases before; rfl)
        | cons first earlier =>
            obtain ⟨rfl, same⟩ := List.cons.inj split
            exact .inr ⟨earlier, later, same, before⟩

/-- A node that acts once finds itself as the phase began, and what it then becomes it stays. -/
theorem role?_of_turn {fabric : Fabric} {earlier rest : List Handle} {handle : Handle}
    (once : (earlier ++ handle :: rest).Nodup) {ports : Ports} {node : Node}
    (found : fabric.modules.get? handle = some ⟨ports, .node node⟩) :
    handle ∉ earlier ∧
    (fabric.stepModules earlier).modules.get? handle = some ⟨ports, .node node⟩ ∧
      (fabric.stepModules (earlier ++ handle :: rest)).role? handle =
        some (.node (node.after ports (fabric.stepModules earlier).pipes)) := by
  obtain ⟨-, later, others⟩ := List.nodup_append.1 once
  have before : handle ∉ earlier := fun member => others _ member _ List.mem_cons_self rfl
  have turn : (fabric.stepModules earlier).modules.get? handle = some ⟨ports, .node node⟩ :=
    (get?_eq_of_views (role?_stepModules_of_notMem before)
      ((fabric.continues_stepModules earlier).link handle)).trans found
  refine ⟨before, turn, ?_⟩
  rw [stepModules_append, stepModules_cons,
    role?_stepModules_of_notMem (List.nodup_cons.1 later).1]
  exact role?_stepModule_node turn

/-! ## An offer on one port -/

/-- A node waits for a word that it has written to a port, and this is in the pipe. -/
structure Offers (fabric : Fabric) (writer : Handle) (node : Node) (port : Port) (link : Link)
    (value : Word) (pipe : Pipe) : Prop where
  lawful : fabric.Lawful
  role : fabric.role? writer = some (.node node)
  waiting : node.activity = .waitingWrite ⟨value, .port port⟩
  linked : fabric.link? writer port = some link
  holds : fabric.pipes.pipe? link.send = some pipe

namespace Offers

variable {fabric : Fabric} {writer : Handle} {node : Node} {port : Port} {link : Link}
variable {value : Word} {pipe : Pipe}
variable (offers : fabric.Offers writer node port link value pipe)
include offers

/-- The node has nothing in its other pipes. -/
theorem eq_empty {id : PipeId} {entry : OpenPipe} (opened : fabric.pipes.get? id = some entry)
    (own : entry.writer = writer) (other : id ≠ link.send) : entry.pipe = .empty := by
  by_contra nonempty
  obtain ⟨place, facing, faces, rfl, write, waiting, reached, -⟩ :=
    offers.lawful.coherent.awaits_of_writer offers.lawful.wired offers.role opened own nonempty
  rw [offers.waiting] at waiting
  cases waiting
  rw [Core.reach, List.mem_singleton] at reached
  rw [reached, offers.linked] at faces
  cases faces
  exact other rfl

/-- Nobody but the module at the other end can take the word, and it only once it is ready. -/
theorem giver?_ne {handle : Handle} (untaken : handle = link.peer → pipe.peek? = none) :
    fabric.giver? handle ≠ some writer := by
  intro gives
  obtain ⟨id, draws, own⟩ := Option.bind_eq_some_iff.1 gives
  obtain ⟨place, facing, taken, word, faces, rfl, opened, ready⟩ :=
    offers.lawful.wired.ready_of_drawn draws
  rw [PipeTable.writer?, opened, Option.map_some, Option.some.injEq] at own
  by_cases same : facing.receive = link.send
  · obtain ⟨side, mirrored⟩ := offers.lawful.wired.mirror offers.linked
    have actor := (offers.lawful.wired.receive_injective faces mirrored same).1
    have holds := offers.holds
    rw [← same, PipeTable.pipe?, opened, Option.map_some, ready, Option.some.injEq] at holds
    have nothing := untaken actor
    rw [← holds] at nothing
    cases nothing
  · have empty := offers.eq_empty opened own same
    rw [ready] at empty
    cases empty

/-- The node does not acknowledge a claim that is not there. -/
theorem delivery?_eq_none {ports : Ports}
    (found : fabric.modules.get? writer = some ⟨ports, .node node⟩)
    (unreported : pipe.acknowledge? = none) : node.delivery? ports fabric.pipes = none := by
  refine Option.eq_none_iff_forall_not_mem.2 fun place delivery => ?_
  obtain ⟨-, -, facing, entry, placed, opened, known⟩ := Node.delivered_of_delivery delivery
  have faces := link?_eq_some_iff.2 ⟨_, found, placed⟩
  by_cases same : facing.send = link.send
  · have holds := offers.holds
    rw [← same, PipeTable.pipe?, opened, Option.map_some, known, Option.some.injEq] at holds
    rw [← holds] at unreported
    cases unreported
  · have empty := offers.eq_empty opened (offers.lawful.wired.writer_eq faces opened) same
    rw [known] at empty
    cases empty

theorem stepModule_own (full : pipe.isEmpty = false) (unreported : pipe.acknowledge? = none) :
    (fabric.stepModule writer).role? writer = some (.node node) ∧
      (fabric.stepModule writer).pipes.pipe? link.send = some pipe := by
  obtain ⟨ports, found⟩ := role?_eq_some_iff.1 offers.role
  have delivery := offers.delivery?_eq_none found unreported
  obtain ⟨entry, opened, holds⟩ := PipeTable.pipe?_eq_some_iff.1 offers.holds
  have stepped := offers.lawful.coherent.get?_stepModule_own offers.lawful.wired found opened
    (offers.lawful.wired.writer_eq offers.linked opened)
  constructor
  · rw [role?_stepModule_node found, Node.after_of_waiting offers.waiting delivery]
  · rw [delivery, Option.elim_none] at stepped
    refine PipeTable.pipe?_eq_some_iff.2 ⟨_, stepped, ?_⟩
    cases (node.after ports fabric.pipes).offering? ports fabric.pipes link.send with
    | none => exact holds
    | some write =>
        rw [Option.elim_some, OpenPipe.offered_pipe, if_neg (holds ▸ of_decide_eq_false full)]
        exact holds

theorem stepModule_foreign {handle : Handle} (foreign : writer ≠ handle)
    (untaken : handle = link.peer → pipe.peek? = none) :
    (fabric.stepModule handle).role? writer = some (.node node) ∧
      (fabric.stepModule handle).pipes.pipe? link.send = some pipe := by
  obtain ⟨entry, opened, holds⟩ := PipeTable.pipe?_eq_some_iff.1 offers.holds
  have own := offers.lawful.wired.writer_eq offers.linked opened
  have stepped := offers.lawful.coherent.get?_stepModule_foreign offers.lawful.wired opened
    (own ▸ offers.role) (own ▸ foreign)
  have kept := offers.giver?_ne untaken
  constructor
  · rw [role?_stepModule_of_ne foreign, offers.role]
  · refine PipeTable.pipe?_eq_some_iff.2 ⟨_, stepped, ?_⟩
    rcases offers.lawful.wired.drained_cases handle opened with ⟨draws, -⟩ | ⟨gives, -⟩ | same
    · exact absurd (by simp [giver?, draws, PipeTable.writer?, opened, own]) kept
    · exact absurd (own ▸ gives) kept
    · rw [same, holds]

/-- An offer stays while the reader cannot take it and the writer has nothing to acknowledge. -/
theorem stepModule {handle : Handle} (full : pipe.isEmpty = false)
    (untaken : handle = link.peer → pipe.peek? = none)
    (unreported : handle = writer → pipe.acknowledge? = none) :
    (fabric.stepModule handle).Offers writer node port link value pipe := by
  have kept : (fabric.stepModule handle).role? writer = some (.node node) ∧
      (fabric.stepModule handle).pipes.pipe? link.send = some pipe := by
    by_cases same : handle = writer
    · subst same
      exact offers.stepModule_own full (unreported rfl)
    · exact offers.stepModule_foreign (Ne.symm same) untaken
  exact ⟨offers.lawful.stepModule handle, kept.1, offers.waiting,
    (link?_stepModule _ _ _ _).trans offers.linked, kept.2⟩

theorem stepModules {handles : List Handle} (full : pipe.isEmpty = false)
    (untaken : link.peer ∈ handles → pipe.peek? = none)
    (unreported : writer ∈ handles → pipe.acknowledge? = none) :
    (fabric.stepModules handles).Offers writer node port link value pipe := by
  induction handles generalizing fabric with
  | nil => exact offers
  | cons handle rest ih =>
      refine ih (offers.stepModule full ?_ ?_) ?_ ?_
      · exact fun same => untaken (same ▸ List.mem_cons_self)
      · exact fun same => unreported (same ▸ List.mem_cons_self)
      · exact fun member => untaken (List.mem_cons_of_mem handle member)
      · exact fun member => unreported (List.mem_cons_of_mem handle member)

theorem commit : fabric.commit.Offers writer node port link value pipe.commit where
  lawful := offers.lawful.commit
  role := offers.role
  waiting := offers.waiting
  linked := offers.linked
  holds := by rw [pipe?_commit, offers.holds, Option.map_some]

end Offers

/-! ## What the two nodes do -/

section Actions

variable {fabric : Fabric} {writer reader : Handle} {port place : Port} {link : Link}
variable {value : Word} {ports : Ports} {node : Node}

/-- A node that runs an instruction has nothing in its pipes. -/
theorem Lawful.pipe?_of_runs (lawful : fabric.Lawful)
    (role : fabric.role? writer = some (.node node)) {instruction : Instruction}
    (runs : node.Runs instruction) (linked : fabric.link? writer port = some link) :
    fabric.pipes.pipe? link.send = some .empty := by
  obtain ⟨entry, opened, own⟩ := lawful.wired.exists_get? linked
  exact PipeTable.pipe?_eq_some_iff.2
    ⟨entry, opened, lawful.coherent.silent lawful.wired role opened own runs.not_waiting⟩

/-- A node that begins to write puts its word into the pipe. -/
theorem Lawful.offers_stepModule (lawful : fabric.Lawful)
    (found : fabric.modules.get? writer = some ⟨ports, .node node⟩)
    (linked : fabric.link? writer port = some link) {source : Operand}
    (runs : node.Runs (.move source (.port port))) {core : Core}
    (reads : (node.core.read (fabric.bus writer) source).1 = some (value, core)) :
    (fabric.stepModule writer).Offers writer
      { node with core, activity := .waitingWrite ⟨value, .port port⟩ } port link value
      (.pending value) := by
  have role : fabric.role? writer = some (.node node) := by simp [role?, found]
  rw [bus_eq found] at reads
  have after := runs.after_write reads
  obtain ⟨entry, opened, empty⟩ :=
    PipeTable.pipe?_eq_some_iff.1 (lawful.pipe?_of_runs role runs linked)
  have sends : ports.sendAt port = some link.send :=
    Ports.sendAt_eq_some_iff.2 ⟨link, (link?_eq_get found port).symm.trans linked, rfl⟩
  have offering : (node.after ports fabric.pipes).offering? ports fabric.pipes link.send =
      some ⟨value, .port port⟩ := by
    rw [after]
    exact Node.offering?_eq_some_iff.2 ⟨rfl, runs.enabled,
      List.mem_filterMap.2 ⟨port, List.mem_singleton_self port, sends⟩, fun any => by cases any⟩
  have stepped := lawful.coherent.get?_stepModule_own lawful.wired found opened
    (lawful.wired.writer_eq linked opened)
  rw [runs.delivery?_eq_none, Option.elim_none, offering, Option.elim_some] at stepped
  exact
    { lawful := lawful.stepModule writer
      role := by rw [role?_stepModule_node found, after]
      waiting := rfl
      linked := (link?_stepModule _ _ _ _).trans linked
      holds := PipeTable.pipe?_eq_some_iff.2
        ⟨_, stepped, by rw [OpenPipe.offered_pipe, if_pos empty]⟩ }

/-- The reader takes the word that is ready in its turn. -/
theorem Offers.stepModule_reader
    (offers : fabric.Offers writer node port link value (.ready value)) {other : Node}
    (found : fabric.modules.get? reader = some ⟨ports, .node other⟩)
    (runs : other.Runs (.move (.target (.port place)) .acc))
    (mirrored : fabric.link? reader place = some (link.flip writer)) (apart : writer ≠ reader) :
    (fabric.stepModule reader).Offers writer node port link value .claimed ∧
      fabric.pipes.arrivalAt ports place = some value := by
  have placed : ports.get place = some (link.flip writer) :=
    (link?_eq_get found place).symm.trans mirrored
  have arrives : fabric.pipes.arrivalAt ports place = some value := by
    rw [PipeTable.arrivalAt, placed, Option.bind_some, show (link.flip writer).receive = link.send
      from rfl, offers.holds]
    rfl
  have draws : fabric.drawn? reader = some link.send := by
    rw [drawn?_node found, Node.drawn?, runs.arrival?_port, arrives, Option.map_some,
      Option.bind_some, placed]
    rfl
  refine ⟨?_, arrives⟩
  exact
    { lawful := offers.lawful.stepModule reader
      role := (role?_stepModule_of_ne apart).trans offers.role
      waiting := offers.waiting
      linked := (link?_stepModule _ _ _ _).trans offers.linked
      holds := claimed_of_drawn draws }

/-- The writer goes on once it knows of the claim. -/
theorem Offers.after_of_delivered
    (offers : fabric.Offers writer node port link value .delivered) (enabled : node.enabled)
    (found : fabric.modules.get? writer = some ⟨ports, .node node⟩) :
    node.after ports fabric.pipes =
      { node with core := node.core.advance, activity := .running } := by
  have placed : ports.get port = some link := (link?_eq_get found port).symm.trans offers.linked
  have known : fabric.pipes.deliveredAt ports port := by
    simp [PipeTable.deliveredAt, placed, offers.holds]
  have some_known : (fabric.pipes.delivery? ports).isSome :=
    List.find?_isSome.2 ⟨port, port.mem_all, known⟩
  obtain ⟨side, delivers⟩ := Option.isSome_iff_exists.1 some_known
  have delivery : node.delivery? ports fabric.pipes = some side := by
    rw [Node.delivery?, if_pos ⟨enabled, by rw [offers.waiting]; rfl⟩, delivers]
  obtain ⟨write, waiting, completes⟩ := Node.after_of_delivery delivery
  rw [offers.waiting] at waiting
  cases waiting
  exact completes

end Actions

/-! ## Three ticks, each in any order -/

section Ticks

variable {fabric : Fabric} {handles : List Handle} (once : handles.Nodup)
variable {writer reader : Handle} {port place : Port} {link : Link} {value : Word} {node : Node}
include once

/-- After the tick in which a node begins to write, its word is ready. -/
theorem Lawful.offers_of_act (lawful : fabric.Lawful)
    (role : fabric.role? writer = some (.node node))
    (linked : fabric.link? writer port = some link) {source : Operand}
    (runs : node.Runs (.move source (.port port))) {act : Act} (acts : act ∈ fabric.acts handles)
    (actor : act.actor = writer) {core : Core}
    (reads : (node.core.read (act.before.bus writer) source).1 = some (value, core)) :
    (fabric.stepModules handles).commit.Offers writer
      { node with core, activity := .waitingWrite ⟨value, .port port⟩ } port link value
      (.ready value) := by
  obtain ⟨earlier, rest, rfl, before⟩ := mem_acts_iff.1 acts
  rw [actor] at once ⊢
  rw [before] at reads
  obtain ⟨ports, found⟩ := role?_eq_some_iff.1 role
  obtain ⟨-, turn, -⟩ := role?_of_turn once found
  have turnLinked := ((fabric.continues_stepModules earlier).link writer port).trans linked
  have offers := (lawful.stepModules earlier).offers_stepModule turn turnLinked runs reads
  rw [stepModules_append]
  exact (offers.stepModules rfl (fun _ => rfl) (fun _ => rfl)).commit

/-- A node that reads from a port where nothing is offered when the tick begins waits. -/
theorem role?_of_empty (role : fabric.role? reader = some (.node node))
    (runs : node.Runs (.move (.target (.port place)) .acc))
    (linked : fabric.link? reader place = some link)
    (empty : fabric.pipes.pipe? link.receive = some .empty) (acts : reader ∈ handles) :
    (fabric.stepModules handles).commit.role? reader =
      some (.node { node with activity := .waitingRead }) := by
  obtain ⟨earlier, rest, rfl⟩ := List.append_of_mem acts
  obtain ⟨ports, found⟩ := role?_eq_some_iff.1 role
  obtain ⟨-, -, later⟩ := role?_of_turn once found
  rw [link?_eq_get found] at linked
  have nothing : (fabric.stepModules earlier).pipes.arrivalAt ports place = none := by
    refine Option.eq_none_iff_forall_not_mem.2 fun word arrives => ?_
    obtain ⟨facing, placed, ready⟩ := Option.bind_eq_some_iff.1 arrives
    cases linked.symm.trans placed
    have member : (⟨fabric.stepModules earlier, reader⟩ : Act) ∈
        fabric.acts (earlier ++ reader :: rest) := mem_acts_iff.2 ⟨earlier, rest, rfl, rfl⟩
    cases empty.symm.trans (ready_of_mem_acts member (PipeTable.peek?_eq_some_iff.1 ready))
  rw [role?_commit, later, runs.after_read, nothing, Option.elim_none]

/-- In the tick in which a word is ready, the reader takes it. -/
theorem Offers.taken (offers : fabric.Offers writer node port link value (.ready value))
    {other : Node} (role : fabric.role? reader = some (.node other))
    (runs : other.Runs (.move (.target (.port place)) .acc))
    (mirrored : fabric.link? reader place = some (link.flip writer)) (apart : writer ≠ reader)
    (acts : reader ∈ handles) :
    (fabric.stepModules handles).commit.Offers writer node port link value .delivered ∧
      (fabric.stepModules handles).commit.role? reader =
        some (.node { other with
          core := { other.core with registers.acc := value }.advance
          activity := .running }) := by
  obtain ⟨earlier, rest, rfl⟩ := List.append_of_mem acts
  obtain ⟨ports, found⟩ := role?_eq_some_iff.1 role
  obtain ⟨fresh, turn, later⟩ := role?_of_turn once found
  obtain ⟨facing, opposite⟩ := offers.lawful.wired.mirror offers.linked
  obtain ⟨peer, -⟩ := offers.lawful.wired.send_injective opposite mirrored rfl
  have waits := offers.stepModules rfl (fun member => absurd (peer ▸ member) fresh) (fun _ => rfl)
  have turnMirrored := ((fabric.continues_stepModules earlier).link reader place).trans mirrored
  obtain ⟨claimed, arrives⟩ := waits.stepModule_reader turn runs turnMirrored apart
  constructor
  · rw [stepModules_append]
    exact (claimed.stepModules rfl (fun _ => rfl) (fun _ => rfl)).commit
  · rw [role?_commit, later, runs.after_read, arrives, Option.elim_some]

/-- In the tick in which the writer can acknowledge the claim, it goes on. -/
theorem Offers.acknowledged (offers : fabric.Offers writer node port link value .delivered)
    (enabled : node.enabled) (acts : writer ∈ handles) :
    (fabric.stepModules handles).commit.role? writer =
      some (.node { node with core := node.core.advance, activity := .running }) := by
  obtain ⟨earlier, rest, rfl⟩ := List.append_of_mem acts
  obtain ⟨ports, found⟩ := role?_eq_some_iff.1 offers.role
  obtain ⟨fresh, turn, later⟩ := role?_of_turn once found
  have waits := offers.stepModules rfl (fun _ => rfl) (fun member => absurd member fresh)
  rw [role?_commit, later, waits.after_of_delivered enabled turn]

end Ticks

end Fabric

/-! ## The ticks of a grid -/

namespace Grid

theorem fabric_replicate_step {grid : Grid} (running : grid.power = .running) (count : Nat) :
    (grid.run (.replicate count .step)).fabric = Fabric.tick^[count] grid.fabric := by
  induction count generalizing grid with
  | zero => rfl
  | succ count ih =>
      have stepped : grid.step =
          { grid with fabric := grid.fabric.tick, ticks := grid.ticks + 1 } := by
        simp only [step, running]
      exact (congrArg (fun next => (run next _).fabric) stepped).trans (ih running)

/-- Let a port of a node be linked to a port of another one, where this stands ready to read into
its accumulator, and let the first one move a word to its port in the next tick without waiting for
it.  After the tick both wait, the one for its word to be claimed and the other as it was.  After
the second tick the other has the word and goes on, and after the third so does the first. -/
theorem Reachable.hand_over_in_two_ticks {grid : Grid} (reachable : grid.Reachable)
    (running : grid.power = .running) {writer reader : Handle} {port place : Port} {link : Link}
    (linked : grid.fabric.link? writer port = some link)
    (mirrored : grid.fabric.link? reader place = some (link.flip writer)) {giver taker : Node}
    (gives : grid.fabric.node writer = .ok giver) (takes : grid.fabric.node reader = .ok taker)
    {source : Operand} (writes : giver.Runs (.move source (.port port)))
    (reads : taker.Runs (.move (.target (.port place)) .acc)) {act : Act}
    (acts : act ∈ grid.fabric.acts grid.fabric.modules.handles) (actor : act.actor = writer)
    {value : Word} {core : Core}
    (finds : (giver.core.read (act.before.bus writer) source).1 = some (value, core)) :
    core.registers.pc = giver.core.registers.pc ∧
    (grid.run [.step]).fabric.node writer =
      .ok { giver with core, activity := .waitingWrite ⟨value, .port port⟩ } ∧
    (grid.run [.step]).fabric.node reader = .ok { taker with activity := .waitingRead } ∧
    (grid.run [.step, .step]).fabric.node writer =
      .ok { giver with core, activity := .waitingWrite ⟨value, .port port⟩ } ∧
    (grid.run [.step, .step]).fabric.node reader =
      .ok { taker with
        core := { taker.core with registers.acc := value }.advance
        activity := .running } ∧
    (grid.run [.step, .step, .step]).fabric.node writer =
      .ok { giver with core := core.advance, activity := .running } := by
  have lawful := reachable.sound.lawful
  have role := Fabric.node_eq_ok gives
  have other := Fabric.node_eq_ok takes
  have apart : writer ≠ reader := by
    rintro rfl
    cases role.symm.trans other
    cases writes.stands.symm.trans reads.stands
  have empty := lawful.pipe?_of_runs role writes linked
  -- The first tick: the word is offered, and the reader has nothing to read.
  have offered : grid.fabric.tick.Offers writer
      { giver with core, activity := .waitingWrite ⟨value, .port port⟩ } port link value
      (.ready value) :=
    lawful.offers_of_act (Arena.handles_nodup _) role linked writes acts actor finds
  have waits : grid.fabric.tick.role? reader =
      some (.node { taker with activity := .waitingRead }) :=
    Fabric.role?_of_empty (Arena.handles_nodup _) other reads mirrored empty
      (Fabric.mem_handles_of_role other)
  -- The second tick: the reader takes the word.
  have second := offered.taken (Arena.handles_nodup _) waits
    ⟨reads.enabled, .inr rfl, reads.stands⟩
    ((grid.fabric.continues_tick.link reader place).trans mirrored) apart
    (Fabric.mem_handles_of_role waits)
  have taken : grid.fabric.tick.tick.Offers writer
      { giver with core, activity := .waitingWrite ⟨value, .port port⟩ } port link value
      .delivered := second.1
  have goesOn : grid.fabric.tick.tick.role? reader = some (.node { taker with
      core := { taker.core with registers.acc := value }.advance
      activity := .running }) := second.2
  -- The third tick: the writer learns of it.
  have ends : grid.fabric.tick.tick.tick.role? writer = some (.node { giver with
      core := core.advance
      activity := .running }) :=
    taken.acknowledged (Arena.handles_nodup _) writes.enabled
      (Fabric.mem_handles_of_role taken.role)
  have one : (grid.run [.step]).fabric = grid.fabric.tick := fabric_replicate_step running 1
  have two : (grid.run [.step, .step]).fabric = grid.fabric.tick.tick :=
    fabric_replicate_step running 2
  have three : (grid.run [.step, .step, .step]).fabric = grid.fabric.tick.tick.tick :=
    fabric_replicate_step running 3
  rw [one, two, three]
  simp only [Fabric.node_eq_ok_iff]
  rw [Core.read_eq] at finds
  exact ⟨(Core.take_eq_some finds).2, offered.role, waits, taken.role, goesOn, ends⟩

/-- A running grid in which a node passes the words of one neighbour on to another, after one tick.
The reader comes first among the slots. -/
def passingOn : Grid :=
  standard.run
    [.addNode, .addNode, .addNode, .link ⟨1, 0⟩ .left ⟨0, 0⟩ .right,
      .link ⟨2, 0⟩ .down ⟨1, 0⟩ .up, .compile ⟨0, 0⟩ ["MOV RIGHT ACC".toList],
      .compile ⟨1, 0⟩ ["MOV UP LEFT".toList], .compile ⟨2, 0⟩ ["MOV 7 DOWN".toList], .start, .step]

/-- The word that has come from one neighbour is with the other two ticks after it has been read. -/
theorem passingOn_hands_over : passingOn.Reachable ∧
    ((passingOn.run [.step]).fabric.node ⟨1, 0⟩).toOption.map (·.activity) =
      some (.waitingWrite ⟨7, .port .left⟩) ∧
    ((passingOn.run [.step, .step]).fabric.node ⟨0, 0⟩).toOption.map (·.core.registers.acc) =
      some 7 ∧
    ((passingOn.run [.step, .step, .step]).fabric.node ⟨1, 0⟩).toOption.map (·.activity) =
      some .running := by
  have reachable : passingOn.Reachable := standard_reachable.run _
  let giver := (passingOn.fabric.node ⟨1, 0⟩).toOption.getD .new
  let taker := (passingOn.fabric.node ⟨0, 0⟩).toOption.getD .new
  have gives : passingOn.fabric.node ⟨1, 0⟩ = .ok giver := by decide +kernel
  have takes : passingOn.fabric.node ⟨0, 0⟩ = .ok taker := by decide +kernel
  have running : passingOn.power = .running := by decide +kernel
  have linked : passingOn.fabric.link? ⟨1, 0⟩ .left = some ⟨⟨0⟩, ⟨1⟩, ⟨0, 0⟩⟩ := by decide +kernel
  have mirrored : passingOn.fabric.link? ⟨0, 0⟩ .right = some ⟨⟨1⟩, ⟨0⟩, ⟨1, 0⟩⟩ := by
    decide +kernel
  have writes : giver.Runs (.move (.target (.port .up)) (.port .left)) :=
    ⟨by decide +kernel, by decide +kernel, by decide +kernel⟩
  have reads : taker.Runs (.move (.target (.port .right)) .acc) :=
    ⟨by decide +kernel, by decide +kernel, by decide +kernel⟩
  have handles : passingOn.fabric.modules.handles = [⟨0, 0⟩, ⟨1, 0⟩, ⟨2, 0⟩] := by decide +kernel
  have acts : ⟨passingOn.fabric.stepModule ⟨0, 0⟩, ⟨1, 0⟩⟩ ∈
      passingOn.fabric.acts passingOn.fabric.modules.handles := by
    rw [handles]
    exact List.mem_cons_of_mem _ List.mem_cons_self
  have finds : (giver.core.read ((passingOn.fabric.stepModule ⟨0, 0⟩).bus ⟨1, 0⟩)
      (.target (.port .up))).1 = some (7, giver.core) := by decide +kernel
  obtain ⟨-, offered, -, -, taken, ends⟩ := reachable.hand_over_in_two_ticks running linked mirrored
    gives takes writes reads acts rfl finds
  exact ⟨reachable, by rw [offered]; rfl, by rw [taken]; rfl, by rw [ends]; rfl⟩

end Grid

end NodeGrid
