import NodeGrid.Proofs.Node.Consistency
import NodeGrid.Proofs.Node.Overheard

/-!
# A step claims at most one word and uses it

A node claims a word only when it runs an instruction whose input is to come from a port at which
one is ready, and then it claims just this word.  What the instruction does with a word it does in
the same step; the one thing that can be left to do is to get rid of the word through a port, and
then the node keeps it.  A node that finds nothing to read is left as it was, and so are its pipes.
-/

namespace NodeGrid

/-! ## Which word is claimed -/

theorem Port.pairwise_index : Port.all.Pairwise (·.index < ·.index) := by
  decide

namespace PipeTable

variable {pipes : PipeTable} {ports : Ports} {polled : List Port} {port : Port} {value : Word}

/-- A word is ready in the pipe that a port receives from. -/
def ReadyAt (pipes : PipeTable) (ports : Ports) (port : Port) (value : Word) : Prop :=
  ∃ link, ports.get port = some link ∧ pipes.pipe? link.receive = some (.ready value)

theorem arrivalAt_eq_some_iff :
    pipes.arrivalAt ports port = some value ↔ pipes.ReadyAt ports port value := by
  unfold arrivalAt ReadyAt
  cases ports.get port with
  | none => simp
  | some link => simpa using peek?_eq_some_iff

theorem arrivalAt_eq_none_iff :
    pipes.arrivalAt ports port = none ↔ ∀ value, ¬pipes.ReadyAt ports port value := by
  simp [Option.eq_none_iff_forall_ne_some, arrivalAt_eq_some_iff]

/-- The first arrival is ready, at a polled port, and no port polled before has one. -/
theorem firstArrival_eq_some_iff :
    pipes.firstArrival ports polled = some (port, value) ↔
      ∃ earlier later, polled = earlier ++ port :: later ∧ pipes.ReadyAt ports port value ∧
        ∀ other ∈ earlier, ∀ word, ¬pipes.ReadyAt ports other word := by
  simp only [firstArrival, List.findSome?_eq_some_iff, Option.map_eq_some_iff, Prod.mk.injEq,
    Option.map_eq_none_iff, arrivalAt_eq_some_iff, arrivalAt_eq_none_iff]
  constructor
  · rintro ⟨earlier, _, later, split, ⟨_, ready, rfl, rfl⟩, nothing⟩
    exact ⟨earlier, later, split, ready, nothing⟩
  · rintro ⟨earlier, later, split, ready, nothing⟩
    exact ⟨earlier, port, later, split, ⟨value, ready, rfl, rfl⟩, nothing⟩

theorem firstArrival_eq_none_iff :
    pipes.firstArrival ports polled = none ↔
      ∀ port ∈ polled, ∀ value, ¬pipes.ReadyAt ports port value := by
  simp [firstArrival, arrivalAt_eq_none_iff]

/-- Of all ports, the first one in polling order at which a word is ready is taken. -/
theorem index_le_of_firstArrival (first : pipes.firstArrival ports Port.all = some (port, value))
    {other : Port} {word : Word} (ready : pipes.ReadyAt ports other word) :
    port.index ≤ other.index := by
  obtain ⟨earlier, later, split, -, nothing⟩ := firstArrival_eq_some_iff.1 first
  have ordered := Port.pairwise_index
  rw [split] at ordered
  have after := (List.pairwise_cons.1 (List.pairwise_append.1 ordered).2.1).1
  have place : other ∈ earlier ++ port :: later := split ▸ other.mem_all
  rcases List.mem_append.1 place with before | rest
  · exact absurd ready (nothing other before word)
  · rcases List.mem_cons.1 rest with rfl | behind
    · exact Nat.le_refl _
    · exact Nat.le_of_lt (after other behind)

end PipeTable

namespace Core

/-- An operand is to be read from a port: it names the port, or it is the last port and this one
is, or it leaves the choice of the port open. -/
inductive Addresses (core : Core) : Operand → Port → Prop where
  | port (side : Port) : Addresses core (.target (.port side)) side
  | last {side : Port} (known : core.registers.last = some side) :
      Addresses core (.target .last) side
  | any (side : Port) : Addresses core (.target .any) side

theorem mem_polled_iff {core : Core} {operand : Operand} {port : Port} :
    port ∈ core.polled operand ↔ core.Addresses operand port := by
  constructor
  · intro polled
    cases operand with
    | literal value => simp [Core.polled] at polled
    | target place =>
        cases place with
        | acc | nil => simp [Core.polled, reach] at polled
        | port side =>
            cases List.mem_singleton.1 polled
            exact .port port
        | any => exact .any port
        | last => exact .last (Option.mem_toList.1 polled)
  · intro addressed
    cases addressed with
    | port => exact List.mem_singleton_self port
    | last known => exact Option.mem_toList.2 known
    | any => exact port.mem_all

/-- The last port after a word has been read at a port: that port, if the choice was open. -/
def lastAfter (core : Core) (operand : Operand) (port : Port) : Option Port :=
  if operand = .target .any then some port else core.registers.last

/-- A word that has arrived at an addressed port is what the operand gives. -/
theorem take_of_addresses {core : Core} {operand : Operand} {port : Port}
    (addressed : core.Addresses operand port) (value : Word) :
    core.take operand (some (port, value)) =
      some (value, { core with registers.last := core.lastAfter operand port }) := by
  cases addressed with
  | port => rfl
  | any => rfl
  | last known =>
      obtain ⟨program, source, acc, bak, pc, last⟩ := core
      cases known
      rfl

end Core

namespace Node

/-- The next step runs an instruction whose input is to come from a port, and there a word is
ready. -/
structure Finds (node : Node) (ports : Ports) (pipes : PipeTable) (instruction : Instruction)
    (port : Port) (value : Word) : Prop where
  runs : node.Runs instruction
  addressed : node.core.Addresses instruction.input port
  ready : pipes.ReadyAt ports port value

/-- Only a node that runs an instruction polls ports. -/
theorem exists_runs_of_mem_polled {node : Node} {port : Port} (polled : port ∈ node.polled) :
    ∃ instruction, node.Runs instruction := by
  obtain ⟨core, activity, enabled⟩ := node
  cases enabled with
  | false => simp [Node.polled] at polled
  | true =>
      cases fetched : core.instruction? with
      | none => cases activity <;> simp [Node.polled, fetched] at polled
      | some instruction =>
          cases activity with
          | idle | waitingWrite write => simp [Node.polled] at polled
          | running => exact ⟨instruction, rfl, .inl rfl, fetched⟩
          | waitingRead => exact ⟨instruction, rfl, .inr rfl, fetched⟩

variable {node : Node} {ports : Ports} {pipes : PipeTable} {instruction : Instruction}
variable {port : Port} {value : Word}

/-- What arrives at a node is what it finds, and if the port is left open it is the first one. -/
theorem finds_of_arrival (arrives : node.arrival? ports pipes = some (port, value)) :
    ∃ instruction, node.Finds ports pipes instruction port value ∧
      (instruction.input = .target .any →
        ∀ other word, pipes.ReadyAt ports other word → port.index ≤ other.index) := by
  obtain ⟨earlier, later, split, ready, -⟩ :=
    PipeTable.firstArrival_eq_some_iff.1 (show _ = _ from arrives)
  have polled : port ∈ node.polled := split ▸ by simp
  obtain ⟨instruction, runs⟩ := exists_runs_of_mem_polled polled
  have first := arrives
  rw [runs.arrival?_eq] at first
  refine ⟨instruction, ⟨runs, ?addressed, ready⟩, ?first⟩
  case addressed =>
    obtain ⟨earlier, later, split, -⟩ := PipeTable.firstArrival_eq_some_iff.1 first
    exact Core.mem_polled_iff.1 (split ▸ by simp)
  case first =>
    intro open_ other word ready
    rw [open_] at first
    exact PipeTable.index_le_of_firstArrival first ready

/-- Something arrives at a node exactly when it finds a word, be it this one or another. -/
theorem arrival?_ne_none_iff :
    node.arrival? ports pipes ≠ none ↔
      ∃ instruction port value, node.Finds ports pipes instruction port value := by
  constructor
  · intro arrives
    obtain ⟨⟨port, value⟩, arrives⟩ := Option.ne_none_iff_exists'.1 arrives
    obtain ⟨instruction, finds, -⟩ := finds_of_arrival arrives
    exact ⟨instruction, port, value, finds⟩
  · rintro ⟨instruction, port, value, finds⟩ nothing
    rw [finds.runs.arrival?_eq, PipeTable.firstArrival_eq_none_iff] at nothing
    exact nothing port (Core.mem_polled_iff.2 finds.addressed) value finds.ready

/-! ## What becomes of it -/

/-- What an instruction does with the word that it has read, from the node that has read it to the
node after the step. -/
inductive Spends (reader : Node) (value : Word) : Instruction → Node → Prop where
  /-- It is combined with the accumulator. -/
  | operand (op : BinaryOp) (source : Operand) :
      Spends reader value (.binary op source)
        { reader with
          core :=
            { reader.core with
              registers.acc := op.apply reader.core.registers.acc value }.advance
          activity := .running }
  /-- It says how far to jump. -/
  | offset (source : Operand) :
      Spends reader value (.jumpRelative source)
        { reader with core := reader.core.jumpBy value, activity := .running }
  /-- It becomes the accumulator. -/
  | accumulator (source : Operand) :
      Spends reader value (.move source .acc)
        { reader with
          core := { reader.core with registers.acc := value }.advance
          activity := .running }
  /-- It is discarded, as is what is written to the last port before there is one. -/
  | discarded (source : Operand) {target : Target}
      (nowhere : target = .nil ∨ target = .last ∧ reader.core.registers.last = none) :
      Spends reader value (.move source target)
        { reader with core := reader.core.advance, activity := .running }
  /-- It is kept until it has gone out through a port. -/
  | kept (source : Operand) {target : Target} (leads : reader.core.Waits target) :
      Spends reader value (.move source target)
        { reader with activity := .waitingWrite ⟨value, target⟩ }

theorem Spends.last_eq {reader after : Node} (spends : reader.Spends value instruction after) :
    after.core.registers.last = reader.core.registers.last := by
  cases spends with
  | operand | accumulator | discarded | kept => rfl
  | offset source => exact reader.core.last_perform value (.jumpRelative source)

theorem Spends.not_waitingRead {reader after : Node}
    (spends : reader.Spends value instruction after) : after.activity ≠ .waitingRead := by
  cases spends <;> simp

/-- An instruction that takes its input from a port has a use for it. -/
theorem spends_resolve {core : Core} (addressed : core.Addresses instruction.input port)
    (reader : Node) (value : Word) :
    reader.Spends value instruction (reader.resolve instruction value) := by
  cases instruction with
  | complement | negate | save | swap => cases addressed
  | jump condition index => cases addressed
  | binary op source => exact .operand op source
  | jumpRelative source => exact .offset source
  | move source target =>
      cases target with
      | acc => exact .accumulator source
      | nil => exact .discarded source (.inl rfl)
      | port side => exact .kept source ⟨rfl, nofun⟩
      | any => exact .kept source ⟨rfl, nofun⟩
      | last =>
          unfold resolve Core.outgoing?
          cases last : reader.core.registers.last with
          | none => exact .discarded source (.inr ⟨rfl, last⟩)
          | some side => exact .kept source ⟨rfl, fun _ => by simp [last]⟩

/-- The node after a step that has claimed a word. -/
theorem Finds.after_eq (finds : node.Finds ports pipes instruction port value)
    (arrives : node.arrival? ports pipes = some (port, value)) :
    node.after ports pipes =
      resolve { node with core.registers.last := node.core.lastAfter instruction.input port }
        instruction value := by
  apply finds.runs.after_of_take_eq_some
  rw [arrives]
  exact Core.take_of_addresses finds.addressed value

/-- The pipe that a word has been claimed from keeps the claim, whatever is offered then. -/
theorem Finds.pipe?_pipesAfter (finds : node.Finds ports pipes instruction port value)
    (arrives : node.arrival? ports pipes = some (port, value)) {link : Link}
    (linked : ports.get port = some link) :
    (node.pipesAfter ports pipes).pipe? link.receive = some .claimed := by
  obtain ⟨_, same, ready⟩ := finds.ready
  cases linked.symm.trans same
  obtain ⟨taken, held, full⟩ := PipeTable.pipe?_eq_some_iff.1 ready
  have drawn : (pipes.draw ports (node.arrival? ports pipes)).get? link.receive =
      some { taken with pipe := .claimed } := by
    simp only [arrives, PipeTable.draw, PipeTable.claimAt, linked, Option.elim_some]
    rw [PipeTable.get?_claim held full, if_pos rfl]
  have stays : ∀ word shared, OpenPipe.offered { taken with pipe := .claimed } word shared =
      { taken with pipe := .claimed } := fun _ _ => rfl
  simp only [pipesAfter, finds.runs.delivery?_eq_none]
  rw [PipeTable.pipe?, get?_voice, drawn, Option.map_some, Option.map_some]
  cases (node.after ports pipes).offering? ports (pipes.draw ports (node.arrival? ports pipes))
      link.receive with
  | none => rfl
  | some write => rw [Option.elim_some, stays]

/-- A node comes to wait for a word only by a step that changes nothing else of it. -/
theorem eq_of_waitingRead {arrival : Option (Port × Word)} {delivery : Option Port}
    (waits : (node.next arrival delivery).activity = .waitingRead) :
    node.next arrival delivery = { node with activity := .waitingRead } ∧ node.pending? = none := by
  obtain ⟨core, activity, enabled⟩ := node
  cases enabled with
  | false =>
      cases (show activity = .waitingRead from waits)
      exact ⟨rfl, rfl⟩
  | true =>
      cases activity with
      | idle => cases waits
      | waitingWrite write => cases delivery <;> cases waits
      | running | waitingRead =>
          refine ⟨?_, rfl⟩
          simp only [next, if_true] at waits ⊢
          cases fetched : core.instruction? with
          | none => simp [fetched] at waits
          | some instruction =>
              simp only [fetched] at waits ⊢
              cases taken : core.take instruction.input arrival with
              | none => rfl
              | some result =>
                  simp only [taken, resolve] at waits
                  cases out : result.2.outgoing? result.1 instruction <;> simp [out] at waits

/-- A word that a step has claimed, at a port, and what it was claimed for. -/
structure Uses (node : Node) (ports : Ports) (pipes : PipeTable) (instruction : Instruction)
    (port : Port) (value : Word) (after : Node) (left : PipeTable) : Prop where
  finds : node.Finds ports pipes instruction port value
  /-- If the choice of the port was open, no port before it had a word. -/
  first : instruction.input = .target .any →
    ∀ other word, pipes.ReadyAt ports other word → port.index ≤ other.index
  /-- If the choice of the port was open, it is the last port from now on. -/
  last : after.core.registers.last =
    if instruction.input = .target .any then some port else node.core.registers.last
  spends : Spends { node with core.registers.last := after.core.registers.last } value
    instruction after
  /-- The claim stays in the pipe for the writer to see. -/
  claimed : ∀ link, ports.get port = some link → left.pipe? link.receive = some .claimed

/-- What has arrived at a node is used by the step. -/
theorem uses_of_arrival (arrives : node.arrival? ports pipes = some (port, value)) :
    ∃ instruction, node.Uses ports pipes instruction port value (node.after ports pipes)
      (node.pipesAfter ports pipes) := by
  obtain ⟨instruction, finds, first⟩ := finds_of_arrival arrives
  have spends := spends_resolve finds.addressed
    { node with core.registers.last := node.core.lastAfter instruction.input port } value
  rw [← finds.after_eq arrives] at spends
  have last : (node.after ports pipes).core.registers.last =
      node.core.lastAfter instruction.input port := spends.last_eq
  rw [← last] at spends
  exact ⟨instruction, finds, first, last, spends, fun link => finds.pipe?_pipesAfter arrives⟩

/-- A step after which a node waits for a word has only looked for it. -/
theorem unchanged_of_waitingRead (waits : (node.after ports pipes).activity = .waitingRead) :
    node.after ports pipes = { node with activity := .waitingRead } ∧
      (node.after ports pipes).pending? = node.pending? ∧ node.pipesAfter ports pipes = pipes := by
  obtain ⟨same, free⟩ : node.after ports pipes = { node with activity := .waitingRead } ∧ _ :=
    eq_of_waitingRead waits
  have nothing : node.arrival? ports pipes = none := by
    refine Option.eq_none_iff_forall_not_mem.2 fun arrival arrives => ?_
    obtain ⟨instruction, uses⟩ := uses_of_arrival arrives
    exact uses.spends.not_waitingRead waits
  have unasked : node.delivery? ports pipes = none := by
    refine if_neg fun asks => ?_
    cases activity : node.activity <;> simp [activity, Activity.status, pending?] at asks free
  refine ⟨same, ?pending, ?untouched⟩
  case pending => rw [same, free, pending?]
  case untouched =>
    simp only [pipesAfter, unasked, nothing, same]
    rfl

/-- What a node claims in one step, told by the calls that it makes on its ports. -/
structure ClaimsOnce (node : Node) (ports : Ports) (pipes : PipeTable) (after : Node)
    (heard : Overheard PortBus) : Prop where
  /-- Writing the calls down has changed nothing. -/
  unheard : node.step (⟨ports, pipes⟩ : PortBus) = (after, heard.bus)
  once : heard.claims.length ≤ 1
  claims_iff : heard.claims ≠ [] ↔
    ∃ instruction port value, node.Finds ports pipes instruction port value
  used : ∀ port value, (port, value) ∈ heard.claims →
    ∃ instruction, node.Uses ports pipes instruction port value after heard.bus.pipes
  /-- A node that waits for a word has only looked for it. -/
  waiting : after.activity = .waitingRead →
    after = { node with activity := .waitingRead } ∧ after.pending? = node.pending? ∧
      heard.bus.pipes = pipes

/-- Whatever a node is about to do, and however its ports are linked to pipes, one step claims at
most one word; it claims one if and only if it reads from a port where one is ready, and it has put
the word to its use when it ends. -/
theorem step_claims_once (node : Node) (ports : Ports) (pipes : PipeTable) :
    let stepped := node.step (Overheard.quiet (⟨ports, pipes⟩ : PortBus))
    node.ClaimsOnce ports pipes stepped.1 stepped.2 := by
  intro stepped
  obtain ⟨same, grown⟩ := node.step_heard (.quiet (⟨ports, pipes⟩ : PortBus))
  have after : stepped.1 = node.after ports pipes := by
    rw [same, Overheard.bus_quiet, step_mk]
  have bus : stepped.2.bus = ⟨ports, node.pipesAfter ports pipes⟩ := by
    rw [grown.bus, Overheard.bus_quiet, step_mk]
  have claims : stepped.2.claims = (node.arrival? ports pipes).toList := by
    rw [grown.claims, Overheard.claims_quiet, Overheard.bus_quiet, List.nil_append,
      PortBus.claimFirst_mk, arrival?]
  refine ⟨?unheard, ?once, ?iff, ?used, ?waiting⟩
  case unheard => rw [step_mk, after, bus]
  case once =>
    rw [claims]
    cases node.arrival? ports pipes <;> simp
  case iff => rw [claims, Ne, Option.toList_eq_nil_iff, ← Ne, arrival?_ne_none_iff]
  case used =>
    intro port value member
    rw [claims, Option.mem_toList] at member
    rw [after, bus]
    exact uses_of_arrival member
  case waiting =>
    rw [after, bus]
    exact unchanged_of_waitingRead

/-- Of the words at two ports the node takes the one that it comes to first, and offers it on. -/
example :
    let node : Node :=
      ⟨⟨⟨[⟨.move (.target .any) (.port .right), 0⟩], []⟩, [], .initial⟩, .waitingRead, true⟩
    let ports : Ports := ⟨none, none, some ⟨⟨0⟩, ⟨1⟩, ⟨1, 0⟩⟩, some ⟨⟨2⟩, ⟨3⟩, ⟨2, 0⟩⟩⟩
    let pipes : PipeTable :=
      ⟨#[none, some ⟨.ready 4, ⟨1, 0⟩, false⟩, none, some ⟨.ready 5, ⟨2, 0⟩, false⟩], []⟩
    (node.step (Overheard.quiet (⟨ports, pipes⟩ : PortBus))).2.exchanges =
      [.claim .left none, .claim .right none, .claim .up (some 4), .offer .right 4 false] := by
  decide +kernel

end Node

end NodeGrid
