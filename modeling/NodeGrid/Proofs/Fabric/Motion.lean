import NodeGrid.Proofs.Fabric.Relay

/-!
# How an action moves words

Whatever a module does, each pipe stays as it is, is emptied, is marked as claimed, or is given a new
word.  Only the pipe that the module takes a word from is marked, only a word that the module writes
or passes on is put into a pipe, and a mark stays until the end of the tick.  None of this depends on
how the fabric is linked.
-/

namespace NodeGrid

/-- What an action may make of a pipe, where `drawn` says that the actor takes the word of the pipe
and `puts` which words it puts there. -/
inductive Pipe.Moves (drawn : Prop) (puts : Word → Prop) : Pipe → Pipe → Prop where
  | stay (pipe : Pipe) : Moves drawn puts pipe pipe
  | leave {pipe : Pipe} (unmarked : pipe ≠ .claimed) : Moves drawn puts pipe .empty
  | take (value : Word) (draws : drawn) : Moves drawn puts (.ready value) .claimed
  | put {pipe : Pipe} (unmarked : pipe ≠ .claimed) {value : Word} (offers : puts value) :
      Moves drawn puts pipe (.pending value)

namespace Pipe.Moves

variable {drawn : Prop} {puts : Word → Prop} {first second third : Pipe}

theorem trans (one : Moves drawn puts first second) (two : Moves drawn puts second third) :
    Moves drawn puts first third := by
  cases one with
  | stay => exact two
  | leave unmarked =>
      cases two with
      | stay | leave => exact .leave unmarked
      | put _ offers => exact .put unmarked offers
  | take value draws =>
      -- Nothing but staying is possible once a pipe is marked.
      cases two with
      | stay => exact .take value draws
      | leave marked | put marked => exact absurd rfl marked
  | put unmarked offers =>
      cases two with
      | stay => exact .put unmarked offers
      | leave => exact .leave unmarked
      | put _ later => exact .put unmarked later

theorem mono {drawn' : Prop} {puts' : Word → Prop} (moves : Moves drawn puts first second)
    (draws : drawn → drawn') (offers : ∀ value, puts value → puts' value) :
    Moves drawn' puts' first second := by
  cases moves with
  | stay => exact .stay _
  | leave unmarked => exact .leave unmarked
  | take value taken => exact .take value (draws taken)
  | put unmarked offered => exact .put unmarked (offers _ offered)

/-- What is ready after an action was ready before. -/
theorem eq_of_ready (moves : Moves drawn puts first second) {value : Word}
    (ready : second = .ready value) : first = .ready value := by
  cases moves with
  | stay => exact ready
  | leave | take | put => cases ready

theorem claimed (moves : Moves drawn puts first second) (marked : first = .claimed) :
    second = .claimed := by
  cases moves with
  | stay => exact marked
  | leave unmarked | put unmarked => exact absurd marked unmarked
  | take => rfl

end Pipe.Moves

namespace OpenPipe

variable (drawn : Prop) (puts : Word → Prop)

theorem moves_acknowledged (entry : OpenPipe) :
    Pipe.Moves drawn puts entry.pipe entry.acknowledged.pipe := by
  rw [acknowledged_pipe, Pipe.acknowledged]
  split
  next known => exact .leave (by simp [known])
  next => exact .stay _

theorem moves_withdrawn (entry : OpenPipe) :
    Pipe.Moves drawn puts entry.pipe entry.withdrawn.pipe := by
  unfold withdrawn
  cases entry.pipe with
  | pending value | ready value => exact .leave nofun
  | empty | claimed | delivered => exact .stay _

theorem moves_bereft (entry taken : OpenPipe) :
    Pipe.Moves drawn puts entry.pipe (entry.bereft taken).pipe := by
  unfold bereft
  split
  next => exact entry.moves_withdrawn drawn puts
  next => exact .stay _

variable {puts} in
theorem moves_offered (entry : OpenPipe) {value : Word} (offers : puts value) (shared : Bool) :
    Pipe.Moves drawn puts entry.pipe (entry.offered value shared).pipe := by
  rw [offered_pipe]
  split
  next free => exact .put (by simp [free]) offers
  next => exact .stay _

@[simp] theorem bereft_writer (entry taken : OpenPipe) :
    (entry.bereft taken).writer = entry.writer := by
  unfold bereft
  split <;> rfl

end OpenPipe

namespace PipeTable

/-- What an action may make of a table, pipe by pipe. -/
def Moves (drawn : PipeId → Prop) (puts : PipeId → Word → Prop) (before after : PipeTable) : Prop :=
  ∀ id later, after.get? id = some later → ∃ entry, before.get? id = some entry ∧
    later.writer = entry.writer ∧ Pipe.Moves (drawn id) (puts id) entry.pipe later.pipe

namespace Moves

variable {drawn : PipeId → Prop} {puts : PipeId → Word → Prop} {before middle after : PipeTable}

theorem refl (table : PipeTable) : Moves drawn puts table table :=
  fun _ later found => ⟨later, found, rfl, .stay _⟩

theorem trans (one : Moves drawn puts before middle) (two : Moves drawn puts middle after) :
    Moves drawn puts before after := by
  intro id later found
  obtain ⟨between, opened, sameLater, second⟩ := two id later found
  obtain ⟨entry, earlier, same, first⟩ := one id between opened
  exact ⟨entry, earlier, sameLater.trans same, first.trans second⟩

theorem mono {drawn' : PipeId → Prop} {puts' : PipeId → Word → Prop}
    (moves : Moves drawn puts before after) (draws : ∀ id, drawn id → drawn' id)
    (offers : ∀ id value, puts id value → puts' id value) : Moves drawn' puts' before after := by
  intro id later found
  obtain ⟨entry, opened, writer, moved⟩ := moves id later found
  exact ⟨entry, opened, writer, moved.mono (draws id) (offers id)⟩

/-- A pipe that is marked stays marked. -/
theorem claimed (moves : Moves drawn puts before after)
    (alike : Alike before after) {id : PipeId} (marked : before.pipe? id = some .claimed) :
    after.pipe? id = some .claimed := by
  obtain ⟨entry, opened, holds⟩ := pipe?_eq_some_iff.1 marked
  obtain ⟨later, now, -⟩ := alike.exists_get? opened
  obtain ⟨earlier, found, -, moved⟩ := moves id later now
  cases opened.symm.trans found
  exact pipe?_eq_some_iff.2 ⟨later, now, moved.claimed holds⟩

/-- A change of the entries, one by one, that keeps the writers. -/
theorem of_map (change : PipeId → OpenPipe → OpenPipe)
    (changes : ∀ id, after.get? id = (before.get? id).map (change id))
    (writer : ∀ id entry, (change id entry).writer = entry.writer)
    (moves : ∀ id entry, before.get? id = some entry →
      Pipe.Moves (drawn id) (puts id) entry.pipe (change id entry).pipe) :
    Moves drawn puts before after := by
  intro id later found
  rw [changes] at found
  obtain ⟨entry, opened, rfl⟩ := Option.map_eq_some_iff.1 found
  exact ⟨entry, opened, writer id entry, moves id entry opened⟩

/-- A change of one entry. -/
theorem of_single {id : PipeId} (change : OpenPipe → OpenPipe)
    (changes : ∀ other, after.get? other =
      if other = id then (before.get? id).map change else before.get? other)
    (writer : ∀ entry, (change entry).writer = entry.writer)
    (moves : ∀ entry, Pipe.Moves (drawn id) (puts id) entry.pipe (change entry).pipe) :
    Moves drawn puts before after := by
  intro other later found
  rw [changes] at found
  by_cases same : other = id
  · subst same
    rw [if_pos rfl] at found
    obtain ⟨entry, opened, rfl⟩ := Option.map_eq_some_iff.1 found
    exact ⟨entry, opened, writer entry, moves entry⟩
  · rw [if_neg same] at found
    exact ⟨later, found, rfl, .stay _⟩

theorem acknowledge (table : PipeTable) (id : PipeId) :
    Moves drawn puts table (table.acknowledge id).2 :=
  of_single (·.acknowledged) (get?_acknowledge table id) (fun entry => entry.acknowledged_writer)
    fun entry => entry.moves_acknowledged _ _

theorem offer (table : PipeTable) {id : PipeId} {value : Word} (offers : puts id value)
    (shared : Bool) : Moves drawn puts table (table.offer id value shared).2 :=
  of_single (·.offered value shared) (fun other => get?_offer table id other value shared)
    (fun entry => entry.offered_writer value shared) fun entry => entry.moves_offered _ offers _

theorem withdrawAll (table : PipeTable) (links : List Link) :
    Moves drawn puts table (table.withdrawAll links) := by
  refine of_map (fun id entry => if id ∈ links.map (·.send) then entry.withdrawn else entry)
    ?changes ?writer ?moves
  case changes =>
    intro id
    rw [get?_withdrawAll]
    split <;> simp
  case writer =>
    intro id entry
    split <;> rfl
  case moves =>
    intro id entry _
    split
    next => exact entry.moves_withdrawn _ _
    next => exact .stay _

theorem claim (table : PipeTable) {id : PipeId} (draws : drawn id) :
    Moves drawn puts table (table.claim id).2 := by
  cases word : (table.pipe? id).bind (·.peek?) with
  | none =>
      rw [claim_eq_of_peek_none word]
      exact refl table
  | some value =>
      obtain ⟨taken, found, ready⟩ := pipe?_eq_some_iff.1 (peek?_eq_some_iff.1 word)
      refine of_map (fun other entry =>
        if other = id then { entry with pipe := .claimed } else entry.bereft taken)
        ?changes ?writer ?moves
      case changes =>
        intro other
        rw [get?_claim found ready]
        by_cases same : other = id
        · simp [same, found]
        · simp [same]
      case writer =>
        intro other entry
        split
        next => rfl
        next => exact entry.bereft_writer taken
      case moves =>
        intro other entry opened
        split
        next same =>
          subst same
          cases found.symm.trans opened
          rw [ready]
          exact .take value draws
        next => exact entry.moves_bereft _ _ taken

end Moves

/-- A claim marks its pipe. -/
theorem pipe?_claim {table : PipeTable} {id : PipeId} {value : Word}
    (ready : table.pipe? id = some (.ready value)) :
    (table.claim id).2.pipe? id = some .claimed := by
  obtain ⟨taken, found, holds⟩ := pipe?_eq_some_iff.1 ready
  rw [pipe?, get?_claim found holds, if_pos rfl, Option.map_some]

end PipeTable

/-- What a half passes on is the word that is ready in front of it, however its pipes are laid. -/
theorem Forwarder.pipe?_of_passed {pipes : PipeTable} {own : Link} {onward : Option Link}
    {value : Word} (passes : passed? pipes own onward = some value) :
    pipes.pipe? own.receive = some (.ready value) := by
  obtain ⟨target, -, passes⟩ := Option.bind_eq_some_iff.1 (show _ = _ from passes)
  obtain ⟨-, passes⟩ := Option.ite_none_right_eq_some.1 passes
  obtain ⟨later, opened, ready⟩ :=
    PipeTable.pipe?_eq_some_iff.1 (PipeTable.peek?_eq_some_iff.1 passes)
  -- An acknowledgement makes nothing ready.
  have moves : PipeTable.Moves (fun _ => False) (fun _ _ => False) pipes
      (pipes.acknowledge own.send).2 := .acknowledge pipes own.send
  obtain ⟨entry, earlier, -, moved⟩ := moves _ _ opened
  exact PipeTable.pipe?_eq_some_iff.2 ⟨entry, earlier, moved.eq_of_ready ready⟩

/-- A half that passes on a word marks the pipe in front of it. -/
theorem Forwarder.claimed_of_passed {pipes : PipeTable} {own target : Link} {value : Word}
    (passes : passed? pipes own (some target) = some value) :
    (relay pipes own (some target)).2.pipe? own.receive = some .claimed := by
  rw [relay_of_passed passes]
  obtain ⟨-, peeked⟩ := Option.ite_none_right_eq_some.1 (show _ = _ from passes)
  have marked := PipeTable.pipe?_claim (PipeTable.peek?_eq_some_iff.1 peeked)
  generalize ((pipes.acknowledge own.send).2.claim own.receive).2 = claimed at marked ⊢
  have moves : PipeTable.Moves (fun _ => False) (fun _ _ => True) claimed
      (claimed.offer target.send value false).2 := .offer claimed trivial false
  exact moves.claimed (.offer _ _ _ _) marked

/-- The node puts this word into this pipe if it writes at all: the word is what it waits to write
after its step, and the pipe is one of its own. -/
def Node.Puts (node : Node) (ports : Ports) (pipes : PipeTable) (id : PipeId) (value : Word) :
    Prop :=
  ∃ write, (node.after ports pipes).activity = .waitingWrite write ∧ write.value = value ∧
    ∃ port, ports.sendAt port = some id

/-- Giving voice to a write puts nothing but its word into pipes of the node. -/
theorem Node.moves_voice (node : Node) (ports : Ports) (pipes before : PipeTable)
    (drawn : PipeId → Prop) :
    PipeTable.Moves drawn (node.Puts ports before) pipes
      ((node.after ports before).voice ports pipes) := by
  refine .of_map _ (get?_voice _ _ _) ?writer ?moves
  case writer =>
    intro id entry
    cases (node.after ports before).offering? ports pipes id with
    | none => rfl
    | some write => exact entry.offered_writer _ _
  case moves =>
    intro id entry _
    cases offers : (node.after ports before).offering? ports pipes id with
    | none => exact .stay _
    | some write =>
        obtain ⟨waits, -, reached, -⟩ := offering?_eq_some_iff.1 offers
        obtain ⟨port, -, sends⟩ := List.mem_filterMap.1 reached
        exact entry.moves_offered _ ⟨write, waits, rfl, port, sends⟩ _

theorem Node.moves_pipesAfter (node : Node) (ports : Ports) (pipes : PipeTable) :
    PipeTable.Moves (fun id => node.drawn? ports pipes = some id) (node.Puts ports pipes) pipes
      (node.pipesAfter ports pipes) := by
  unfold pipesAfter
  cases node.delivery? ports pipes with
  | some port =>
      refine .trans ?_ (.withdrawAll _ _)
      unfold PipeTable.acknowledgeAt
      cases ports.get port with
      | none => exact .refl pipes
      | some link => exact .acknowledge pipes link.send
  | none =>
      refine .trans ?_ (node.moves_voice ports _ pipes _)
      rw [Node.draw_arrival?]
      cases draws : node.drawn? ports pipes with
      | none => exact .refl pipes
      | some id => exact .claim pipes rfl

namespace Fabric

/-- The module puts this word into this pipe if it puts one there: a node what it waits to write,
into a pipe of its own, and a half what it takes from the node in front of it, into the pipe
onward. -/
inductive Puts (fabric : Fabric) (handle : Handle) (id : PipeId) (value : Word) : Prop where
  | write {ports : Ports} {node : Node}
      (found : fabric.modules.get? handle = some ⟨ports, .node node⟩)
      (puts : node.Puts ports fabric.pipes id value)
  | pass {own target : Link} (course : fabric.course? handle = some (own, some target))
      (passes : Forwarder.passed? fabric.pipes own (some target) = some value)
      (onward : target.send = id)

theorem moves_relayed {fabric : Fabric} {handle : Handle} {ports : Ports} {half : Forwarder}
    (found : fabric.modules.get? handle = some ⟨ports, .forwarder half⟩) :
    PipeTable.Moves (fun id => fabric.drawn? handle = some id) (fabric.Puts handle) fabric.pipes
      (fabric.relayed handle) := by
  have drawn := drawn?_forwarder found
  unfold relayed
  cases course : fabric.course? handle with
  | none => exact .refl fabric.pipes
  | some ends =>
      obtain ⟨own, onward⟩ := ends
      rw [course, Option.bind_some] at drawn
      simp only [Option.elim_some]
      cases passes : Forwarder.passed? fabric.pipes own onward with
      | none =>
          rw [Forwarder.relay_of_not_passed passes]
          exact .acknowledge _ _
      | some value =>
          rw [passes] at drawn
          cases onward with
          | none => cases passes
          | some target =>
              rw [Forwarder.relay_of_passed passes]
              exact ((PipeTable.Moves.acknowledge _ _).trans (.claim _ drawn)).trans
                (.offer _ (.pass course passes rfl) false)

/-- What an action does to the pipes. -/
theorem moves_stepModule (fabric : Fabric) (handle : Handle) :
    PipeTable.Moves (fun id => fabric.drawn? handle = some id) (fabric.Puts handle) fabric.pipes
      (fabric.stepModule handle).pipes := by
  cases found : fabric.modules.get? handle with
  | none =>
      rw [stepModule_missing found]
      exact .refl fabric.pipes
  | some member =>
      cases member with
      | mk ports role =>
          cases role with
          | node node =>
              rw [pipes_stepModule_node found]
              refine (node.moves_pipesAfter ports fabric.pipes).mono ?_ fun id value => .write found
              intro id draws
              rwa [drawn?_node found]
          | forwarder half =>
              rw [pipes_stepModule_forwarder found]
              exact moves_relayed found

/-- A module takes only a word that is ready, however the fabric is linked. -/
theorem ready_of_drawn {fabric : Fabric} {handle : Handle} {id : PipeId}
    (draws : fabric.drawn? handle = some id) :
    ∃ value, fabric.pipes.pipe? id = some (.ready value) := by
  obtain ⟨member, -, takes⟩ := Option.bind_eq_some_iff.1 draws
  cases member with
  | mk ports role =>
      cases role with
      | node node =>
          obtain ⟨_, value, _, taken, -, -, -, -, opened, ready⟩ := Node.ready_of_drawn takes
          exact ⟨value, PipeTable.pipe?_eq_some_iff.2 ⟨taken, opened, ready⟩⟩
      | forwarder half =>
          obtain ⟨course, -, passes⟩ := Option.bind_eq_some_iff.1 takes
          obtain ⟨value, passed, rfl⟩ := Option.map_eq_some_iff.1 passes
          exact ⟨value, Forwarder.pipe?_of_passed passed⟩

/-- The pipe that a module takes a word from is marked. -/
theorem claimed_of_drawn {fabric : Fabric} {handle : Handle} {id : PipeId}
    (draws : fabric.drawn? handle = some id) :
    (fabric.stepModule handle).pipes.pipe? id = some .claimed := by
  obtain ⟨member, found, takes⟩ := Option.bind_eq_some_iff.1 draws
  cases member with
  | mk ports role =>
      cases role with
      | node node =>
          obtain ⟨value, ready⟩ := ready_of_drawn draws
          have undelivered : node.delivery? ports fabric.pipes = none := by
            refine Option.eq_none_iff_forall_not_mem.2 fun port delivers => ?_
            cases (Node.drawn?_of_delivery delivers).symm.trans takes
          have marked := PipeTable.pipe?_claim ready
          rw [pipes_stepModule_node found, Node.pipesAfter, undelivered]
          simp only [Node.draw_arrival?, show node.drawn? ports fabric.pipes = some id from takes,
            Option.elim_some]
          exact (node.moves_voice ports _ fabric.pipes fun _ => False).claimed
            (Node.alike_voice _ _ _) marked
      | forwarder half =>
          obtain ⟨⟨own, onward⟩, course, passes⟩ := Option.bind_eq_some_iff.1 takes
          obtain ⟨value, passed, rfl⟩ := Option.map_eq_some_iff.1 passes
          rw [pipes_stepModule_forwarder found, relayed, course, Option.elim_some]
          cases onward with
          | none => cases passed
          | some target => exact Forwarder.claimed_of_passed passed

end Fabric

end NodeGrid
