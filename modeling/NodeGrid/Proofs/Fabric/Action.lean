import NodeGrid.Fabric.Tick
import NodeGrid.Proofs.Fabric.Coherence

/-!
# One module acts

In the first phase a module takes at most one word, and all that it does to the pipes of another
node is to take this word and every copy of it.  What it does to its own pipes depends on whether it
finds a claim of its own word there.  From these two laws a fabric is coherent after every action.
-/

namespace NodeGrid

namespace Forwarder

/-- The word that a half passes on. -/
def passed? (pipes : PipeTable) (own : Link) (onward : Option Link) : Option Word :=
  onward.bind fun target =>
    if (pipes.acknowledge own.send).2.isEmpty target.send then
      ((pipes.acknowledge own.send).2.pipe? own.receive).bind (·.peek?)
    else none

theorem relay_eq_of_passed {pipes : PipeTable} {own target : Link} {value : Word}
    (passes : passed? pipes own (some target) = some value) :
    relay pipes own (some target) =
      ((pipes.acknowledge own.send).2.claim own.receive).2.offer target.send value false := by
  simp only [passed?, Option.bind_some] at passes
  rw [← PipeTable.claim_fst] at passes
  unfold relay
  cases room : (pipes.acknowledge own.send).2.isEmpty target.send with
  | false => simp [room] at passes
  | true =>
      simp only [room, if_true] at passes ⊢
      cases claim : (pipes.acknowledge own.send).2.claim own.receive with
      | mk claimed after =>
          rw [claim] at passes
          rw [show claimed = some value from passes]

theorem relay_of_passed {pipes : PipeTable} {own target : Link} {value : Word}
    (passes : passed? pipes own (some target) = some value) :
    (relay pipes own (some target)).2 =
      (((pipes.acknowledge own.send).2.claim own.receive).2.offer target.send value false).2 :=
  congrArg Prod.snd (relay_eq_of_passed passes)

theorem relay_eq_of_not_passed {pipes : PipeTable} {own : Link} {onward : Option Link}
    (stays : passed? pipes own onward = none) :
    relay pipes own onward = (false, (pipes.acknowledge own.send).2) := by
  unfold relay
  cases onward with
  | none => rfl
  | some target =>
      simp only [passed?, Option.bind_some] at stays
      rw [← PipeTable.claim_fst] at stays
      cases room : (pipes.acknowledge own.send).2.isEmpty target.send with
      | false => simp [room]
      | true =>
          simp only [room, if_true] at stays ⊢
          cases claim : (pipes.acknowledge own.send).2.claim own.receive with
          | mk claimed after =>
              rw [claim] at stays
              rw [show claimed = none from stays]

theorem relay_of_not_passed {pipes : PipeTable} {own : Link} {onward : Option Link}
    (stays : passed? pipes own onward = none) :
    (relay pipes own onward).2 = (pipes.acknowledge own.send).2 := by
  rw [relay_eq_of_not_passed stays]

/-- What a half passes on is the word that is ready in front of it. -/
theorem ready_of_passed {pipes : PipeTable} {own : Link} {onward : Option Link} {value : Word}
    (apart : own.send ≠ own.receive) (passes : passed? pipes own onward = some value) :
    ∃ taken, pipes.get? own.receive = some taken ∧ taken.pipe = .ready value := by
  cases onward with
  | none => simp [passed?] at passes
  | some target =>
      simp only [passed?, Option.bind_some] at passes
      split at passes
      next =>
        rw [PipeTable.pipe?, PipeTable.get?_acknowledge_of_ne _ apart.symm] at passes
        cases found : pipes.get? own.receive with
        | none => simp [found] at passes
        | some taken =>
            rw [found] at passes
            exact ⟨taken, rfl, Pipe.peek?_eq_some_iff.1 passes⟩
      next => simp at passes

theorem alike_relay (pipes : PipeTable) (own : Link) (onward : Option Link) :
    PipeTable.Alike pipes (relay pipes own onward).2 := by
  have acknowledged := PipeTable.Alike.acknowledge pipes own.send
  cases passes : passed? pipes own onward with
  | none =>
      rw [relay_of_not_passed passes]
      exact acknowledged
  | some value =>
      cases onward with
      | none => simp [passed?] at passes
      | some target =>
          rw [relay_of_passed passes]
          exact (acknowledged.trans (.claim _ _)).trans (.offer _ _ _ _)

end Forwarder

namespace Node

theorem alike_voice (node : Node) (ports : Ports) (pipes : PipeTable) :
    PipeTable.Alike pipes (node.voice ports pipes) := by
  have offer : ∀ port value,
      PipeTable.Alike pipes (Bus.offer (⟨ports, pipes⟩ : PortBus) port value).2.pipes := by
    intro port value
    change PipeTable.Alike pipes (PortBus.offer _ _ _).2.pipes
    unfold PortBus.offer
    cases ports.get port with
    | none => exact .refl pipes
    | some link => exact .offer pipes link.send value false
  unfold voice
  cases node.activity with
  | idle | running | waitingRead => exact .refl pipes
  | waitingWrite write =>
      dsimp only
      split
      next =>
        unfold Core.offerOn Core.offer
        cases write.target with
        | port port => exact offer port write.value
        | any =>
            change PipeTable.Alike pipes (PortBus.offerAny _ _).2.pipes
            unfold PortBus.offerAny
            split
            next => exact .refl pipes
            next => exact .offerShared pipes write.value ports.links
        | last =>
            dsimp only
            cases node.core.registers.last with
            | none => exact .refl pipes
            | some port => exact offer port write.value
        | acc | nil => exact .refl pipes
      next => exact .refl pipes

theorem alike_pipesAfter (node : Node) (ports : Ports) (pipes : PipeTable) :
    PipeTable.Alike pipes (node.pipesAfter ports pipes) := by
  unfold pipesAfter
  cases node.delivery? ports pipes with
  | some port =>
      refine .trans ?_ (.withdrawAll _ _)
      unfold PipeTable.acknowledgeAt
      cases ports.get port with
      | none => exact .refl pipes
      | some link => exact .acknowledge pipes link.send
  | none =>
      refine .trans ?_ (alike_voice _ _ _)
      cases node.arrival? ports pipes with
      | none => exact .refl pipes
      | some arrival =>
          change PipeTable.Alike pipes (pipes.claimAt ports arrival.1)
          unfold PipeTable.claimAt
          cases ports.get arrival.1 with
          | none => exact .refl pipes
          | some link => exact .claim pipes link.receive

end Node

namespace Fabric

theorem stepModule_node {fabric : Fabric} {handle : Handle} {ports : Ports} {node : Node}
    (found : fabric.modules.get? handle = some ⟨ports, .node node⟩) :
    fabric.stepModule handle =
      { fabric with pipes := node.pipesAfter ports fabric.pipes }.setRole handle
        (.node (node.after ports fabric.pipes)) := by
  simp only [stepModule, found, stepNode, Node.step_mk]

/-- The link of a half to its node, and the link of its sibling. -/
def course? (fabric : Fabric) (handle : Handle) : Option (Link × Option Link) :=
  (fabric.modules.get? handle).bind fun member =>
    match member.role with
    | .node _ => none
    | .forwarder half =>
        member.firstLink?.map fun own => (own, half.sibling.bind fabric.forwarderLink?)

/-- The pipes after a half has acted. -/
def relayed (fabric : Fabric) (handle : Handle) : PipeTable :=
  (fabric.course? handle).elim fabric.pipes fun course =>
    (Forwarder.relay fabric.pipes course.1 course.2).2

/-- A half that acts may forget its sibling. -/
theorem stepModule_forwarder {fabric : Fabric} {handle : Handle} {ports : Ports} {half : Forwarder}
    (found : fabric.modules.get? handle = some ⟨ports, .forwarder half⟩) :
    fabric.stepModule handle = { fabric with pipes := fabric.relayed handle } ∨
      fabric.stepModule handle =
        { fabric with pipes := fabric.relayed handle }.setRole handle (.forwarder .unpaired) := by
  simp only [stepModule, relayed, course?, found, Option.bind_some]
  cases Module.firstLink? ⟨ports, .forwarder half⟩ with
  | none => exact .inl rfl
  | some own =>
      simp only [stepForwarder, Option.map_some, Option.elim_some]
      split
      next => exact .inr rfl
      next => exact .inl rfl

theorem stepModule_missing {fabric : Fabric} {handle : Handle}
    (missing : fabric.modules.get? handle = none) : fabric.stepModule handle = fabric := by
  simp only [stepModule, missing]

/-- The pipes after a module has acted. -/
theorem pipes_stepModule_node {fabric : Fabric} {handle : Handle} {ports : Ports} {node : Node}
    (found : fabric.modules.get? handle = some ⟨ports, .node node⟩) :
    (fabric.stepModule handle).pipes = node.pipesAfter ports fabric.pipes := by
  rw [stepModule_node found]
  rfl

theorem pipes_stepModule_forwarder {fabric : Fabric} {handle : Handle} {ports : Ports}
    {half : Forwarder} (found : fabric.modules.get? handle = some ⟨ports, .forwarder half⟩) :
    (fabric.stepModule handle).pipes = fabric.relayed handle := by
  rcases stepModule_forwarder found with same | forgot
  · rw [same]
  · rw [forgot]
    rfl

theorem alike_stepModule (fabric : Fabric) (handle : Handle) :
    PipeTable.Alike fabric.pipes (fabric.stepModule handle).pipes := by
  cases found : fabric.modules.get? handle with
  | none =>
      rw [stepModule_missing found]
      exact .refl _
  | some member =>
      cases member with
      | mk ports role =>
          cases role with
          | node node =>
              rw [pipes_stepModule_node found]
              exact node.alike_pipesAfter ports fabric.pipes
          | forwarder half =>
              rw [pipes_stepModule_forwarder found]
              unfold relayed
              cases fabric.course? handle with
              | none => exact .refl _
              | some course => exact Forwarder.alike_relay fabric.pipes course.1 course.2

@[simp] theorem link?_stepModule (fabric : Fabric) (handle other : Handle) (port : Port) :
    (fabric.stepModule handle).link? other port = fabric.link? other port := by
  cases found : fabric.modules.get? handle with
  | none => rw [stepModule_missing found]
  | some member =>
      cases member with
      | mk ports role =>
          cases role with
          | node node =>
              rw [stepModule_node found, link?_setRole]
              rfl
          | forwarder half =>
              rcases stepModule_forwarder found with same | forgot
              · rw [same]
                rfl
              · rw [forgot, link?_setRole]
                rfl

theorem role?_stepModule_of_ne {fabric : Fabric} {handle other : Handle} (different : other ≠ handle) :
    (fabric.stepModule handle).role? other = fabric.role? other := by
  cases found : fabric.modules.get? handle with
  | none => rw [stepModule_missing found]
  | some member =>
      cases member with
      | mk ports role =>
          cases role with
          | node node =>
              rw [stepModule_node found, role?_setRole, if_neg different]
              rfl
          | forwarder half =>
              rcases stepModule_forwarder found with same | forgot
              · rw [same]
                rfl
              · rw [forgot, role?_setRole, if_neg different]
                rfl

theorem stepModules_cons (fabric : Fabric) (handle : Handle) (rest : List Handle) :
    fabric.stepModules (handle :: rest) = (fabric.stepModule handle).stepModules rest := rfl

theorem stepModules_append (fabric : Fabric) (earlier rest : List Handle) :
    fabric.stepModules (earlier ++ rest) = (fabric.stepModules earlier).stepModules rest :=
  List.foldl_append

/-- A module that does not act stays what it is. -/
theorem role?_stepModules_of_notMem {fabric : Fabric} {handles : List Handle} {handle : Handle}
    (idle : handle ∉ handles) :
    (fabric.stepModules handles).role? handle = fabric.role? handle := by
  induction handles generalizing fabric with
  | nil => rfl
  | cons next rest ih =>
      rw [List.mem_cons, not_or] at idle
      exact (ih idle.2).trans (role?_stepModule_of_ne idle.1)

theorem role?_stepModule_node {fabric : Fabric} {handle : Handle} {ports : Ports} {node : Node}
    (found : fabric.modules.get? handle = some ⟨ports, .node node⟩) :
    (fabric.stepModule handle).role? handle = some (.node (node.after ports fabric.pipes)) := by
  rw [stepModule_node found, role?_setRole, if_pos rfl]
  simp [role?, found]

theorem role?_stepModule_forwarder {fabric : Fabric} {handle : Handle} {ports : Ports}
    {half : Forwarder} (found : fabric.modules.get? handle = some ⟨ports, .forwarder half⟩) :
    ∃ later, (later = half ∨ later.sibling = none) ∧
      (fabric.stepModule handle).role? handle = some (.forwarder later) := by
  rcases stepModule_forwarder found with same | forgot
  · refine ⟨half, .inl rfl, ?_⟩
    simp [same, role?, found]
  · refine ⟨.unpaired, .inr rfl, ?_⟩
    rw [forgot, role?_setRole, if_pos rfl]
    simp [role?, found]

/-- A module keeps its kind when it or another one acts. -/
theorem role?_stepModule {fabric : Fabric} (handle : Handle) {other : Handle} {role : Role}
    (before : fabric.role? other = some role) :
    match role with
    | .node _ => ∃ later, (fabric.stepModule handle).role? other = some (.node later)
    | .forwarder half => ∃ later, (later = half ∨ later.sibling = none) ∧
        (fabric.stepModule handle).role? other = some (.forwarder later) := by
  by_cases same : other = handle
  · subst same
    obtain ⟨ports, found⟩ := role?_eq_some_iff.1 before
    cases role with
    | node node => exact ⟨_, role?_stepModule_node found⟩
    | forwarder half => exact role?_stepModule_forwarder found
  · cases role with
    | node node => exact ⟨node, (role?_stepModule_of_ne same).trans before⟩
    | forwarder half => exact ⟨half, .inl rfl, (role?_stepModule_of_ne same).trans before⟩

theorem exists_role?_of_stepModule {fabric : Fabric} {handle other : Handle} {role : Role}
    (after : (fabric.stepModule handle).role? other = some role) :
    ∃ earlier, fabric.role? other = some earlier := by
  by_cases same : other = handle
  · subst same
    cases found : fabric.modules.get? other with
    | none => exact ⟨role, by rwa [stepModule_missing found] at after⟩
    | some member => exact ⟨member.role, by simp [role?, found]⟩
  · exact ⟨role, by rwa [role?_stepModule_of_ne same] at after⟩

theorem exists_role?_of_stepModules {fabric : Fabric} {handles : List Handle} {other : Handle}
    {role : Role} (after : (fabric.stepModules handles).role? other = some role) :
    ∃ earlier, fabric.role? other = some earlier := by
  induction handles generalizing fabric with
  | nil => exact ⟨role, after⟩
  | cons handle rest ih =>
      obtain ⟨earlier, found⟩ := ih after
      exact exists_role?_of_stepModule found

theorem Wired.stepModule {fabric : Fabric} (wired : fabric.Wired) (handle : Handle) :
    (fabric.stepModule handle).Wired := by
  have modules : (fabric.stepModule handle).modules.Sound := by
    cases found : fabric.modules.get? handle with
    | none =>
        rw [stepModule_missing found]
        exact wired.modules
    | some member =>
        cases member with
        | mk ports role =>
            cases role with
            | node node =>
                rw [stepModule_node found]
                exact wired.modules.modify _ _
            | forwarder half =>
                rcases stepModule_forwarder found with same | forgot
                · rw [same]
                  exact wired.modules
                · rw [forgot]
                  exact wired.modules.modify _ _
  have alike := alike_stepModule fabric handle
  exact wired.of_same modules (alike.sound wired.pipes) (by simp) alike.writer

/-- A forwarder was a forwarder before, with the same sibling unless it has forgotten it. -/
theorem exists_forwarder_of_stepModule {fabric : Fabric} {handle other : Handle} {half : Forwarder}
    (after : (fabric.stepModule handle).role? other = some (.forwarder half)) :
    ∃ earlier, fabric.role? other = some (.forwarder earlier) ∧
      (half = earlier ∨ half.sibling = none) := by
  obtain ⟨role, before⟩ := exists_role?_of_stepModule after
  have kind := role?_stepModule handle before
  cases role with
  | node node =>
      obtain ⟨later, found⟩ := kind
      simp [after] at found
  | forwarder earlier =>
      obtain ⟨later, either, found⟩ := kind
      rw [after] at found
      cases found
      exact ⟨earlier, before, either⟩

theorem exists_node_of_stepModule {fabric : Fabric} {handle other : Handle} {node : Node}
    (after : (fabric.stepModule handle).role? other = some (.node node)) :
    ∃ earlier, fabric.role? other = some (.node earlier) := by
  obtain ⟨role, before⟩ := exists_role?_of_stepModule after
  have kind := role?_stepModule handle before
  cases role with
  | node earlier => exact ⟨earlier, before⟩
  | forwarder half =>
      obtain ⟨later, -, found⟩ := kind
      simp [after] at found

theorem exists_node_of_stepModules {fabric : Fabric} {handles : List Handle} {other : Handle}
    {node : Node} (after : (fabric.stepModules handles).role? other = some (.node node)) :
    ∃ earlier, fabric.role? other = some (.node earlier) := by
  induction handles generalizing fabric with
  | nil => exact ⟨node, after⟩
  | cons handle rest ih =>
      obtain ⟨earlier, between⟩ := ih after
      exact exists_node_of_stepModule between

theorem Fronted.stepModule {fabric : Fabric} (fronted : fabric.Fronted) (handle : Handle) :
    (fabric.stepModule handle).Fronted := by
  apply fronted.of_same (by simp)
  case forwarders => exact exists_forwarder_of_stepModule
  case nodes =>
    intro other node before
    exact role?_stepModule handle before

/-! ## The word that is taken -/

end Fabric

/-- The pipe that the next step of a node takes a word from. -/
def Node.drawn? (node : Node) (ports : Ports) (pipes : PipeTable) : Option PipeId :=
  (node.arrival? ports pipes).bind fun arrival => (ports.get arrival.1).map (·.receive)

theorem Node.draw_arrival? (node : Node) (ports : Ports) (pipes : PipeTable) :
    pipes.draw ports (node.arrival? ports pipes) =
      (node.drawn? ports pipes).elim pipes fun id => (pipes.claim id).2 := by
  unfold drawn?
  cases node.arrival? ports pipes with
  | none => rfl
  | some arrival =>
      change pipes.claimAt ports arrival.1 = _
      unfold PipeTable.claimAt
      cases linked : ports.get arrival.1 <;> simp [linked]

/-- A word is taken only from a pipe where it is ready, at a port that is polled. -/
theorem Node.ready_of_drawn {node : Node} {ports : Ports} {pipes : PipeTable} {id : PipeId}
    (draws : node.drawn? ports pipes = some id) :
    ∃ port value link taken, node.arrival? ports pipes = some (port, value) ∧
      port ∈ node.polled ∧ ports.get port = some link ∧ link.receive = id ∧
      pipes.get? id = some taken ∧ taken.pipe = .ready value := by
  obtain ⟨⟨port, value⟩, arrives, receives⟩ := Option.bind_eq_some_iff.1 draws
  obtain ⟨link, linked, rfl⟩ := Option.map_eq_some_iff.1 receives
  have first := List.exists_of_findSome?_eq_some (show _ = _ from arrives)
  obtain ⟨polled, member, found⟩ := first
  obtain ⟨word, ready, same⟩ := Option.map_eq_some_iff.1 found
  cases same
  rw [PipeTable.arrivalAt, linked, Option.bind_some] at ready
  obtain ⟨taken, opened, full⟩ :=
    PipeTable.pipe?_eq_some_iff.1 (PipeTable.peek?_eq_some_iff.1 ready)
  exact ⟨port, value, link, taken, arrives, member, linked, rfl, opened, full⟩

/-- A node that polls ports waits for no write. -/
theorem Node.not_waiting_of_polled {node : Node} {port : Port} (polled : port ∈ node.polled) :
    node.activity.status ≠ .waitingWrite := by
  intro waiting
  unfold Node.polled at polled
  cases activity : node.activity <;> simp [activity, Activity.status] at waiting polled

/-- A claim is acknowledged only at a port whose pipe knows of it. -/
theorem Node.delivered_of_delivery {node : Node} {ports : Ports} {pipes : PipeTable} {port : Port}
    (delivery : node.delivery? ports pipes = some port) :
    node.enabled ∧ node.activity.status = .waitingWrite ∧
      ∃ link entry, ports.get port = some link ∧ pipes.get? link.send = some entry ∧
        entry.pipe = .delivered := by
  obtain ⟨⟨enabled, waiting⟩, delivers⟩ := Option.ite_none_right_eq_some.1 (show _ = _ from delivery)
  have delivered : pipes.deliveredAt ports port = true := List.find?_some (show _ = _ from delivers)
  obtain ⟨link, linked, holds⟩ := (Option.any_eq_true _ _).1 delivered
  obtain ⟨entry, held, known⟩ := PipeTable.pipe?_eq_some_iff.1 (of_decide_eq_true holds)
  exact ⟨enabled, waiting, link, entry, linked, held, known⟩

/-- A node that acknowledges a claim goes on. -/
theorem Node.after_of_delivery {node : Node} {ports : Ports} {pipes : PipeTable} {port : Port}
    (delivery : node.delivery? ports pipes = some port) :
    ∃ write, node.activity = .waitingWrite write ∧
      node.after ports pipes = node.complete write port := by
  obtain ⟨enabled, waiting, -⟩ := Node.delivered_of_delivery delivery
  cases activity : node.activity with
  | idle | running | waitingRead => simp [activity, Activity.status] at waiting
  | waitingWrite write =>
      refine ⟨write, rfl, ?_⟩
      simp [after, next, enabled, activity, delivery]

/-- A node that acknowledges a claim takes no word. -/
theorem Node.drawn?_of_delivery {node : Node} {ports : Ports} {pipes : PipeTable} {port : Port}
    (delivery : node.delivery? ports pipes = some port) : node.drawn? ports pipes = none := by
  refine Option.eq_none_iff_forall_not_mem.2 fun id draws => ?_
  obtain ⟨_, _, _, _, -, polled, -⟩ := Node.ready_of_drawn draws
  exact Node.not_waiting_of_polled polled (Node.delivered_of_delivery delivery).2.1

namespace Fabric

/-- The pipe that the next action of a module takes a word from. -/
def drawn? (fabric : Fabric) (handle : Handle) : Option PipeId :=
  (fabric.modules.get? handle).bind fun member =>
    match member.role with
    | .node node => node.drawn? member.ports fabric.pipes
    | .forwarder _ => (fabric.course? handle).bind fun course =>
        (Forwarder.passed? fabric.pipes course.1 course.2).map fun _ => course.1.receive

/-- The module whose word the next action of a module takes. -/
def giver? (fabric : Fabric) (handle : Handle) : Option Handle :=
  (fabric.drawn? handle).bind fabric.pipes.writer?

theorem drawn?_node {fabric : Fabric} {handle : Handle} {ports : Ports} {node : Node}
    (found : fabric.modules.get? handle = some ⟨ports, .node node⟩) :
    fabric.drawn? handle = node.drawn? ports fabric.pipes := by
  rw [drawn?, found, Option.bind_some]

theorem drawn?_forwarder {fabric : Fabric} {handle : Handle} {ports : Ports} {half : Forwarder}
    (found : fabric.modules.get? handle = some ⟨ports, .forwarder half⟩) :
    fabric.drawn? handle = (fabric.course? handle).bind fun course =>
      (Forwarder.passed? fabric.pipes course.1 course.2).map fun _ => course.1.receive := by
  rw [drawn?, found, Option.bind_some]

theorem course?_eq_some {fabric : Fabric} {handle : Handle} {own : Link} {onward : Option Link}
    (course : fabric.course? handle = some (own, onward)) :
    (∃ port, fabric.link? handle port = some own) ∧
      ∃ half, fabric.role? handle = some (.forwarder half) ∧
        onward = half.sibling.bind fabric.forwarderLink? := by
  obtain ⟨member, found, leads⟩ := Option.bind_eq_some_iff.1 course
  cases member with
  | mk ports role =>
      cases role with
      | node node => simp at leads
      | forwarder half =>
          obtain ⟨link, first, same⟩ := Option.map_eq_some_iff.1 leads
          cases same
          have member := List.mem_of_mem_head? first
          obtain ⟨port, linked⟩ := Ports.mem_links.1 member
          refine ⟨⟨port, ?_⟩, half, ?_, rfl⟩
          · simp [link?, found, linked]
          · simp [role?, found]

theorem forwarderLink?_eq_some {fabric : Fabric} {handle : Handle} {link : Link}
    (forwards : fabric.forwarderLink? handle = some link) :
    (∃ port, fabric.link? handle port = some link) ∧
      ∃ half, fabric.role? handle = some (.forwarder half) := by
  unfold forwarderLink? at forwards
  cases found : fabric.modules.get? handle with
  | none => simp [found] at forwards
  | some member =>
      cases member with
      | mk ports role =>
          cases role with
          | node node => simp [found, Module.isNode] at forwards
          | forwarder half =>
              simp only [found, Module.isNode, Bool.false_eq_true, if_false] at forwards
              obtain ⟨port, linked⟩ := Ports.mem_links.1 (List.mem_of_mem_head? forwards)
              refine ⟨⟨port, ?_⟩, half, ?_⟩
              · simp [link?, found, linked]
              · simp [role?, found]

end Fabric

end NodeGrid
