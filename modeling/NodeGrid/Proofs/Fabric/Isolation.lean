import NodeGrid.Proofs.Fabric.Phase
import NodeGrid.Proofs.Node.Twins
import Mathlib.Data.Set.Basic

/-!
# Parts of a fabric that are cut off from the rest

A set of modules is closed if no link and no sibling leads out of it or into it.  What the other
modules do cannot be told from inside: they write to pipes of their own, and what they take from a
pipe was written by one of them.  So if two fabrics agree on a closed set of modules, and its links
lead to the same ports in both, then they agree on it after a tick as well, whatever else is in
them.
-/

namespace NodeGrid

/-- What shows at a linked port: the module on the other side, and what is in the two pipes. -/
structure PortView where
  peer : Handle
  sent : Option (Pipe × Bool)
  received : Option (Pipe × Bool)
  deriving DecidableEq, Repr

/-- A claim changes nothing in the pipes of other writers. -/
theorem PipeTable.get?_claim_foreign {table : PipeTable} {id drawn : PipeId} {entry : OpenPipe}
    (opened : table.get? id = some entry) (foreign : table.writer? drawn ≠ some entry.writer) :
    (table.claim drawn).2.get? id = some entry := by
  cases word : (table.pipe? drawn).bind (·.peek?) with
  | none => rw [claim_eq_of_peek_none word, opened]
  | some value =>
      obtain ⟨taken, found, ready⟩ := pipe?_eq_some_iff.1 (peek?_eq_some_iff.1 word)
      have different : entry.writer ≠ taken.writer := by
        intro same
        exact foreign (by rw [writer?, found, Option.map_some, same])
      have elsewhere : id ≠ drawn := by
        rintro rfl
        cases opened.symm.trans found
        exact different rfl
      rw [get?_claim found ready, if_neg elsewhere, opened, Option.map_some,
        OpenPipe.bereft_of_ne different]

/-- A half changes nothing in pipes that it does not send to, nor its sibling, if their writer is not
the module in front of it. -/
theorem Forwarder.get?_relay_foreign {pipes : PipeTable} {own : Link} {onward : Option Link}
    {id : PipeId} {entry : OpenPipe} (opened : pipes.get? id = some entry)
    (unsent : id ≠ own.send) (ahead : ∀ target, onward = some target → id ≠ target.send)
    (foreign : pipes.writer? own.receive ≠ some entry.writer) :
    (relay pipes own onward).2.get? id = some entry := by
  have kept := (pipes.get?_acknowledge_of_ne unsent).trans opened
  have writers := (PipeTable.Alike.acknowledge pipes own.send).writer own.receive
  cases passes : passed? pipes own onward with
  | none => rw [relay_of_not_passed passes, kept]
  | some value =>
      cases onward with
      | none => simp [passed?] at passes
      | some target =>
          rw [relay_of_passed passes, PipeTable.get?_offer, if_neg (ahead target rfl)]
          exact PipeTable.get?_claim_foreign kept (writers ▸ foreign)

/-- A forwarder does the same to twin pipes in both tables. -/
theorem Forwarder.twins_relay {matched : PipeId → PipeId → Prop} {first second : PipeTable}
    (twins : PipeTable.Twins matched first second) {own other : Link}
    (here : Link.Matched matched own other) {onward target : Option Link}
    (ahead : Option.Rel (Link.Matched matched) onward target) :
    PipeTable.Twins matched (relay first own onward).2 (relay second other target).2 := by
  have acknowledged := twins.acknowledge here.send
  unfold relay
  cases ahead with
  | none => exact acknowledged
  | @some link facing leads =>
      dsimp only
      rw [acknowledged.isEmpty leads.send]
      split
      next =>
        have claimed := acknowledged.claim here.receive
        have answers : ((first.acknowledge own.send).2.claim own.receive).1 =
            ((second.acknowledge other.send).2.claim other.receive).1 := by
          rw [PipeTable.claim_fst, PipeTable.claim_fst, acknowledged.pipe? here.receive]
        generalize (first.acknowledge own.send).2.claim own.receive = one at claimed answers
        generalize (second.acknowledge other.send).2.claim other.receive = two at claimed answers
        obtain ⟨word, table⟩ := one
        obtain ⟨_, pipes⟩ := two
        cases answers
        cases word with
        | none => exact acknowledged
        | some value => exact claimed.offer leads.send value false
      next => exact acknowledged

namespace Fabric

/-- What shows at a port of a module. -/
def portView? (fabric : Fabric) (handle : Handle) (port : Port) : Option PortView :=
  (fabric.link? handle port).map fun link =>
    ⟨link.peer, (fabric.pipes.get? link.send).map (·.visible),
      (fabric.pipes.get? link.receive).map (·.visible)⟩

/-- The port at the other end of a link. -/
def facing? (fabric : Fabric) (handle : Handle) (port : Port) : Option Port :=
  (fabric.link? handle port).bind fun link =>
    Port.all.find? fun place => fabric.link? link.peer place = some (link.flip handle)

/-- In two fabrics the members do the same, and the same shows at their ports. -/
structure Agree (members : Set Handle) (first second : Fabric) : Prop where
  role : ∀ handle ∈ members, first.role? handle = second.role? handle
  port : ∀ handle ∈ members, ∀ port, first.portView? handle port = second.portView? handle port

/-- In two fabrics the links of the members lead to the same ports. -/
def Aligned (members : Set Handle) (first second : Fabric) : Prop :=
  ∀ handle ∈ members, ∀ port, first.facing? handle port = second.facing? handle port

/-- No link leads out of the members, no member has its sibling outside, and no linked forwarder
outside names a member as its sibling.

The last follows from the others unless generations have wrapped around: see `Grid.Young.closed`. -/
structure Closed (members : Set Handle) (fabric : Fabric) : Prop where
  peer : ∀ {handle port link}, handle ∈ members → fabric.link? handle port = some link →
    link.peer ∈ members
  sibling : ∀ {handle other role}, handle ∈ members →
    fabric.role? handle = some (.forwarder ⟨some other⟩) → fabric.role? other = some role →
    other ∈ members
  named : ∀ {handle other port link role}, fabric.link? handle port = some link →
    fabric.role? handle = some (.forwarder ⟨some other⟩) → fabric.role? other = some role →
    other ∈ members → handle ∈ members

theorem stepModule_of_firstLink? {fabric : Fabric} {handle : Handle} {ports : Ports}
    {half : Forwarder} (found : fabric.modules.get? handle = some ⟨ports, .forwarder half⟩) :
    fabric.stepModule handle =
      ports.links.head?.elim fabric fun own => fabric.stepForwarder handle own half := by
  simp only [stepModule, found, Module.firstLink?]
  cases ports.links.head? <;> rfl

theorem pipes_stepForwarder (fabric : Fabric) (handle : Handle) (own : Link) (half : Forwarder) :
    (fabric.stepForwarder handle own half).pipes =
      (Forwarder.relay fabric.pipes own (half.sibling.bind fabric.forwarderLink?)).2 := by
  unfold stepForwarder
  dsimp only
  split <;> rfl

/-- A half forgets its sibling if that has no link. -/
theorem role?_stepForwarder (fabric : Fabric) (handle : Handle) (own : Link) (half : Forwarder) :
    (fabric.stepForwarder handle own half).role? handle =
      if half.sibling.isSome && (half.sibling.bind fabric.forwarderLink?).isNone then
        (fabric.role? handle).map fun _ => .forwarder half.detach
      else fabric.role? handle := by
  unfold stepForwarder
  dsimp only
  split
  next => rw [role?_setRole, if_pos rfl, role?]; rfl
  next => rfl

variable {members : Set Handle} {first second fabric : Fabric}

theorem Agree.refl (members : Set Handle) (fabric : Fabric) : Agree members fabric fabric :=
  ⟨fun _ _ => rfl, fun _ _ _ => rfl⟩

theorem Agree.symm (agree : Agree members first second) : Agree members second first :=
  ⟨fun handle member => (agree.role handle member).symm,
    fun handle member port => (agree.port handle member port).symm⟩

theorem Agree.trans {third : Fabric} (one : Agree members first second)
    (two : Agree members second third) : Agree members first third :=
  ⟨fun handle member => (one.role handle member).trans (two.role handle member),
    fun handle member port => (one.port handle member port).trans (two.port handle member port)⟩

/-! ## The port on the other side -/

theorem Wired.facing?_eq_some_iff (wired : fabric.Wired) {handle : Handle} {port place : Port}
    {link : Link} (linked : fabric.link? handle port = some link) :
    fabric.facing? handle port = some place ↔
      fabric.link? link.peer place = some (link.flip handle) := by
  rw [facing?, linked, Option.bind_some]
  constructor
  · intro found
    simpa using List.find?_some found
  · intro mirrored
    have leads : (Port.all.find? fun place =>
        decide (fabric.link? link.peer place = some (link.flip handle))).isSome := by
      rw [List.find?_isSome]
      exact ⟨place, Port.mem_all place, by simp [mirrored]⟩
    obtain ⟨other, found⟩ := Option.isSome_iff_exists.1 leads
    have also : fabric.link? link.peer other = some (link.flip handle) := by
      simpa using List.find?_some found
    rw [found, wired.sole also mirrored rfl]

/-- Where links lead is a matter of the links alone. -/
theorem facing?_congr {before after : Fabric}
    (links : ∀ handle port, after.link? handle port = before.link? handle port) (handle : Handle)
    (port : Port) : after.facing? handle port = before.facing? handle port := by
  simp only [facing?, links]

theorem Aligned.congr {one two : Fabric} (aligned : Aligned members first second)
    (links : ∀ handle port, one.link? handle port = first.link? handle port)
    (others : ∀ handle port, two.link? handle port = second.link? handle port) :
    Aligned members one two := by
  intro handle member port
  rw [facing?_congr links, facing?_congr others]
  exact aligned handle member port

/-! ## Matched pipes -/

/-- Pipes of two fabrics that the same port of a member sends to. -/
def Counterparts (members : Set Handle) (first second : Fabric) (id place : PipeId) : Prop :=
  ∃ handle ∈ members, ∃ port link other, first.link? handle port = some link ∧
    second.link? handle port = some other ∧ link.send = id ∧ other.send = place

/-- The members do the same in both fabrics, and their ports are linked through twin pipes. -/
structure Mirrored (members : Set Handle) (matched : PipeId → PipeId → Prop)
    (first second : Fabric) : Prop where
  role : ∀ handle ∈ members, first.role? handle = second.role? handle
  link : ∀ handle ∈ members, ∀ port,
    Option.Rel (Link.Matched matched) (first.link? handle port) (second.link? handle port)
  pipes : PipeTable.Twins matched first.pipes second.pipes

/-- If the members agree and their links lead to the same ports, then the pipes that they send to
are twins, and so are those that they read from. -/
theorem Agree.mirrored (agree : Agree members first second) (aligned : Aligned members first second)
    (wired : first.Wired) (wired' : second.Wired) (closed : first.Closed members) :
    Mirrored members (Counterparts members first second) first second where
  role := agree.role
  link := by
    intro handle member port
    have views := agree.port handle member port
    have faces := aligned handle member port
    cases here : first.link? handle port with
    | none =>
        rw [portView?, portView?, here, Option.map_none, eq_comm, Option.map_eq_none_iff] at views
        rw [views]
        exact .none
    | some link =>
        rw [portView?, portView?, here, Option.map_some, eq_comm, Option.map_eq_some_iff] at views
        obtain ⟨other, there, view⟩ := views
        have peer : other.peer = link.peer := congrArg PortView.peer view
        obtain ⟨place, mirrored⟩ := wired.mirror here
        rw [(wired.facing?_eq_some_iff here).2 mirrored, eq_comm,
          wired'.facing?_eq_some_iff there] at faces
        rw [there]
        refine .some ⟨peer.symm, ⟨handle, member, port, link, other, here, there, rfl, rfl⟩, ?_⟩
        exact ⟨link.peer, closed.peer member here, place, _, _, mirrored, peer ▸ faces, rfl, rfl⟩
  pipes := by
    constructor
    case unique =>
      rintro id other place there ⟨handle, member, port, link, facing, here, opposite, rfl, rfl⟩
        ⟨handle', member', port', link', facing', here', opposite', rfl, rfl⟩
      constructor
      · intro same
        obtain ⟨rfl, rfl⟩ := wired.send_injective here' here same
        cases opposite.symm.trans opposite'
        rfl
      · intro same
        obtain ⟨rfl, rfl⟩ := wired'.send_injective opposite' opposite same
        cases here.symm.trans here'
        rfl
    case twin =>
      rintro id place ⟨handle, member, port, link, other, here, there, rfl, rfl⟩
      obtain ⟨entry, opened, writer⟩ := wired.exists_get? here
      obtain ⟨twin, placed, author⟩ := wired'.exists_get? there
      have views := agree.port handle member port
      rw [portView?, portView?, here, there, Option.map_some, Option.map_some, opened,
        placed] at views
      have sent := congrArg PortView.sent (Option.some.inj views)
      exact ⟨entry, twin, opened, placed, writer.trans author.symm, Option.some.inj sent⟩

namespace Mirrored

variable {matched : PipeId → PipeId → Prop} (mirrored : Mirrored members matched first second)
include mirrored

theorem agree : Agree members first second where
  role := mirrored.role
  port := by
    intro handle member port
    have both := mirrored.link handle member port
    unfold portView?
    generalize first.link? handle port = here at both
    generalize second.link? handle port = there at both
    cases both with
    | none => rfl
    | some both =>
        obtain ⟨_, _, opened, placed, sent⟩ := mirrored.pipes.twin both.send
        obtain ⟨_, _, held, kept, received⟩ := mirrored.pipes.twin both.receive
        simp only [Option.map_some, both.peer, opened, placed, held, kept, sent.visible,
          received.visible]

/-- A member is in neither of two such fabrics, or in both, with the same role and matched links. -/
theorem get?_cases {handle : Handle} (member : handle ∈ members) :
    first.modules.get? handle = none ∧ second.modules.get? handle = none ∨
      ∃ ports others role, first.modules.get? handle = some ⟨ports, role⟩ ∧
        second.modules.get? handle = some ⟨others, role⟩ ∧ Ports.Matched matched ports others := by
  have roles := mirrored.role handle member
  cases here : first.modules.get? handle with
  | none =>
      rw [role?, role?, here, Option.map_none, eq_comm, Option.map_eq_none_iff] at roles
      exact .inl ⟨rfl, roles⟩
  | some found =>
      obtain ⟨ports, role⟩ := found
      rw [role?, role?, here, Option.map_some, eq_comm, Option.map_eq_some_iff] at roles
      obtain ⟨⟨others, _⟩, there, rfl⟩ := roles
      refine .inr ⟨ports, others, _, rfl, there, fun port => ?_⟩
      have both := mirrored.link handle member port
      rw [link?, link?, here, there, Option.bind_some, Option.bind_some] at both
      exact both

theorem commit : Mirrored members matched first.commit second.commit where
  role := mirrored.role
  link := mirrored.link
  pipes := mirrored.pipes.commit

/-! ## A member acts in both fabrics -/

theorem forwarderLink? {handle : Handle} (member : handle ∈ members) :
    Option.Rel (Link.Matched matched) (first.forwarderLink? handle)
      (second.forwarderLink? handle) := by
  unfold Fabric.forwarderLink?
  rcases mirrored.get?_cases member with ⟨here, there⟩ | ⟨ports, others, role, here, there, both⟩
  · rw [here, there]
    exact .none
  · rw [here, there]
    dsimp only
    rw [show Module.isNode ⟨others, role⟩ = Module.isNode ⟨ports, role⟩ from rfl]
    split
    next => exact .none
    next => exact both.head?

/-- The sibling of a member is a member, or it is in neither fabric. -/
theorem onward {handle : Handle} (member : handle ∈ members) (closed : first.Closed members)
    (closed' : second.Closed members) {half : Forwarder}
    (role : first.role? handle = some (.forwarder half)) :
    Option.Rel (Link.Matched matched) (half.sibling.bind first.forwarderLink?)
      (half.sibling.bind second.forwarderLink?) := by
  obtain ⟨sibling⟩ := half
  cases sibling with
  | none => exact .none
  | some other =>
      by_cases inside : other ∈ members
      · exact mirrored.forwarderLink? inside
      · have gone : ∀ {fabric : Fabric}, fabric.Closed members →
            fabric.role? handle = some (.forwarder ⟨some other⟩) →
            fabric.forwarderLink? other = none := by
          intro fabric closed role
          refine Option.eq_none_iff_forall_not_mem.2 fun link leads => inside ?_
          obtain ⟨-, half, what⟩ := forwarderLink?_eq_some leads
          exact closed.sibling member role what
        rw [Option.bind_some, Option.bind_some, gone closed role,
          gone closed' (mirrored.role handle member ▸ role)]
        exact .none

/-- A member does the same in both fabrics. -/
theorem stepModule {handle : Handle} (member : handle ∈ members) (closed : first.Closed members)
    (closed' : second.Closed members) :
    Mirrored members matched (first.stepModule handle) (second.stepModule handle) := by
  rcases mirrored.get?_cases member with ⟨here, there⟩ | ⟨ports, others, what, here, there, both⟩
  · rw [stepModule_missing here, stepModule_missing there]
    exact mirrored
  · have acts : (first.stepModule handle).role? handle = (second.stepModule handle).role? handle ∧
        PipeTable.Twins matched (first.stepModule handle).pipes
          (second.stepModule handle).pipes := by
      cases what with
      | node node =>
          rw [role?_stepModule_node here, role?_stepModule_node there, pipes_stepModule_node here,
            pipes_stepModule_node there, both.after mirrored.pipes]
          exact ⟨rfl, both.pipesAfter mirrored.pipes node⟩
      | forwarder half =>
          have role : first.role? handle = some (.forwarder half) := by simp [role?, here]
          have ahead := mirrored.onward member closed closed' role
          rw [stepModule_of_firstLink? here, stepModule_of_firstLink? there]
          have own := both.head?
          generalize ports.links.head? = near at own
          generalize others.links.head? = facing at own
          cases own with
          | none => exact ⟨mirrored.role handle member, mirrored.pipes⟩
          | some own =>
              rw [Option.elim_some, Option.elim_some, pipes_stepForwarder, pipes_stepForwarder,
                role?_stepForwarder, role?_stepForwarder, mirrored.role handle member]
              refine ⟨?_, Forwarder.twins_relay mirrored.pipes own ahead⟩
              generalize half.sibling.bind first.forwarderLink? = onward at ahead
              generalize half.sibling.bind second.forwarderLink? = target at ahead
              cases ahead <;> rfl
    constructor
    case role =>
      intro other inside
      by_cases same : other = handle
      · rw [same, acts.1]
      · rw [role?_stepModule_of_ne same, role?_stepModule_of_ne same]
        exact mirrored.role other inside
    case link =>
      intro other inside port
      rw [link?_stepModule, link?_stepModule]
      exact mirrored.link other inside port
    case pipes => exact acts.2

end Mirrored

/-! ## Another module acts -/

namespace Closed

variable (closed : fabric.Closed members) (wired : fabric.Wired) {handle : Handle}
variable (outside : handle ∉ members)
include closed

include wired outside in
/-- No link of another module leads to a member. -/
theorem peer_not_mem {port : Port} {link : Link} (linked : fabric.link? handle port = some link) :
    link.peer ∉ members := by
  intro inside
  obtain ⟨place, mirrored⟩ := wired.mirror linked
  exact outside (closed.peer inside mirrored)

include wired outside in
/-- What another module does leaves the pipes of the members as they are. -/
theorem get?_stepModule {id : PipeId} {entry : OpenPipe}
    (opened : fabric.pipes.get? id = some entry) (inside : entry.writer ∈ members) :
    (fabric.stepModule handle).pipes.get? id = some entry := by
  have foreign : handle ≠ entry.writer := fun same => outside (same ▸ inside)
  have unread : ∀ {port link}, fabric.link? handle port = some link →
      fabric.pipes.writer? link.receive ≠ some entry.writer := by
    intro port link linked same
    rw [wired.writer_receive linked] at same
    exact closed.peer_not_mem wired outside linked (Option.some.inj same ▸ inside)
  cases found : fabric.modules.get? handle with
  | none => rw [stepModule_missing found, opened]
  | some member =>
      obtain ⟨ports, what⟩ := member
      have linked_of_get : ∀ {port link}, ports.get port = some link →
          fabric.link? handle port = some link :=
        fun linked => link?_eq_some_iff.2 ⟨_, found, linked⟩
      cases what with
      | node node =>
          have elsewhere : ∀ port, ports.sendAt port ≠ some id := by
            intro port sends
            obtain ⟨link, linked, same⟩ := Ports.sendAt_eq_some_iff.1 sends
            exact wired.ne_send opened (linked_of_get linked) foreign same.symm
          rw [pipes_stepModule_node found, node.get?_pipesAfter_of_not_own elsewhere,
            node.draw_arrival?]
          cases draws : node.drawn? ports fabric.pipes with
          | none => exact opened
          | some drawn =>
              obtain ⟨_, _, link, _, -, -, linked, rfl, -⟩ := Node.ready_of_drawn draws
              exact PipeTable.get?_claim_foreign opened (unread (linked_of_get linked))
      | forwarder half =>
          rw [stepModule_of_firstLink? found]
          cases first : ports.links.head? with
          | none => exact opened
          | some own =>
              obtain ⟨port, placed⟩ := Ports.mem_links.1 (List.mem_of_mem_head? first)
              have linked := linked_of_get placed
              rw [Option.elim_some, pipes_stepForwarder]
              refine Forwarder.get?_relay_foreign opened (wired.ne_send opened linked foreign) ?_
                (unread linked)
              intro target leads
              obtain ⟨sibling, named, forwards⟩ := Option.bind_eq_some_iff.1 leads
              obtain ⟨⟨place, facing⟩, rival, role⟩ := forwarderLink?_eq_some forwards
              refine wired.ne_send opened facing fun same => outside ?_
              obtain ⟨sibling'⟩ := half
              cases named
              exact closed.named linked (by simp [role?, found]) role (same ▸ inside)

include wired outside in
/-- What another module does cannot be told from the members. -/
theorem agree_stepModule : Agree members (fabric.stepModule handle) fabric where
  role := by
    intro other inside
    exact role?_stepModule_of_ne fun same => outside (same ▸ inside)
  port := by
    intro other inside port
    rw [portView?, portView?, link?_stepModule]
    cases linked : fabric.link? other port with
    | none => rfl
    | some link =>
        obtain ⟨sent, sends, writer⟩ := wired.exists_get? linked
        obtain ⟨received, receives, author⟩ := wired.exists_get?_receive linked
        rw [Option.map_some, Option.map_some, sends, receives,
          closed.get?_stepModule wired outside sends (writer ▸ inside),
          closed.get?_stepModule wired outside receives (author ▸ closed.peer inside linked)]

/-- A set of modules stays closed, whoever acts. -/
theorem stepModule (handle : Handle) : (fabric.stepModule handle).Closed members where
  peer := by
    intro other port link inside linked
    rw [link?_stepModule] at linked
    exact closed.peer inside linked
  sibling := by
    intro other sibling role inside what there
    obtain ⟨half, was, same | forgot⟩ := exists_forwarder_of_stepModule what
    · obtain ⟨earlier, before⟩ := exists_role?_of_stepModule there
      exact closed.sibling inside (same ▸ was) before
    · cases forgot
  named := by
    intro other sibling port link role linked what there inside
    rw [link?_stepModule] at linked
    obtain ⟨half, was, same | forgot⟩ := exists_forwarder_of_stepModule what
    · obtain ⟨earlier, before⟩ := exists_role?_of_stepModule there
      exact closed.named linked (same ▸ was) before inside
    · cases forgot

theorem commit : fabric.commit.Closed members :=
  ⟨closed.peer, closed.sibling, closed.named⟩

end Closed

/-! ## Ticks -/

/-- Two fabrics in which the same modules are cut off from the rest and agree, down to the ports that
their links lead to. -/
structure Isolated (members : Set Handle) (first second : Fabric) : Prop where
  agree : Agree members first second
  aligned : Aligned members first second
  wired : first.Wired
  wired' : second.Wired
  closed : first.Closed members
  closed' : second.Closed members

namespace Isolated

theorem refl (wired : fabric.Wired) (closed : fabric.Closed members) :
    Isolated members fabric fabric :=
  ⟨.refl members fabric, fun _ _ _ => rfl, wired, wired, closed, closed⟩

variable (isolated : Isolated members first second)
include isolated

theorem symm : Isolated members second first where
  agree := isolated.agree.symm
  aligned := fun handle inside port => (isolated.aligned handle inside port).symm
  wired := isolated.wired'
  wired' := isolated.wired
  closed := isolated.closed'
  closed' := isolated.closed

theorem trans {third : Fabric} (other : Isolated members second third) :
    Isolated members first third where
  agree := isolated.agree.trans other.agree
  aligned := fun handle inside port =>
    (isolated.aligned handle inside port).trans (other.aligned handle inside port)
  wired := isolated.wired
  wired' := other.wired'
  closed := isolated.closed
  closed' := other.closed'

theorem mirrored : Mirrored members (Counterparts members first second) first second :=
  isolated.agree.mirrored isolated.aligned isolated.wired isolated.wired' isolated.closed

/-- A member acts in both fabrics. -/
theorem stepModule {handle : Handle} (inside : handle ∈ members) :
    Isolated members (first.stepModule handle) (second.stepModule handle) where
  agree := (isolated.mirrored.stepModule inside isolated.closed isolated.closed').agree
  aligned := isolated.aligned.congr (link?_stepModule _ handle) (link?_stepModule _ handle)
  wired := isolated.wired.stepModule handle
  wired' := isolated.wired'.stepModule handle
  closed := isolated.closed.stepModule handle
  closed' := isolated.closed'.stepModule handle

/-- A module that is not a member acts in one of them. -/
theorem stepModule_outside {handle : Handle} (outside : handle ∉ members) :
    Isolated members (first.stepModule handle) second where
  agree := (isolated.closed.agree_stepModule isolated.wired outside).trans isolated.agree
  aligned := isolated.aligned.congr (link?_stepModule _ handle) fun _ _ => rfl
  wired := isolated.wired.stepModule handle
  wired' := isolated.wired'
  closed := isolated.closed.stepModule handle
  closed' := isolated.closed'

/-- As far as the members can tell, only members act in a phase. -/
theorem stepModules [DecidablePred (· ∈ members)] (handles : List Handle) :
    Isolated members (first.stepModules handles)
      (second.stepModules (handles.filter (· ∈ members))) := by
  induction handles generalizing first second with
  | nil => exact isolated
  | cons handle rest ih =>
      rw [List.filter_cons]
      by_cases inside : handle ∈ members
      · rw [if_pos (decide_eq_true inside)]
        exact ih (isolated.stepModule inside)
      · rw [if_neg (by simpa using inside)]
        exact ih (isolated.stepModule_outside inside)

theorem commit : Isolated members first.commit second.commit where
  agree := isolated.mirrored.commit.agree
  aligned := isolated.aligned.congr (fun _ _ => rfl) fun _ _ => rfl
  wired := isolated.wired.commit
  wired' := isolated.wired'.commit
  closed := isolated.closed.commit
  closed' := isolated.closed'.commit

/-- The members act in the same order in both fabrics, for their slots are the same. -/
theorem filter_handles [DecidablePred (· ∈ members)] :
    first.modules.handles.filter (· ∈ members) = second.modules.handles.filter (· ∈ members) := by
  refine Arena.filter_handles_eq fun handle inside => ?_
  rw [Arena.mem_handles_iff, Arena.mem_handles_iff]
  rcases isolated.mirrored.get?_cases (of_decide_eq_true inside) with
    ⟨here, there⟩ | ⟨ports, others, role, here, there, -⟩
  · simp [here, there]
  · simp [here, there]

/-- A tick of both fabrics. -/
theorem tick : Isolated members first.tick second.tick := by
  classical
  have here := isolated.stepModules first.modules.handles
  have there := (refl isolated.wired' isolated.closed').stepModules second.modules.handles
  rw [isolated.filter_handles] at here
  exact (here.trans there.symm).commit

end Isolated

end Fabric

end NodeGrid
