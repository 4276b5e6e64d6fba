import NodeGrid.Fabric.Topology
import NodeGrid.Proofs.Arena
import NodeGrid.Proofs.Pipe.Table

/-!
# Wiring

In a wired fabric links come in mirrored pairs: the module at the other end has a port that sends
where this one receives and receives where this one sends.  Every open pipe is the sending side of
exactly one port, so a pipe can be named by the port that writes to it or by the one that reads
from it.
-/

namespace NodeGrid

/-- A link as the module on its other side sees it. -/
def Link.flip (link : Link) (handle : Handle) : Link :=
  ⟨link.receive, link.send, handle⟩

namespace Fabric

/-- What the module under a handle does. -/
def role? (fabric : Fabric) (handle : Handle) : Option Role :=
  (fabric.modules.get? handle).map (·.role)

theorem link?_eq_some_iff {fabric : Fabric} {handle : Handle} {port : Port} {link : Link} :
    fabric.link? handle port = some link ↔
      ∃ member, fabric.modules.get? handle = some member ∧ member.ports.get port = some link := by
  simp [link?, Option.bind_eq_some_iff]

theorem link?_eq_get {fabric : Fabric} {handle : Handle} {ports : Ports} {role : Role}
    (found : fabric.modules.get? handle = some ⟨ports, role⟩) (port : Port) :
    fabric.link? handle port = ports.get port := by
  rw [link?, found]
  rfl

theorem role?_eq_some_iff {fabric : Fabric} {handle : Handle} {role : Role} :
    fabric.role? handle = some role ↔
      ∃ ports, fabric.modules.get? handle = some ⟨ports, role⟩ := by
  unfold role?
  cases fabric.modules.get? handle with
  | none => simp
  | some member => cases member; simp

/-- Only a module that exists has links. -/
theorem role?_isSome_of_link? {fabric : Fabric} {handle : Handle} {port : Port} {link : Link}
    (linked : fabric.link? handle port = some link) : ∃ role, fabric.role? handle = some role := by
  obtain ⟨member, found, -⟩ := link?_eq_some_iff.1 linked
  exact ⟨member.role, by simp [role?, found]⟩

/-- What a module does, with its links, is all there is to it. -/
theorem get?_eq_of_views {before after : Fabric} {handle : Handle}
    (roles : after.role? handle = before.role? handle)
    (links : ∀ port, after.link? handle port = before.link? handle port) :
    after.modules.get? handle = before.modules.get? handle := by
  unfold role? at roles
  unfold link? at links
  cases earlier : before.modules.get? handle with
  | none =>
      rw [earlier] at roles
      exact Option.map_eq_none_iff.1 roles
  | some member =>
      rw [earlier] at roles links
      obtain ⟨later, found, role⟩ := Option.map_eq_some_iff.1 roles
      rw [found] at links ⊢
      have ports : later.ports = member.ports := PortMap.ext_get links
      cases later
      cases member
      cases role
      cases ports
      rfl

theorem node_eq_ok {fabric : Fabric} {handle : Handle} {node : Node}
    (known : fabric.node handle = .ok node) : fabric.role? handle = some (.node node) := by
  unfold Fabric.node module at known
  cases found : fabric.modules.get? handle with
  | none => simp [found, bind, Except.bind] at known
  | some member =>
      cases member with
      | mk ports role =>
          cases role with
          | node other =>
              simp only [found, bind, Except.bind, pure, Except.pure, Except.ok.injEq] at known
              simp [role?, found, known]
          | forwarder half =>
              simp [found, bind, Except.bind, throw, throwThe, MonadExceptOf.throw] at known

theorem node_eq_ok_iff {fabric : Fabric} {handle : Handle} {node : Node} :
    fabric.node handle = .ok node ↔ fabric.role? handle = some (.node node) := by
  refine ⟨node_eq_ok, fun role => ?_⟩
  obtain ⟨ports, found⟩ := role?_eq_some_iff.1 role
  simp [Fabric.node, module, found, bind, Except.bind, pure, Except.pure]

theorem forwarder_eq_ok {fabric : Fabric} {handle : Handle} {half : Forwarder}
    (known : fabric.forwarder handle = .ok half) :
    fabric.role? handle = some (.forwarder half) := by
  unfold Fabric.forwarder module at known
  cases found : fabric.modules.get? handle with
  | none => simp [found, bind, Except.bind] at known
  | some member =>
      cases member with
      | mk ports role =>
          cases role with
          | node node => simp [found, bind, Except.bind, throw, throwThe, MonadExceptOf.throw] at known
          | forwarder other =>
              simp only [found, bind, Except.bind, pure, Except.pure, Except.ok.injEq] at known
              simp [role?, found, known]

theorem forwarder_eq_ok_iff {fabric : Fabric} {handle : Handle} {half : Forwarder} :
    fabric.forwarder handle = .ok half ↔ fabric.role? handle = some (.forwarder half) := by
  refine ⟨forwarder_eq_ok, fun role => ?_⟩
  obtain ⟨ports, found⟩ := role?_eq_some_iff.1 role
  simp [Fabric.forwarder, module, found, bind, Except.bind, pure, Except.pure]

theorem isForwarder_iff {fabric : Fabric} {handle : Handle} :
    fabric.isForwarder handle ↔ ∃ half, fabric.role? handle = some (.forwarder half) := by
  unfold isForwarder role?
  cases fabric.modules.get? handle with
  | none => simp
  | some member =>
      cases member with
      | mk ports role => cases role <;> simp [Module.isNode]

theorem mem_handles_of_role {fabric : Fabric} {handle : Handle} {role : Role}
    (known : fabric.role? handle = some role) : handle ∈ fabric.modules.handles := by
  obtain ⟨ports, found⟩ := role?_eq_some_iff.1 known
  exact Arena.mem_handles_iff.2 ⟨_, found⟩

theorem mem_handles_of_link {fabric : Fabric} {handle : Handle} {port : Port} {link : Link}
    (linked : fabric.link? handle port = some link) : handle ∈ fabric.modules.handles := by
  obtain ⟨role, known⟩ := role?_isSome_of_link? linked
  exact mem_handles_of_role known

@[simp] theorem link?_setRole (fabric : Fabric) (handle : Handle) (role : Role) (other : Handle)
    (port : Port) : (fabric.setRole handle role).link? other port = fabric.link? other port := by
  simp only [link?, setRole, Arena.get?_modify]
  by_cases same : other = handle
  · subst same
    cases fabric.modules.get? other <;> simp
  · simp [same]

theorem role?_setRole (fabric : Fabric) (handle : Handle) (role : Role) (other : Handle) :
    (fabric.setRole handle role).role? other =
      if other = handle then (fabric.role? handle).map fun _ => role else fabric.role? other := by
  simp only [role?, setRole, Arena.get?_modify]
  by_cases same : other = handle
  · subst same
    cases fabric.modules.get? other <;> simp
  · simp [same]

theorem link?_setLink (fabric : Fabric) (handle : Handle) (port : Port) (link : Option Link)
    (other : Handle) (place : Port) :
    (fabric.setLink handle port link).link? other place =
      if other = handle ∧ place = port then (fabric.role? handle).bind fun _ => link
      else fabric.link? other place := by
  simp only [link?, role?, setLink, Arena.get?_modify]
  by_cases same : other = handle
  · subst same
    cases fabric.modules.get? other with
    | none => simp
    | some member =>
        by_cases here : place = port
        · simp [here]
        · simp [here, PortMap.get_set, Ne.symm here]
  · simp [same]

@[simp] theorem role?_setLink (fabric : Fabric) (handle : Handle) (port : Port)
    (link : Option Link) (other : Handle) :
    (fabric.setLink handle port link).role? other = fabric.role? other := by
  simp only [role?, setLink, Arena.get?_modify]
  by_cases same : other = handle
  · subst same
    cases fabric.modules.get? other <;> simp
  · simp [same]

/-- Links are mirrored, and pipes and ports belong to each other one to one. -/
structure Wired (fabric : Fabric) : Prop where
  modules : fabric.modules.Sound
  pipes : fabric.pipes.Sound
  mirror : ∀ {handle port link}, fabric.link? handle port = some link →
    ∃ other, fabric.link? link.peer other = some (link.flip handle)
  writer : ∀ {handle port link}, fabric.link? handle port = some link →
    fabric.pipes.writer? link.send = some handle
  sole : ∀ {handle port other first second}, fabric.link? handle port = some first →
    fabric.link? handle other = some second → first.send = second.send → port = other
  owned : ∀ {id handle}, fabric.pipes.writer? id = some handle →
    ∃ port link, fabric.link? handle port = some link ∧ link.send = id
  apart : ∀ {handle port link}, fabric.link? handle port = some link → link.send ≠ link.receive

namespace Wired

variable {fabric : Fabric} (wired : fabric.Wired)
include wired

/-- The pipe that a port sends to names the module that has the port as its writer. -/
theorem writer_eq {handle : Handle} {port : Port} {link : Link} {entry : OpenPipe}
    (linked : fabric.link? handle port = some link)
    (opened : fabric.pipes.get? link.send = some entry) : entry.writer = handle := by
  have writer := wired.writer linked
  rw [PipeTable.writer?, opened] at writer
  exact Option.some.inj writer

/-- Another module than the writer of a pipe does not send to it. -/
theorem ne_send {id : PipeId} {entry : OpenPipe} (opened : fabric.pipes.get? id = some entry)
    {handle : Handle} {port : Port} {link : Link}
    (linked : fabric.link? handle port = some link) (foreign : handle ≠ entry.writer) :
    id ≠ link.send := by
  rintro rfl
  exact foreign (wired.writer_eq linked opened).symm

/-- The writer of an open pipe has a port that sends to it. -/
theorem exists_send {id : PipeId} {entry : OpenPipe} (opened : fabric.pipes.get? id = some entry) :
    ∃ port link, fabric.link? entry.writer port = some link ∧ link.send = id :=
  wired.owned (by rw [PipeTable.writer?, opened, Option.map_some])

/-- The pipe that a port sends to is open. -/
theorem exists_get? {handle : Handle} {port : Port} {link : Link}
    (linked : fabric.link? handle port = some link) :
    ∃ entry, fabric.pipes.get? link.send = some entry ∧ entry.writer = handle :=
  Option.map_eq_some_iff.1 (wired.writer linked)

/-- No two ports send to one pipe. -/
theorem send_injective {handle other : Handle} {port place : Port} {first second : Link}
    (here : fabric.link? handle port = some first) (there : fabric.link? other place = some second)
    (same : first.send = second.send) : handle = other ∧ port = place := by
  have writer := wired.writer here
  rw [same, wired.writer there] at writer
  cases Option.some.inj writer
  exact ⟨rfl, wired.sole here there same⟩

/-- The pipe that a port reads from is written by the module on the other side. -/
theorem writer_receive {handle : Handle} {port : Port} {link : Link}
    (linked : fabric.link? handle port = some link) :
    fabric.pipes.writer? link.receive = some link.peer := by
  obtain ⟨other, mirrored⟩ := wired.mirror linked
  exact wired.writer mirrored

theorem writer_eq_peer {handle : Handle} {port : Port} {link : Link} {entry : OpenPipe}
    (linked : fabric.link? handle port = some link)
    (opened : fabric.pipes.get? link.receive = some entry) : entry.writer = link.peer := by
  have writer := wired.writer_receive linked
  rw [PipeTable.writer?, opened] at writer
  exact Option.some.inj writer

/-- The pipe that a port reads from is open. -/
theorem exists_get?_receive {handle : Handle} {port : Port} {link : Link}
    (linked : fabric.link? handle port = some link) :
    ∃ entry, fabric.pipes.get? link.receive = some entry ∧ entry.writer = link.peer :=
  Option.map_eq_some_iff.1 (wired.writer_receive linked)

/-- No two ports read from one pipe. -/
theorem receive_injective {handle other : Handle} {port place : Port} {first second : Link}
    (here : fabric.link? handle port = some first) (there : fabric.link? other place = some second)
    (same : first.receive = second.receive) : handle = other ∧ port = place := by
  obtain ⟨facing, mirrored⟩ := wired.mirror here
  obtain ⟨opposing, reflected⟩ := wired.mirror there
  obtain ⟨peers, places⟩ := wired.send_injective mirrored reflected same
  rw [peers, places, reflected] at mirrored
  have flips := Option.some.inj mirrored
  have sends : first.send = second.send := (congrArg Link.receive flips).symm
  exact wired.send_injective here there sends

end Wired

/-- What the pipe holds that a port sends to. -/
def sent? (fabric : Fabric) (handle : Handle) (port : Port) : Option Pipe :=
  (fabric.link? handle port).bind fun link => fabric.pipes.pipe? link.send

theorem sent?_eq_some_iff {fabric : Fabric} {handle : Handle} {port : Port} {pipe : Pipe} :
    fabric.sent? handle port = some pipe ↔
      ∃ link entry, fabric.link? handle port = some link ∧
        fabric.pipes.get? link.send = some entry ∧ entry.pipe = pipe := by
  simp [sent?, Option.bind_eq_some_iff, PipeTable.pipe?_eq_some_iff]

theorem sent?_of_get? {fabric : Fabric} {handle : Handle} {port : Port} {link : Link}
    {entry : OpenPipe} (linked : fabric.link? handle port = some link)
    (opened : fabric.pipes.get? link.send = some entry) :
    fabric.sent? handle port = some entry.pipe :=
  sent?_eq_some_iff.2 ⟨link, entry, linked, opened, rfl⟩

theorem sent?_of_unlinked {fabric : Fabric} {handle : Handle} {port : Port}
    (unlinked : fabric.link? handle port = none) : fabric.sent? handle port = none := by
  rw [sent?, unlinked, Option.bind_none]

/-- What no pipe of a port shows cannot be found at the port. -/
theorem sent?_any_eq_false {fabric : Fabric} {handle : Handle} {port : Port} {test : Pipe → Bool}
    (fails : ∀ link entry, fabric.link? handle port = some link →
      fabric.pipes.get? link.send = some entry → test entry.pipe = false) :
    (fabric.sent? handle port).any test = false := by
  cases sends : fabric.sent? handle port with
  | none => rfl
  | some pipe =>
      obtain ⟨link, entry, linked, opened, rfl⟩ := sent?_eq_some_iff.1 sends
      simpa using fails link entry linked opened

/-- Every linked port sends to an open pipe. -/
theorem Wired.isSome_sent? {fabric : Fabric} (wired : fabric.Wired) (handle : Handle)
    (port : Port) : (fabric.sent? handle port).isSome = (fabric.link? handle port).isSome := by
  unfold sent?
  cases linked : fabric.link? handle port with
  | none => rfl
  | some link =>
      obtain ⟨entry, opened, -⟩ := wired.exists_get? linked
      simp [PipeTable.pipe?, opened]

/-- Being wired is a matter of the links and of who writes to which pipe. -/
theorem Wired.of_same {before after : Fabric} (wired : before.Wired)
    (modules : after.modules.Sound) (pipes : after.pipes.Sound)
    (links : ∀ handle port, after.link? handle port = before.link? handle port)
    (writers : ∀ id, after.pipes.writer? id = before.pipes.writer? id) : after.Wired where
  modules := modules
  pipes := pipes
  mirror := by
    intro handle port link linked
    simp only [links] at linked ⊢
    exact wired.mirror linked
  writer := by
    intro handle port link linked
    rw [links] at linked
    rw [writers]
    exact wired.writer linked
  sole := by
    intro handle port other first second here there
    rw [links] at here there
    exact wired.sole here there
  owned := by
    intro id handle opened
    rw [writers] at opened
    simp only [links]
    exact wired.owned opened
  apart := by
    intro handle port link linked
    rw [links] at linked
    exact wired.apart linked

@[simp] theorem link?_empty (handle : Handle) (port : Port) : empty.link? handle port = none := by
  simp [link?, empty]

@[simp] theorem role?_empty (handle : Handle) : empty.role? handle = none := by
  simp [role?, empty]

theorem Wired.empty : Wired empty where
  modules := Arena.Sound.empty
  pipes := PipeTable.Sound.empty
  mirror := by simp
  writer := by simp
  sole := by simp
  owned := by simp [Fabric.empty, PipeTable.writer?]
  apart := by simp

/-! ## Cutting links -/

/-- The fabric after some pipes have been closed together with the links that used them, and after
some modules have been taken away. -/
structure Cut (before after : Fabric) (closed : PipeId → Prop) (removed : Handle → Prop) :
    Prop where
  modules : after.modules.Sound
  pipes : after.pipes.Sound
  role_removed : ∀ {handle}, removed handle → after.role? handle = none
  role_kept : ∀ {handle}, ¬removed handle → after.role? handle = before.role? handle
  link_iff : ∀ {handle port link}, after.link? handle port = some link ↔
    before.link? handle port = some link ∧ ¬closed link.send
  get_closed : ∀ {id}, closed id → after.pipes.get? id = none
  get_kept : ∀ {id}, ¬closed id → after.pipes.get? id = before.pipes.get? id
  both_ways : ∀ {handle port link}, before.link? handle port = some link →
    (closed link.send ↔ closed link.receive)

namespace Cut

variable {before middle after : Fabric} {closed further : PipeId → Prop}
variable {removed gone : Handle → Prop}

theorem refl (modules : before.modules.Sound) (pipes : before.pipes.Sound) :
    Cut before before (fun _ => False) (fun _ => False) where
  modules := modules
  pipes := pipes
  role_removed := by simp
  role_kept := by simp
  link_iff := by simp
  get_closed := by simp
  get_kept := by simp
  both_ways := by simp

theorem trans (first : Cut before middle closed removed) (second : Cut middle after further gone) :
    Cut before after (fun id => closed id ∨ further id)
      (fun handle => removed handle ∨ gone handle) where
  modules := second.modules
  pipes := second.pipes
  role_removed := by
    intro handle either
    by_cases late : gone handle
    · exact second.role_removed late
    · rw [second.role_kept late]
      exact first.role_removed (either.resolve_right late)
  role_kept := by
    intro handle neither
    rw [not_or] at neither
    rw [second.role_kept neither.2, first.role_kept neither.1]
  link_iff := by
    intro handle port link
    rw [second.link_iff, first.link_iff, not_or, and_assoc]
  get_closed := by
    intro id either
    by_cases late : further id
    · exact second.get_closed late
    · rw [second.get_kept late]
      exact first.get_closed (either.resolve_right late)
  get_kept := by
    intro id neither
    rw [not_or] at neither
    rw [second.get_kept neither.2, first.get_kept neither.1]
  both_ways := by
    intro handle port link linked
    have early := first.both_ways linked
    by_cases shut : closed link.send
    · simp [shut, early.1 shut]
    · have kept := second.both_ways (first.link_iff.2 ⟨linked, shut⟩)
      simp [shut, mt early.2 shut, kept]

/-- What is closed and what is removed may be described in other words. -/
theorem congr (cut : Cut before after closed removed)
    (closed_iff : ∀ id, closed id ↔ further id) (removed_iff : ∀ handle, removed handle ↔ gone handle) :
    Cut before after further gone := by
  have closed_eq : closed = further := funext fun id => propext (closed_iff id)
  have removed_eq : removed = gone := funext fun handle => propext (removed_iff handle)
  rw [← closed_eq, ← removed_eq]
  exact cut

/-- Cutting leaves no link half. -/
theorem wired (cut : Cut before after closed removed) (wired : before.Wired) : after.Wired where
  modules := cut.modules
  pipes := cut.pipes
  mirror := by
    intro handle port link linked
    obtain ⟨earlier, kept⟩ := cut.link_iff.1 linked
    obtain ⟨other, mirrored⟩ := wired.mirror earlier
    exact ⟨other, cut.link_iff.2 ⟨mirrored, fun shut => kept ((cut.both_ways earlier).2 shut)⟩⟩
  writer := by
    intro handle port link linked
    obtain ⟨earlier, kept⟩ := cut.link_iff.1 linked
    rw [PipeTable.writer?, cut.get_kept kept]
    exact wired.writer earlier
  sole := by
    intro handle port other first second here there same
    exact wired.sole (cut.link_iff.1 here).1 (cut.link_iff.1 there).1 same
  owned := by
    intro id handle opened
    have kept : ¬closed id := by
      intro shut
      simp [PipeTable.writer?, cut.get_closed shut] at opened
    rw [PipeTable.writer?, cut.get_kept kept] at opened
    obtain ⟨port, link, linked, rfl⟩ := wired.owned opened
    exact ⟨port, link, cut.link_iff.2 ⟨linked, kept⟩, rfl⟩
  apart := by
    intro handle port link linked
    exact wired.apart (cut.link_iff.1 linked).1

end Cut

/-- A pipe belongs to a link at one of some ports of a module. -/
def Touches (fabric : Fabric) (handle : Handle) (ports : List Port) (id : PipeId) : Prop :=
  ∃ port ∈ ports, ∃ link, fabric.link? handle port = some link ∧
    (id = link.send ∨ id = link.receive)

/-- Whether further pipes are named by the links before a cut or by those after it, together with
the cut they are the same. -/
theorem Cut.closed_or_touches_iff {before middle : Fabric} {closed : PipeId → Prop}
    {removed : Handle → Prop} (cut : Cut before middle closed removed) (handle : Handle)
    (ports : List Port) (id : PipeId) :
    closed id ∨ middle.Touches handle ports id ↔ closed id ∨ before.Touches handle ports id := by
  constructor
  · rintro (shut | ⟨port, member, link, linked, either⟩)
    · exact .inl shut
    · exact .inr ⟨port, member, link, (cut.link_iff.1 linked).1, either⟩
  · rintro (shut | ⟨port, member, link, linked, either⟩)
    · exact .inl shut
    · by_cases shut : closed link.send
      · left
        rcases either with rfl | rfl
        · exact shut
        · exact (cut.both_ways linked).1 shut
      · exact .inr ⟨port, member, link, cut.link_iff.2 ⟨linked, shut⟩, either⟩

theorem detachPort_of_unlinked {fabric : Fabric} {handle : Handle} {port : Port}
    (unlinked : fabric.link? handle port = none) : fabric.detachPort handle port = fabric := by
  simp [detachPort, unlinked]

section Detach

variable {fabric : Fabric} {handle : Handle} {port : Port} {link : Link}
variable (linked : fabric.link? handle port = some link)
include linked

theorem get?_detachPort (id : PipeId) :
    (fabric.detachPort handle port).pipes.get? id =
      if id = link.send ∨ id = link.receive then none else fabric.pipes.get? id := by
  simp only [detachPort, linked, setLink, PipeTable.get?_close]
  by_cases sends : id = link.send <;> by_cases receives : id = link.receive <;>
    simp [sends, receives]

theorem role?_detachPort (other : Handle) :
    (fabric.detachPort handle port).role? other = fabric.role? other := by
  rw [← role?_setLink fabric handle port none other]
  simp only [detachPort, linked, role?, Arena.get?_modify]
  by_cases same : other = link.peer
  · subst same
    cases (fabric.setLink handle port none).modules.get? link.peer <;> simp
  · simp [same]

/-- The port is cleared at this end, and at the other end the port that sends back. -/
theorem link?_detachPort (other : Handle) (place : Port) :
    (fabric.detachPort handle port).link? other place =
      if other = handle ∧ place = port then none
      else if other = link.peer then
        (fabric.link? other place).filter fun kept => kept.send ≠ link.receive
      else fabric.link? other place := by
  have cleared : (fabric.setLink handle port none).link? other place =
      if other = handle ∧ place = port then none else fabric.link? other place := by
    rw [link?_setLink]
    cases fabric.role? handle <;> simp
  have filtered : (fabric.detachPort handle port).link? other place =
      if other = link.peer then
        ((fabric.setLink handle port none).link? other place).filter
          fun kept => kept.send ≠ link.receive
      else (fabric.setLink handle port none).link? other place := by
    simp only [detachPort, linked]
    simp only [link?, Arena.get?_modify]
    by_cases same : other = link.peer
    · subst same
      cases (fabric.setLink handle port none).modules.get? link.peer <;> simp
    · simp [same]
  rw [filtered, cleared]
  by_cases here : other = handle ∧ place = port <;> simp [here]

end Detach

namespace Wired

variable {fabric : Fabric} (wired : fabric.Wired)
include wired

/-- A port that sends into a pipe of a link also receives from one: it is one of the two ends. -/
theorem receives_of_sends {handle other : Handle} {port place : Port} {link kept : Link}
    (linked : fabric.link? handle port = some link) (found : fabric.link? other place = some kept)
    (sends : kept.send = link.send ∨ kept.send = link.receive) :
    kept.receive = link.send ∨ kept.receive = link.receive := by
  rcases sends with forth | back
  · obtain ⟨rfl, rfl⟩ := wired.send_injective found linked forth
    rw [found] at linked
    cases Option.some.inj linked
    exact .inr rfl
  · obtain ⟨facing, mirrored⟩ := wired.mirror linked
    obtain ⟨rfl, rfl⟩ := wired.send_injective found mirrored back
    rw [found] at mirrored
    cases Option.some.inj mirrored
    exact .inl rfl

theorem sends_of_receives {handle other : Handle} {port place : Port} {link kept : Link}
    (linked : fabric.link? handle port = some link) (found : fabric.link? other place = some kept)
    (receives : kept.receive = link.send ∨ kept.receive = link.receive) :
    kept.send = link.send ∨ kept.send = link.receive := by
  obtain ⟨facing, mirrored⟩ := wired.mirror found
  exact wired.receives_of_sends linked mirrored receives

/-- The links that are left are those that send to neither of the two pipes. -/
theorem link?_detachPort_eq_some_iff {handle other : Handle} {port place : Port} {link kept : Link}
    (linked : fabric.link? handle port = some link) :
    (fabric.detachPort handle port).link? other place = some kept ↔
      fabric.link? other place = some kept ∧ ¬(kept.send = link.send ∨ kept.send = link.receive) := by
  rw [link?_detachPort linked]
  by_cases here : other = handle ∧ place = port
  · rw [if_pos here, here.1, here.2, linked]
    simp only [reduceCtorEq, Option.some.injEq, false_iff, not_and, not_not]
    rintro rfl
    exact .inl rfl
  · have no_send : fabric.link? other place = some kept → kept.send ≠ link.send :=
      fun found same => here (wired.send_injective found linked same)
    rw [if_neg here]
    by_cases peer : other = link.peer
    · rw [if_pos peer, Option.filter_eq_some_iff]
      refine and_congr_right fun found => ?_
      simp [no_send found]
    · have no_receive : fabric.link? other place = some kept → kept.send ≠ link.receive := by
        intro found same
        obtain ⟨facing, mirrored⟩ := wired.mirror linked
        exact peer (wired.send_injective found mirrored same).1
      rw [if_neg peer]
      refine (and_iff_left_of_imp fun found => ?_).symm
      simp [no_send found, no_receive found]

/-- Detaching a port closes the two pipes of its link, and no other link is lost. -/
theorem detachPort (handle : Handle) (port : Port) :
    Cut fabric (fabric.detachPort handle port) (fabric.Touches handle [port])
      (fun _ => False) := by
  cases linked : fabric.link? handle port with
  | none =>
      rw [detachPort_of_unlinked linked]
      exact (Cut.refl wired.modules wired.pipes).congr (by simp [Touches, linked]) (by simp)
  | some link =>
      have closed_iff : fabric.Touches handle [port] =
          fun id => id = link.send ∨ id = link.receive := by
        funext id
        simp [Touches, linked]
      rw [closed_iff]
      refine
        { modules := ?_
          pipes := ?_
          role_removed := by simp
          role_kept := fun _ => role?_detachPort linked _
          link_iff := wired.link?_detachPort_eq_some_iff linked
          get_closed := ?_
          get_kept := ?_
          both_ways := fun found =>
            ⟨wired.receives_of_sends linked found, wired.sends_of_receives linked found⟩ }
      · simp only [Fabric.detachPort, linked]
        exact (wired.modules.modify _ _).modify _ _
      · simp only [Fabric.detachPort, linked]
        exact (wired.pipes.close _).close _
      · intro id shut
        rw [get?_detachPort linked, if_pos shut]
      · intro id kept
        rw [get?_detachPort linked, if_neg kept]

/-- Detaching several ports closes the pipes of all their links. -/
theorem detachPorts (handle : Handle) (ports : List Port) :
    Cut fabric (ports.foldl (fun after port => after.detachPort handle port) fabric)
      (fabric.Touches handle ports) (fun _ => False) := by
  induction ports generalizing fabric with
  | nil => exact (Cut.refl wired.modules wired.pipes).congr (by simp [Touches]) (by simp)
  | cons port rest ih =>
      have first := wired.detachPort handle port
      refine (first.trans (ih (first.wired wired))).congr ?_ (by simp)
      intro id
      rw [first.closed_or_touches_iff]
      simp [Touches]

/-- Taking away a module without links changes nothing else. -/
theorem removeUnlinked {handle : Handle} (unlinked : ∀ port, fabric.link? handle port = none) :
    Cut fabric { fabric with modules := (fabric.modules.remove handle).2 } (fun _ => False)
      (fun other => other = handle) where
  modules := wired.modules.remove handle
  pipes := wired.pipes
  role_removed := by
    rintro other rfl
    simp [role?, Arena.get?_remove]
  role_kept := by
    intro other kept
    simp [role?, Arena.get?_remove, kept]
  link_iff := by
    intro other port link
    by_cases same : other = handle
    · subst same
      have gone : Fabric.link? { fabric with modules := (fabric.modules.remove other).2 } other port =
          none := by simp [link?, Arena.get?_remove]
      simp [gone, unlinked]
    · simp [link?, Arena.get?_remove, same]
  get_closed := by simp
  get_kept := by simp
  both_ways := by simp

/-- Removing a module closes the pipes of all its links. -/
theorem removeModule (handle : Handle) :
    Cut fabric (fabric.removeModule handle) (fabric.Touches handle Port.all)
      (fun other => other = handle) := by
  have freed := wired.detachPorts handle Port.all
  have unlinked : ∀ port, Fabric.link?
      (Port.all.foldl (fun after port => after.detachPort handle port) fabric) handle port =
        none := by
    intro port
    refine Option.eq_none_iff_forall_not_mem.2 fun link linked => ?_
    obtain ⟨earlier, kept⟩ := freed.link_iff.1 linked
    exact kept ⟨port, by simp, link, earlier, .inl rfl⟩
  exact (freed.trans ((freed.wired wired).removeUnlinked unlinked)).congr (by simp) (by simp)

end Wired

/-! ## Making links -/

/-- The fabric after a link between two ports has been made over two pipes. -/
structure Linked (before after : Fabric) (first : Handle) (firstPort : Port) (second : Handle)
    (secondPort : Port) (forth back : PipeId) : Prop where
  modules : after.modules.Sound
  pipes : after.pipes.Sound
  role : ∀ handle, after.role? handle = before.role? handle
  fresh_forth : before.pipes.get? forth = none
  fresh_back : before.pipes.get? back = none
  distinct : forth ≠ back
  link : ∀ handle port, after.link? handle port =
    if handle = first ∧ port = firstPort then some ⟨forth, back, second⟩
    else if handle = second ∧ port = secondPort then some ⟨back, forth, first⟩
    else before.link? handle port
  get : ∀ id, after.pipes.get? id =
    if id = forth then some ⟨.empty, first, false⟩
    else if id = back then some ⟨.empty, second, false⟩
    else before.pipes.get? id

/-- Two modules that exist can be linked at two different ports. -/
theorem Linked.of_connect {fabric : Fabric} (modules : fabric.modules.Sound)
    (pipes : fabric.pipes.Sound) {first second : Handle} (firstPort secondPort : Port)
    {firstRole secondRole : Role}
    (firstFound : fabric.role? first = some firstRole)
    (secondFound : fabric.role? second = some secondRole)
    (different : ¬(first = second ∧ firstPort = secondPort)) :
    ∃ forth back, Linked fabric (fabric.connect first firstPort second secondPort) first firstPort
      second secondPort forth back := by
  have opened := pipes.openFor first
  have back_fresh := opened.get?_openFor_fst second
  rw [pipes.get?_openFor] at back_fresh
  refine ⟨(fabric.pipes.openFor first).1, ((fabric.pipes.openFor first).2.openFor second).1, ?_⟩
  have distinct :
      ((fabric.pipes.openFor first).2.openFor second).1 ≠ (fabric.pipes.openFor first).1 := by
    intro same
    simp [same] at back_fresh
  rw [if_neg distinct] at back_fresh
  exact
    { modules := (modules.modify _ _).modify _ _
      pipes := opened.openFor second
      role := by
        intro handle
        simp only [Fabric.connect, role?_setLink]
        rfl
      fresh_forth := pipes.get?_openFor_fst first
      fresh_back := back_fresh
      distinct := distinct.symm
      link := by
        intro handle port
        have roles : ∀ handle, Fabric.role? { fabric with
            pipes := ((fabric.pipes.openFor first).2.openFor second).2 } handle =
              fabric.role? handle := fun _ => rfl
        simp only [Fabric.connect, link?_setLink, role?_setLink, roles, firstFound, secondFound,
          Option.bind_some]
        by_cases atFirst : handle = first ∧ port = firstPort
        · have notSecond : ¬(handle = second ∧ port = secondPort) := by
            rintro ⟨rfl, rfl⟩
            exact different ⟨atFirst.1.symm, atFirst.2.symm⟩
          rw [if_neg notSecond, if_pos atFirst, if_pos atFirst]
        · rw [if_neg atFirst, if_neg atFirst]
          rfl
      get := by
        intro id
        simp only [Fabric.connect, setLink, opened.get?_openFor, pipes.get?_openFor]
        by_cases forth : id = (fabric.pipes.openFor first).1
        · simp [forth, distinct.symm]
        · simp [forth] }

namespace Linked

variable {before after : Fabric} {first second : Handle} {firstPort secondPort : Port}
variable {forth back : PipeId}
variable (made : Linked before after first firstPort second secondPort forth back)
include made

/-- Every link is new, in one of its two directions, or was there before. -/
theorem cases {handle : Handle} {port : Port} {link : Link}
    (linked : after.link? handle port = some link) :
    (handle = first ∧ port = firstPort ∧ link = ⟨forth, back, second⟩) ∨
      (handle = second ∧ port = secondPort ∧ link = ⟨back, forth, first⟩) ∨
      before.link? handle port = some link := by
  rw [made.link] at linked
  by_cases atFirst : handle = first ∧ port = firstPort
  · rw [if_pos atFirst, Option.some.injEq] at linked
    exact .inl ⟨atFirst.1, atFirst.2, linked.symm⟩
  · rw [if_neg atFirst] at linked
    by_cases atSecond : handle = second ∧ port = secondPort
    · rw [if_pos atSecond, Option.some.injEq] at linked
      exact .inr (.inl ⟨atSecond.1, atSecond.2, linked.symm⟩)
    · rw [if_neg atSecond] at linked
      exact .inr (.inr linked)

/-- A link that was there before uses neither of the new pipes. -/
theorem old_send (wired : before.Wired) {handle : Handle} {port : Port} {link : Link}
    (old : before.link? handle port = some link) : link.send ≠ forth ∧ link.send ≠ back := by
  have opened := wired.writer old
  constructor
  · intro same
    simp [PipeTable.writer?, same, made.fresh_forth] at opened
  · intro same
    simp [PipeTable.writer?, same, made.fresh_back] at opened

theorem writer_of_old {id : PipeId} (forth_ne : id ≠ forth) (back_ne : id ≠ back) :
    after.pipes.writer? id = before.pipes.writer? id := by
  simp [PipeTable.writer?, made.get, forth_ne, back_ne]

section Free

variable (freeFirst : before.link? first firstPort = none)
variable (freeSecond : before.link? second secondPort = none)
include freeFirst freeSecond

/-- Linking free ports leaves the links of all other ports. -/
theorem link_of_old {handle : Handle} {port : Port} {link : Link}
    (old : before.link? handle port = some link) : after.link? handle port = some link := by
  have notFirst : ¬(handle = first ∧ port = firstPort) := by
    rintro ⟨rfl, rfl⟩
    simp [freeFirst] at old
  have notSecond : ¬(handle = second ∧ port = secondPort) := by
    rintro ⟨rfl, rfl⟩
    simp [freeSecond] at old
  rw [made.link, if_neg notFirst, if_neg notSecond, old]

theorem wired (wired : before.Wired) (different : ¬(first = second ∧ firstPort = secondPort)) :
    after.Wired := by
  have atFirst : after.link? first firstPort = some ⟨forth, back, second⟩ := by simp [made.link]
  have atSecond : after.link? second secondPort = some ⟨back, forth, first⟩ := by
    have notFirst : ¬(second = first ∧ secondPort = firstPort) :=
      fun same => different ⟨same.1.symm, same.2.symm⟩
    simp [made.link, notFirst]
  constructor
  case modules => exact made.modules
  case pipes => exact made.pipes
  case mirror =>
    intro handle port link linked
    rcases made.cases linked with ⟨rfl, rfl, rfl⟩ | ⟨rfl, rfl, rfl⟩ | old
    · exact ⟨secondPort, atSecond⟩
    · exact ⟨firstPort, atFirst⟩
    · obtain ⟨other, mirrored⟩ := wired.mirror old
      exact ⟨other, made.link_of_old freeFirst freeSecond mirrored⟩
  case writer =>
    intro handle port link linked
    rcases made.cases linked with ⟨rfl, rfl, rfl⟩ | ⟨rfl, rfl, rfl⟩ | old
    · simp [PipeTable.writer?, made.get]
    · simp [PipeTable.writer?, made.get, made.distinct.symm]
    · have older := made.old_send wired old
      rw [made.writer_of_old older.1 older.2]
      exact wired.writer old
  case sole =>
    intro handle port other one two here there same
    rcases made.cases here with ⟨rfl, rfl, rfl⟩ | ⟨rfl, rfl, rfl⟩ | old <;>
      rcases made.cases there with ⟨-, rfl, rfl⟩ | ⟨-, rfl, rfl⟩ | young
    · rfl
    · exact absurd same made.distinct
    · exact absurd same.symm (made.old_send wired young).1
    · exact absurd same.symm made.distinct
    · rfl
    · exact absurd same.symm (made.old_send wired young).2
    · exact absurd same (made.old_send wired old).1
    · exact absurd same (made.old_send wired old).2
    · exact wired.sole old young same
  case owned =>
    intro id handle opened
    by_cases forth_eq : id = forth
    · subst forth_eq
      simp only [PipeTable.writer?, made.get, if_true, Option.map_some, Option.some.injEq] at opened
      exact ⟨firstPort, _, opened ▸ atFirst, rfl⟩
    · by_cases back_eq : id = back
      · subst back_eq
        simp only [PipeTable.writer?, made.get, forth_eq, if_false, if_true, Option.map_some,
          Option.some.injEq] at opened
        exact ⟨secondPort, _, opened ▸ atSecond, rfl⟩
      · rw [made.writer_of_old forth_eq back_eq] at opened
        obtain ⟨port, link, linked, sends⟩ := wired.owned opened
        exact ⟨port, link, made.link_of_old freeFirst freeSecond linked, sends⟩
  case apart =>
    intro handle port link linked
    rcases made.cases linked with ⟨-, -, rfl⟩ | ⟨-, -, rfl⟩ | old
    · exact made.distinct
    · exact made.distinct.symm
    · exact wired.apart old

end Free

end Linked

end Fabric

end NodeGrid
