import NodeGrid.Proofs.Fabric.Pairs
import NodeGrid.Proofs.Fabric.Trace

/-!
# What a forwarder pair conveys

A word that a half takes from its node is in the same action put into the pipe toward the other node,
which is empty then, and nobody else writes to that pipe.  So in every action the words that come in
at one end of a pair are the words that go out at the other end and the one that is on its way.
-/

namespace NodeGrid

namespace Fabric

/-- The words on their way in a pipe. -/
def transit (fabric : Fabric) (id : PipeId) : List Word :=
  ((fabric.pipes.pipe? id).bind (·.word?)).toList

theorem transit_of_pipe? {fabric : Fabric} {id : PipeId} {pipe : Pipe}
    (holds : fabric.pipes.pipe? id = some pipe) : fabric.transit id = pipe.word?.toList := by
  rw [transit, holds, Option.bind_some]

theorem transit_commit (fabric : Fabric) (id : PipeId) :
    fabric.commit.transit id = fabric.transit id := by
  unfold transit
  rw [pipe?_commit]
  cases fabric.pipes.pipe? id <;> simp

/-- The only pipe of a forwarder holds no copies of a word in another pipe. -/
theorem Single.drains {fabric : Fabric} (single : fabric.Single) (wired : fabric.Wired)
    {id : PipeId} {entry : OpenPipe} {half : Forwarder}
    (opened : fabric.pipes.get? id = some entry)
    (role : fabric.role? entry.writer = some (.forwarder half)) : fabric.Drains id entry := by
  intro drawn taken value found ready different
  have writers : taken.writer ≠ entry.writer := by
    intro same
    obtain ⟨port, link, linked, rfl⟩ := wired.exists_send opened
    obtain ⟨place, facing, there, rfl⟩ := wired.exists_send found
    rw [same] at there
    cases single role linked there
    rw [linked] at there
    cases there
    exact different rfl
  rw [if_neg writers, OpenPipe.bereft_of_ne writers.symm]

/-- Two halves are not the sibling of any third forwarder that has a link. -/
structure Unrivalled (fabric : Fabric) (near far : Handle) : Prop where
  near_only : ∀ {other port link}, fabric.link? other port = some link →
    fabric.role? other = some (.forwarder ⟨some near⟩) → other = far
  far_only : ∀ {other port link}, fabric.link? other port = some link →
    fabric.role? other = some (.forwarder ⟨some far⟩) → other = near

/-- Links that do not change and forwarders that get no other sibling make no rival. -/
theorem Unrivalled.of_same {fabric after : Fabric} {near far : Handle}
    (unrivalled : Unrivalled fabric near far)
    (links : ∀ handle port, after.link? handle port = fabric.link? handle port)
    (forwarders : ∀ {handle other}, after.role? handle = some (.forwarder ⟨some other⟩) →
      fabric.role? handle = some (.forwarder ⟨some other⟩)) :
    Unrivalled after near far where
  near_only := fun linked role => unrivalled.near_only (links _ _ ▸ linked) (forwarders role)
  far_only := fun linked role => unrivalled.far_only (links _ _ ▸ linked) (forwarders role)

/-- Two linked halves of a pair, which no other forwarder that has a link takes for its sibling. -/
structure Exclusive (fabric : Fabric) (near far : Handle) (own onward : Link) : Prop extends
    Paired fabric near far own onward, Unrivalled fabric near far

namespace Exclusive

variable {fabric : Fabric} {near far : Handle} {own onward : Link}

theorem symm (pair : Exclusive fabric near far own onward) :
    Exclusive fabric far near onward own :=
  ⟨pair.toPaired.symm, pair.far_only, pair.near_only⟩

/-- The halves stay a pair as long as no forwarder gets another sibling and no link changes. -/
theorem of_same {after : Fabric} (pair : Exclusive fabric near far own onward)
    (links : ∀ handle port, after.link? handle port = fabric.link? handle port)
    (near_role : after.role? near = some (.forwarder ⟨some far⟩))
    (far_role : after.role? far = some (.forwarder ⟨some near⟩))
    (forwarders : ∀ {handle other}, after.role? handle = some (.forwarder ⟨some other⟩) →
      fabric.role? handle = some (.forwarder ⟨some other⟩)) :
    Exclusive after near far own onward where
  near_role := near_role
  far_role := far_role
  near_link := (forwarderLink?_congr pair.near_role near_role (links near)).trans pair.near_link
  far_link := (forwarderLink?_congr pair.far_role far_role (links far)).trans pair.far_link
  toUnrivalled := pair.toUnrivalled.of_same links forwarders

theorem commit (pair : Exclusive fabric near far own onward) :
    Exclusive fabric.commit near far own onward :=
  pair.of_same (link?_commit fabric) pair.near_role pair.far_role fun role => role

variable (lawful : fabric.Lawful) (pair : Exclusive fabric near far own onward)
include lawful pair

theorem stepModule (actor : Handle) :
    Exclusive (fabric.stepModule actor) near far own onward := by
  apply pair.of_same (link?_stepModule fabric actor)
  case near_role =>
    by_cases isNear : near = actor
    · exact isNear ▸ (pair.toPaired.stepModule lawful).near_role
    · exact (role?_stepModule_of_ne isNear).trans pair.near_role
  case far_role =>
    by_cases isFar : far = actor
    · exact isFar ▸ (pair.toPaired.symm.stepModule lawful).near_role
    · exact (role?_stepModule_of_ne isFar).trans pair.far_role
  case forwarders =>
    intro handle other role
    obtain ⟨earlier, was, rfl | forgot⟩ := exists_forwarder_of_stepModule role
    · exact was
    · simp at forgot

end Exclusive

end Fabric

namespace Act

/-- The word that an action claims from a pipe, if it is the action of a given reader. -/
def taken? (act : Act) (reader : Handle) (id : PipeId) : Option Word :=
  if act.actor = reader then act.claim? id else none

theorem taken?_of_ne {act : Act} {reader : Handle} (different : act.actor ≠ reader)
    (id : PipeId) : act.taken? reader id = none :=
  if_neg different

section Conveyed

variable {act : Act} {near far : Handle} {own onward : Link}
variable (lawful : act.before.Lawful) (pair : act.before.Exclusive near far own onward)
include lawful pair

/-- What a half takes from its node is on its way to the other node. -/
theorem conveyed_near (isNear : act.actor = near) :
    act.before.transit onward.send ++ (act.claim? own.receive).toList =
      act.after.transit onward.send := by
  subst isNear
  obtain ⟨sends, apart, crosses, -⟩ := pair.ids_ne lawful
  obtain ⟨_, _, near_in, _, -, farOut, nearIn, -⟩ := pair.exists_pipes lawful
  obtain ⟨out, outOpened, rfl⟩ := PipeTable.pipe?_eq_some_iff.1 farOut
  have outNow : act.after.pipes.pipe? onward.send = _ := pair.pipe?_stepModule lawful outOpened
  have inNow : act.after.pipes.pipe? own.receive = _ := pair.pipe?_stepModule lawful nearIn
  cases carries : act.before.pipes.carried own onward with
  | none =>
      simp only [carries, Link.passed, sends.symm, apart.symm, if_false] at outNow inNow
      have nothing : act.claim? own.receive = none := by
        rw [claim?, inNow, PipeTable.peek?_of_get? nearIn]
        cases near_in.pipe <;> simp [Pipe.peek?]
      rw [nothing, Option.toList_none, List.append_nil, Fabric.transit, Fabric.transit, farOut,
        outNow]
  | some value =>
      obtain ⟨room, peeked⟩ := Option.ite_none_right_eq_some.1 (show _ = _ from carries)
      simp only [carries, Link.passed, sends.symm, apart.symm, crosses, if_true, if_false]
        at outNow inNow
      rw [claim?, inNow, if_pos rfl, peeked, Fabric.transit_of_pipe? room,
        Fabric.transit_of_pipe? outNow]
      rfl

/-- The other half takes nothing from what is on its way. -/
theorem conveyed_far (isFar : act.actor = far) :
    act.before.transit onward.send = act.after.transit onward.send := by
  subst isFar
  obtain ⟨_, _, _, _, -, farOut, -⟩ := pair.exists_pipes lawful
  obtain ⟨out, outOpened, rfl⟩ := PipeTable.pipe?_eq_some_iff.1 farOut
  have outNow : act.after.pipes.pipe? onward.send = _ := pair.symm.pipe?_stepModule lawful outOpened
  simp only [Link.passed, if_true] at outNow
  rw [Fabric.transit_of_pipe? farOut, Fabric.transit_of_pipe? outNow, Pipe.word?_acknowledged]

/-- A module that is no half of the pair takes a word from the pipe or leaves it alone. -/
theorem get?_stepModule_far (single : act.before.Single) (notNear : act.actor ≠ near)
    (notFar : act.actor ≠ far) {entry : OpenPipe}
    (opened : act.before.pipes.get? onward.send = some entry) :
    act.after.pipes.get? onward.send =
      some (if act.before.drawn? act.actor = some onward.send then { entry with pipe := .claimed }
      else entry) := by
  obtain ⟨-, ⟨port, linked⟩, -⟩ := pair.ends lawful
  have writer : entry.writer = far := lawful.wired.writer_eq linked opened
  have drains := single.drains lawful.wired opened (writer ▸ pair.far_role)
  have stepped : act.after.pipes.get? onward.send =
      some (act.before.drained act.actor onward.send entry) := by
    apply drains.get?_stepModule_foreign lawful.wired opened
    case foreign => exact fun same => notFar (same.symm.trans writer)
    case unrelayed =>
      rintro place facing ⟨_⟩ other link here role rfl - same
      exact notNear (pair.far_only here (writer ▸ same ▸ role))
  rw [stepped, Fabric.drained]
  by_cases draws : act.before.drawn? act.actor = some onward.send
  · rw [if_pos draws, if_pos draws]
  · -- The half writes to no other pipe that its words could be taken from.
    have gives : act.before.giver? act.actor ≠ some entry.writer := by
      intro gives
      obtain ⟨drawn, takes, owned⟩ := Option.bind_eq_some_iff.1 gives
      obtain ⟨place, facing, there, rfl⟩ := lawful.wired.owned owned
      rw [writer] at there
      cases single pair.far_role linked there
      rw [linked] at there
      cases there
      exact draws takes
    rw [if_neg draws, if_neg draws, if_neg gives]

/-- What another module takes from the pipe was on its way in it, and only the node at its end takes
anything. -/
theorem conveyed_other (single : act.before.Single) (notNear : act.actor ≠ near)
    (notFar : act.actor ≠ far) :
    act.before.transit onward.send =
      (act.taken? onward.peer onward.send).toList ++ act.after.transit onward.send := by
  obtain ⟨-, ⟨port, linked⟩, -⟩ := pair.ends lawful
  obtain ⟨entry, opened, -⟩ := lawful.wired.exists_get? linked
  have stepped := get?_stepModule_far lawful pair single notNear notFar opened
  have holds := PipeTable.pipe?_eq_some_iff.2 ⟨entry, opened, rfl⟩
  by_cases draws : act.before.drawn? act.actor = some onward.send
  · rw [if_pos draws] at stepped
    obtain ⟨place, facing, taken, value, here, receives, held, ready⟩ :=
      lawful.wired.ready_of_drawn draws
    rw [opened] at held
    cases held
    have reader : act.actor = onward.peer := by
      obtain ⟨back, mirrored⟩ := lawful.wired.mirror linked
      exact (lawful.wired.receive_injective here mirrored receives).1
    have now := PipeTable.pipe?_eq_some_iff.2 ⟨_, stepped, rfl⟩
    rw [taken?, if_pos reader, claim?, now, if_pos rfl, PipeTable.peek?_of_get? opened,
      Fabric.transit_of_pipe? holds, Fabric.transit_of_pipe? now, ready]
    rfl
  · rw [if_neg draws] at stepped
    have nothing : act.taken? onward.peer onward.send = none := by
      have unclaimed : act.claim? onward.send = none := by
        apply claim?_eq_none opened stepped
        intro claimed
        rw [claimed]
        rfl
      rw [taken?, unclaimed, ite_self]
    have now := PipeTable.pipe?_eq_some_iff.2 ⟨_, stepped, rfl⟩
    rw [nothing, Fabric.transit_of_pipe? holds, Fabric.transit_of_pipe? now]
    rfl

/-- Whoever acts, what was on its way and what the half takes now is what the other node takes now
and what is on its way afterwards. -/
theorem conveyed (single : act.before.Single) :
    act.before.transit onward.send ++ (act.taken? near own.receive).toList =
      (act.taken? onward.peer onward.send).toList ++ act.after.transit onward.send := by
  obtain ⟨peer_ne_far, peer_ne_near⟩ := pair.symm.peer_ne lawful
  by_cases isNear : act.actor = near
  · have unread : act.actor ≠ onward.peer := isNear ▸ peer_ne_near.symm
    rw [taken?_of_ne unread, taken?, if_pos isNear, conveyed_near lawful pair isNear]
    rfl
  · rw [taken?_of_ne isNear, Option.toList_none, List.append_nil]
    by_cases isFar : act.actor = far
    · have unread : act.actor ≠ onward.peer := isFar ▸ peer_ne_far.symm
      rw [taken?_of_ne unread, conveyed_far lawful pair isFar]
      rfl
    · exact conveyed_other lawful pair single isNear isFar

end Conveyed

end Act

end NodeGrid
