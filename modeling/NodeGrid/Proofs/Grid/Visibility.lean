import NodeGrid.Proofs.Fabric.Census
import NodeGrid.Proofs.Fabric.Motion
import NodeGrid.Proofs.Grid.Delivery

/-!
# What can be claimed in a tick

A module can only claim what was ready when the tick began: nothing becomes ready before the commit,
whatever else happens to the pipe in the meantime.  Since a claim leaves its mark for the rest of the
tick and a module acts once, no pipe is claimed from twice and no module claims twice.
-/

namespace NodeGrid

namespace Act

/-- The pipes that an action marks as claimed. -/
def claimed (act : Act) : List PipeId :=
  act.before.pipes.openIds.filter fun id =>
    act.after.pipes.pipe? id = some .claimed ∧ act.before.pipes.pipe? id ≠ some .claimed

variable {act : Act} {id : PipeId}

/-- The pipe that is marked is the one that the actor takes a word from. -/
theorem mem_claimed_iff : id ∈ act.claimed ↔ act.before.drawn? act.actor = some id := by
  have moves := act.before.moves_stepModule act.actor
  simp only [claimed, List.mem_filter, decide_eq_true_eq, PipeTable.mem_openIds]
  constructor
  · rintro ⟨-, marked, unmarked⟩
    obtain ⟨later, opened, holds⟩ := PipeTable.pipe?_eq_some_iff.1 marked
    obtain ⟨entry, earlier, -, moved⟩ := moves id later opened
    rw [holds] at moved
    generalize before : entry.pipe = pipe at moved
    cases moved with
    | stay => exact absurd (PipeTable.pipe?_eq_some_iff.2 ⟨entry, earlier, before⟩) unmarked
    | take value draws => exact draws
  · intro draws
    obtain ⟨value, ready⟩ := Fabric.ready_of_drawn draws
    obtain ⟨entry, opened, -⟩ := PipeTable.pipe?_eq_some_iff.1 ready
    exact ⟨⟨entry, opened⟩, Fabric.claimed_of_drawn draws, by simp [ready]⟩

theorem claimed_eq (act : Act) : act.claimed = (act.before.drawn? act.actor).toList := by
  have same : act.claimed.Perm (act.before.drawn? act.actor).toList := by
    refine (List.perm_ext_iff_of_nodup (act.before.pipes.openIds_nodup.filter _) ?_).2 ?_
    · cases act.before.drawn? act.actor <;> simp
    · exact fun id => mem_claimed_iff.trans Option.mem_toList.symm
  cases draws : act.before.drawn? act.actor with
  | none =>
      rw [draws] at same
      exact same.eq_nil
  | some id =>
      rw [draws] at same
      exact List.perm_singleton.1 same

/-- What an action claims was ready when the module acted. -/
theorem ready_of_mem_claimed (member : id ∈ act.claimed) :
    ∃ value, act.before.pipes.pipe? id = some (.ready value) ∧ act.claim? id = some value := by
  have draws := mem_claimed_iff.1 member
  obtain ⟨value, ready⟩ := Fabric.ready_of_drawn draws
  refine ⟨value, ready, ?_⟩
  rw [claim?, show act.after.pipes.pipe? id = _ from Fabric.claimed_of_drawn draws, if_pos rfl,
    ready]
  rfl

end Act

namespace Fabric

theorem ready_of_stepModule {fabric : Fabric} {handle : Handle} {id : PipeId} {value : Word}
    (ready : (fabric.stepModule handle).pipes.pipe? id = some (.ready value)) :
    fabric.pipes.pipe? id = some (.ready value) := by
  obtain ⟨later, opened, holds⟩ := PipeTable.pipe?_eq_some_iff.1 ready
  obtain ⟨entry, earlier, -, moves⟩ := fabric.moves_stepModule handle id later opened
  exact PipeTable.pipe?_eq_some_iff.2 ⟨entry, earlier, moves.eq_of_ready holds⟩

theorem claimed_stepModule {fabric : Fabric} {id : PipeId}
    (marked : fabric.pipes.pipe? id = some .claimed) (handle : Handle) :
    (fabric.stepModule handle).pipes.pipe? id = some .claimed :=
  (fabric.moves_stepModule handle).claimed (fabric.alike_stepModule handle) marked

/-- What is ready for some action of a phase was ready when the phase began. -/
theorem ready_of_mem_acts {fabric : Fabric} {handles : List Handle} {act : Act}
    (member : act ∈ fabric.acts handles) {id : PipeId} {value : Word}
    (ready : act.before.pipes.pipe? id = some (.ready value)) :
    fabric.pipes.pipe? id = some (.ready value) := by
  induction handles generalizing fabric with
  | nil => cases member
  | cons handle rest ih =>
      rcases List.mem_cons.1 member with rfl | later
      · exact ready
      · exact ready_of_stepModule (ih later)

/-- A pipe that is marked is claimed from by nobody in the rest of the phase. -/
theorem not_mem_claimed_of_marked {fabric : Fabric} {handles : List Handle} {act : Act}
    (member : act ∈ fabric.acts handles) {id : PipeId}
    (marked : fabric.pipes.pipe? id = some .claimed) : id ∉ act.claimed := by
  induction handles generalizing fabric with
  | nil => cases member
  | cons handle rest ih =>
      rcases List.mem_cons.1 member with rfl | later
      · intro claims
        obtain ⟨value, ready, -⟩ := Act.ready_of_mem_claimed claims
        cases marked.symm.trans ready
      · exact ih later (claimed_stepModule marked handle)

/-- No pipe is claimed from twice in a phase. -/
theorem claimed_nodup (fabric : Fabric) (handles : List Handle) :
    ((fabric.acts handles).flatMap Act.claimed).Nodup := by
  induction handles generalizing fabric with
  | nil => exact List.nodup_nil
  | cons handle rest ih =>
      rw [acts, List.flatMap_cons, List.nodup_append']
      refine ⟨?_, ih _, ?_⟩
      · rw [Act.claimed_eq]
        cases Fabric.drawn? _ _ <;> simp
      · intro id now later
        obtain ⟨act, member, claims⟩ := List.mem_flatMap.1 later
        exact not_mem_claimed_of_marked member (claimed_of_drawn (Act.mem_claimed_iff.1 now)) claims

theorem actor_mem_of_mem_acts {fabric : Fabric} {handles : List Handle} {act : Act}
    (member : act ∈ fabric.acts handles) : act.actor ∈ handles := by
  induction handles generalizing fabric with
  | nil => cases member
  | cons handle rest ih =>
      rcases List.mem_cons.1 member with rfl | later
      · exact List.mem_cons_self
      · exact List.mem_cons_of_mem handle (ih later)

/-- A module that acts once in a phase claims at most one word. -/
theorem length_claimed_le (fabric : Fabric) {handles : List Handle} (nodup : handles.Nodup)
    (reader : Handle) :
    (((fabric.acts handles).filter (·.actor = reader)).flatMap Act.claimed).length ≤ 1 := by
  induction handles generalizing fabric with
  | nil => simp [acts]
  | cons handle rest ih =>
      obtain ⟨fresh, others⟩ := List.nodup_cons.1 nodup
      rw [acts, List.filter_cons]
      by_cases same : handle = reader
      · subst same
        have silent : ((fabric.stepModule handle).acts rest).filter (·.actor = handle) = [] := by
          refine List.filter_eq_nil_iff.2 fun act member same => fresh ?_
          rw [← of_decide_eq_true same]
          exact actor_mem_of_mem_acts member
        rw [if_pos (by simp), silent, List.flatMap_cons, List.flatMap_nil, List.append_nil,
          Act.claimed_eq]
        cases fabric.drawn? handle <;> simp
      · rw [if_neg (by simpa using same)]
        exact ih _ others

end Fabric

end NodeGrid
