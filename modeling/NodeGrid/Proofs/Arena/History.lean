import NodeGrid.Proofs.Arena
import Mathlib.Algebra.Group.Nat.Defs
import Mathlib.Data.List.Induction

/-!
# The history of an arena

Values are inserted, removed and overwritten in any order, under handles that may be stale or made
up.  What the arena then finds under a handle is told by what has been asked of it, as if it were a
map that takes a new key for every value.  That holds until a slot has been used again so often that
its generation wraps around.
-/

namespace NodeGrid.Arena

variable {α : Type}

/-- Something asked of an arena. -/
inductive Call (α : Type) where
  | insert (value : α)
  | remove (handle : Handle)
  | write (handle : Handle) (value : α)
  deriving DecidableEq, Repr

/-- A call, with the handle that a new value was given. -/
inductive Event (α : Type) where
  | inserted (handle : Handle) (value : α)
  | removed (handle : Handle)
  | written (handle : Handle) (value : α)
  deriving DecidableEq, Repr

/-- The event that a call will be. -/
def event (arena : Arena α) : Call α → Event α
  | .insert value => .inserted (arena.insert value).1 value
  | .remove handle => .removed handle
  | .write handle value => .written handle value

/-- The arena after a call. -/
def serve (arena : Arena α) : Call α → Arena α
  | .insert value => (arena.insert value).2
  | .remove handle => (arena.remove handle).2
  | .write handle value => arena.modify handle fun _ => value

/-- The events so far, the latest first, and the arena that they have led to. -/
structure Trace (α : Type) where
  events : List (Event α)
  arena : Arena α

namespace Trace

/-- The trace after one more call. -/
def record (trace : Trace α) (call : Call α) : Trace α :=
  ⟨trace.arena.event call :: trace.events, trace.arena.serve call⟩

/-- The trace of some calls on an arena without values. -/
def of (calls : List (Call α)) : Trace α :=
  calls.foldl record ⟨[], .empty⟩

theorem of_append_singleton (calls : List (Call α)) (call : Call α) :
    of (calls ++ [call]) = (of calls).record call :=
  List.foldl_append

end Trace

/-! ## A map that remembers -/

/-- What is under a handle after an event, if this was under it before. -/
def Event.update (handle : Handle) (event : Event α) (before : Option α) : Option α :=
  match event with
  | .inserted issued value => if handle = issued then some value else before
  | .removed gone => if handle = gone then none else before
  | .written target value => if handle = target then before.map fun _ => value else before

/-- The value last put under a handle, if it has been issued and not been removed since. -/
def value? (events : List (Event α)) (handle : Handle) : Option α :=
  events.foldr (Event.update handle) none

/-- The handle of a new value. -/
def Event.issued? : Event α → Option Handle
  | .inserted handle _ => some handle
  | .removed _ | .written _ _ => none

/-- The handles that new values were given, the latest first. -/
def issued (events : List (Event α)) : List Handle :=
  events.filterMap Event.issued?

/-- The handle has been issued and not been removed since. -/
def Alive (events : List (Event α)) (handle : Handle) : Prop :=
  ∃ since value before, events = since ++ .inserted handle value :: before ∧
    .removed handle ∉ since

/-- The handles that have been issued and still have a value. -/
def live (events : List (Event α)) : List Handle :=
  (issued events).filter fun handle => (value? events handle).isSome

@[simp] theorem value?_cons (event : Event α) (events : List (Event α)) (handle : Handle) :
    value? (event :: events) handle = event.update handle (value? events handle) :=
  rfl

theorem Alive.mem_issued {events : List (Event α)} {handle : Handle}
    (alive : Alive events handle) : handle ∈ issued events := by
  obtain ⟨since, value, before, rfl, -⟩ := alive
  simp [issued, Event.issued?]

theorem alive_cons {event : Event α} {events : List (Event α)} {handle : Handle} :
    Alive (event :: events) handle ↔
      (∃ value, event = .inserted handle value) ∨
        event ≠ .removed handle ∧ Alive events handle := by
  constructor
  · rintro ⟨since, value, before, split, kept⟩
    rcases List.cons_eq_append_iff.1 split with ⟨rfl, same⟩ | ⟨rest, rfl, older⟩
    · exact .inl ⟨value, (List.cons.inj same).1.symm⟩
    · rw [List.mem_cons, not_or] at kept
      exact .inr ⟨Ne.symm kept.1, rest, value, before, older, kept.2⟩
  · rintro (⟨value, rfl⟩ | ⟨kept, since, value, before, rfl, still⟩)
    · exact ⟨[], value, events, rfl, List.not_mem_nil⟩
    · refine ⟨event :: since, value, before, rfl, ?_⟩
      rw [List.mem_cons, not_or]
      exact ⟨Ne.symm kept, still⟩

/-- The map has values under the handles that have been issued and not been removed since. -/
theorem isSome_value?_iff {events : List (Event α)} {handle : Handle} :
    (value? events handle).isSome ↔ Alive events handle := by
  induction events with
  | nil => simp [value?, Alive]
  | cons event events ih =>
      rw [alive_cons, value?_cons, ← ih]
      cases event with
      | inserted issued value =>
          by_cases same : handle = issued
          · simp [Event.update, same]
          · simp [Event.update, same, Ne.symm same]
      | removed gone =>
          by_cases same : handle = gone
          · simp [Event.update, same]
          · simp [Event.update, same, Ne.symm same]
      | written target value => by_cases same : handle = target <;> simp [Event.update, same]

theorem mem_live_iff {events : List (Event α)} {handle : Handle} :
    handle ∈ live events ↔ Alive events handle := by
  rw [live, List.mem_filter, isSome_value?_iff]
  exact and_iff_right_of_imp Alive.mem_issued

/-! ## One call -/

section Serve

variable {arena : Arena α} (sound : arena.Sound) (call : Call α)
include sound

theorem Sound.serve : (arena.serve call).Sound := by
  cases call with
  | insert value => exact sound.insert value
  | remove handle => exact sound.remove handle
  | write handle value => exact sound.modify handle _

/-- A call does to the arena what its event does to the map. -/
theorem Sound.get?_serve (handle : Handle) :
    (arena.serve call).get? handle = (arena.event call).update handle (arena.get? handle) := by
  cases call with
  | insert value => exact sound.get?_insert value handle
  | remove gone => exact get?_remove arena gone handle
  | write target value =>
      refine (get?_modify arena target handle _).trans ?_
      by_cases same : handle = target <;> simp [event, Event.update, same]

section Generations

variable {bound : Nat} (reused : arena.Reused bound) (small : bound + 1 < UInt32.size)
include reused small

theorem Sound.reused_serve : (arena.serve call).Reused (bound + 1) := by
  cases call with
  | insert value => exact sound.reused_insert reused small value
  | remove handle =>
      intro index generation used
      rw [Arena.serve, generation?_remove] at used
      exact Nat.le_succ_of_le (reused index generation used)
  | write handle value =>
      intro index generation used
      rw [Arena.serve, generation?_modify] at used
      exact Nat.le_succ_of_le (reused index generation used)

/-- What has been issued stays so. -/
theorem Sound.issued_serve {handle : Handle} (issued : arena.Issued handle) :
    (arena.serve call).Issued handle := by
  cases call with
  | insert value => exact sound.issued_insert reused small value issued
  | remove gone => simpa [Issued, Arena.serve] using issued
  | write target value => simpa [Issued, Arena.serve] using issued

end Generations

end Serve

theorem remove_fst (arena : Arena α) (handle : Handle) :
    (arena.remove handle).1 = arena.get? handle := by
  unfold remove
  cases arena.get? handle <;> rfl

theorem remove_of_get?_eq_none {arena : Arena α} {handle : Handle}
    (missing : arena.get? handle = none) : (arena.remove handle).2 = arena := by
  simp [remove, missing]

/-! ## Any calls -/

namespace Trace

theorem sound_of (calls : List (Call α)) : (of calls).arena.Sound := by
  induction calls using List.reverseRecOn with
  | nil => exact .empty
  | append_singleton calls call ih =>
      rw [of_append_singleton]
      exact ih.serve call

/-- The arena finds what the map has. -/
theorem get?_of (calls : List (Call α)) (handle : Handle) :
    (of calls).arena.get? handle = value? (of calls).events handle := by
  induction calls using List.reverseRecOn with
  | nil => exact get?_empty handle
  | append_singleton calls call ih =>
      rw [of_append_singleton]
      simp only [record, (sound_of calls).get?_serve, ih, value?_cons]

/-- What the generations in an arena say about the handles that have been issued. -/
structure Dated (trace : Trace α) (bound : Nat) : Prop where
  reused : trace.arena.Reused bound
  issued : ∀ handle ∈ issued trace.events, trace.arena.Issued handle
  nodup : (Arena.issued trace.events).Nodup

theorem Dated.record {trace : Trace α} {bound : Nat} (dated : trace.Dated bound)
    (sound : trace.arena.Sound) (small : bound + 1 < UInt32.size) (call : Call α) :
    (trace.record call).Dated (bound + 1) := by
  have older : ∀ handle ∈ Arena.issued trace.events,
      (trace.arena.serve call).Issued handle := fun handle member =>
    sound.issued_serve call dated.reused small (dated.issued handle member)
  constructor
  case reused => exact sound.reused_serve call dated.reused small
  case issued =>
    cases call with
    | insert value =>
        have found := sound.get?_insert value (trace.arena.insert value).1
        rw [if_pos rfl] at found
        exact List.forall_mem_cons.2 ⟨issued_of_get? found, older⟩
    | remove | write => exact older
  case nodup =>
    cases call with
    | insert value =>
        have fresh := sound.not_issued_insert_fst dated.reused small value
        exact List.nodup_cons.2 ⟨fun member => fresh (dated.issued _ member), dated.nodup⟩
    | remove | write => exact dated.nodup

theorem dated_of {calls : List (Call α)} (few : calls.length < 2 ^ 32) :
    (of calls).Dated calls.length := by
  induction calls using List.reverseRecOn with
  | nil => exact ⟨.empty, by simp [of, issued], by simp [of, issued]⟩
  | append_singleton calls call ih =>
      rw [List.length_append, List.length_singleton] at few ⊢
      rw [of_append_singleton]
      exact (ih (by omega)).record (sound_of calls) few call

/-- The arena lists the live handles. -/
theorem handles_perm_live {calls : List (Call α)} (few : calls.length < 2 ^ 32) :
    (of calls).arena.handles.Perm (live (of calls).events) := by
  refine (List.perm_ext_iff_of_nodup (handles_nodup _) ((dated_of few).nodup.filter _)).2 ?_
  intro handle
  rw [mem_handles_iff, ← Option.isSome_iff_exists, get?_of, isSome_value?_iff, ← mem_live_iff, live]

/-- An arena is a map with fresh keys, unless there are so many calls that a generation can wrap
around.  No handle is issued twice.  A handle has a value exactly if it has been issued and not been
removed since, and it is the value last put there.  Removing gives that value back; where there is
none, nothing changes.  The size is the number of live handles, and each of them is listed once with
its value, in the order of the slots. -/
theorem refines_map (calls : List (Call α)) (few : calls.length < 2 ^ 32) :
    (issued (of calls).events).Nodup ∧
    (∀ handle, (of calls).arena.get? handle = value? (of calls).events handle) ∧
    (∀ handle, (of calls).arena.contains handle ↔ Alive (of calls).events handle) ∧
    (∀ handle, ((of calls).arena.remove handle).1 = value? (of calls).events handle) ∧
    (∀ handle, ¬Alive (of calls).events handle →
      ((of calls).arena.remove handle).2 = (of calls).arena) ∧
    (of calls).arena.size = (live (of calls).events).length ∧
    ((of calls).arena.isEmpty ↔ live (of calls).events = []) ∧
    ((of calls).arena.entries.map (·.1)).Perm (live (of calls).events) ∧
    (∀ entry ∈ (of calls).arena.entries, value? (of calls).events entry.1 = some entry.2) ∧
    (of calls).arena.entries.Pairwise (fun first second => first.1.index < second.1.index) := by
  have listed := handles_perm_live few
  have counted := (sound_of calls).counted.trans listed.length_eq
  have sorted := (of calls).arena.handles_sorted
  rw [handles, List.pairwise_map] at sorted
  refine ⟨(dated_of few).nodup, get?_of calls, fun handle => ?_, fun handle => ?_,
    fun handle dead => ?_, counted, ?_, listed, fun entry member => ?_, sorted⟩
  · rw [contains, get?_of, isSome_value?_iff]
  · rw [remove_fst, get?_of]
  · rw [← isSome_value?_iff, Option.not_isSome_iff_eq_none, ← get?_of] at dead
    exact remove_of_get?_eq_none dead
  · rw [isEmpty, counted, decide_eq_true_iff, List.length_eq_zero_iff]
  · rw [← get?_of]
    exact mem_entries_iff.1 member

/-- Two values are stored; the first is removed twice and its slot is used again. -/
def recycling : List (Call Nat) :=
  [.insert 1, .insert 2, .remove ⟨0, 0⟩, .remove ⟨0, 0⟩, .insert 3, .write ⟨0, 0⟩ 4,
    .write ⟨1, 0⟩ 5, .remove ⟨7, 7⟩]

/-- The handle of the first value is stale, and the arena goes by the new ones. -/
theorem recycling_refines_map :
    recycling.length < 2 ^ 32 ∧
      issued (of recycling).events = [⟨0, 1⟩, ⟨1, 0⟩, ⟨0, 0⟩] ∧
      live (of recycling).events = [⟨0, 1⟩, ⟨1, 0⟩] ∧ (of recycling).arena.size = 2 ∧
      (of recycling).arena.get? ⟨0, 0⟩ = none ∧ (of recycling).arena.get? ⟨0, 1⟩ = some 3 ∧
      (of recycling).arena.get? ⟨1, 0⟩ = some 5 := by
  have ⟨_, found, _, _, _, counted, _⟩ := refines_map recycling (by decide)
  refine ⟨by decide, by decide, by decide, counted.trans (by decide), (found _).trans (by decide),
    (found _).trans (by decide), (found _).trans (by decide)⟩

end Trace

end NodeGrid.Arena
