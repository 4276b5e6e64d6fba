import NodeGrid.Proofs.Pipe.Table
import Mathlib.Data.List.Induction

/-!
# The numbers of pipes

Numbers are used again without a mark of their age, and pipes may be closed twice or used after they
have been closed.  Still a number never stands for two pipes.  The openings and closings so far tell
which numbers are open and for which writers, the list of free numbers holds the others that have
been given out, each of them once, and what is asked of one number reaches no other pipe but the
copies of a word that is claimed.
-/

namespace NodeGrid

namespace PipeTable

/-- Something asked of a table. -/
inductive Call where
  | openFor (writer : Handle)
  | close (id : PipeId)
  | offer (id : PipeId) (value : Word) (shared : Bool)
  | claim (id : PipeId)
  | acknowledge (id : PipeId)
  | withdraw (id : PipeId)
  | reset (id : PipeId)
  | commit
  deriving DecidableEq, Repr

/-- The number that a call is about. -/
def Call.target? : Call → Option PipeId
  | .close id | .offer id _ _ | .claim id | .acknowledge id | .withdraw id | .reset id => some id
  | .openFor _ | .commit => none

/-- A number has been given out for a writer, or has been given back. -/
inductive Event where
  | opened (id : PipeId) (writer : Handle)
  | closed (id : PipeId)
  deriving DecidableEq, Repr

/-- What a call does to the numbers, if it does anything to them. -/
def event? (table : PipeTable) : Call → Option Event
  | .openFor writer => some (.opened (table.openFor writer).1 writer)
  | .close id => some (.closed id)
  | .offer _ _ _ | .claim _ | .acknowledge _ | .withdraw _ | .reset _ | .commit => none

/-- The table after a call. -/
def serve (table : PipeTable) : Call → PipeTable
  | .openFor writer => (table.openFor writer).2
  | .close id => table.close id
  | .offer id value shared => (table.offer id value shared).2
  | .claim id => (table.claim id).2
  | .acknowledge id => (table.acknowledge id).2
  | .withdraw id => table.withdraw id
  | .reset id => table.reset id
  | .commit => table.commit

/-- The openings and closings so far, the latest first, and the table that the calls have led to. -/
structure Trace where
  events : List Event
  table : PipeTable
  deriving DecidableEq, Repr

namespace Trace

/-- The trace after one more call. -/
def record (trace : Trace) (call : Call) : Trace :=
  ⟨(trace.table.event? call).toList ++ trace.events, trace.table.serve call⟩

/-- The trace of some calls on a table without pipes. -/
def of (calls : List Call) : Trace :=
  calls.foldl record ⟨[], .empty⟩

theorem of_append_singleton (calls : List Call) (call : Call) :
    of (calls ++ [call]) = (of calls).record call :=
  List.foldl_append

end Trace

/-! ## What the events say -/

/-- The writer that a number was last opened for, if it has not been closed since. -/
def opener? : List Event → PipeId → Option Handle
  | [], _ => none
  | .opened other writer :: before, id => if id = other then some writer else opener? before id
  | .closed other :: before, id => if id = other then none else opener? before id

/-- The number that an event gives out. -/
def Event.issued? : Event → Option PipeId
  | .opened id _ => some id
  | .closed _ => none

/-- The numbers that have been given out, the latest first. -/
def issued (events : List Event) : List PipeId :=
  events.filterMap Event.issued?

/-- The numbers of a table are as the events say, and each stands for a pipe of its own. -/
structure Numbered (events : List Event) (table : PipeTable) : Prop where
  /-- The open numbers are those that have been opened and not closed since. -/
  writer : ∀ id, table.writer? id = opener? events id
  /-- The others that have been given out are free, each of them once. -/
  free_nodup : table.free.Nodup
  mem_free : ∀ id, id ∈ table.free ↔ id ∈ issued events ∧ opener? events id = none
  /-- The open numbers are counted. -/
  count : ∃ ids : List PipeId, ids.Nodup ∧ (∀ id, id ∈ ids ↔ (opener? events id).isSome) ∧
    table.openCount = ids.length
  /-- A new pipe has a number that is not open; it is empty and not shared, whatever the number
  stood for before, and the other pipes stay as they are. -/
  opens : ∀ writer, opener? events (table.openFor writer).1 = none ∧
    ∀ id, (table.openFor writer).2.get? id =
      if id = (table.openFor writer).1 then some ⟨.empty, writer, false⟩ else table.get? id
  /-- What is asked of a number that is not open is refused and changes nothing. -/
  refuses : ∀ id, opener? events id = none →
    table.close id = table ∧ (∀ value shared, table.offer id value shared = (false, table)) ∧
      table.claim id = (none, table) ∧ table.acknowledge id = (false, table) ∧
      table.withdraw id = table ∧ table.reset id = table
  /-- What is asked of one number, if it is no claim, leaves other pipes as they are. -/
  frame : ∀ call target, call.target? = some target → call ≠ .claim target →
    ∀ other, other ≠ target → (table.serve call).get? other = table.get? other
  /-- A claim that has no word changes nothing. -/
  misses : ∀ id, (table.claim id).1 = none → (table.claim id).2 = table
  /-- A claim that has a word takes just the copies of the word from other pipes. -/
  claims : ∀ target value, (table.claim target).1 = some value →
    ∃ taken, table.get? target = some taken ∧ ∀ other, other ≠ target →
      (table.claim target).2.get? other = (table.get? other).map fun entry =>
        if entry.Copies taken then { entry with pipe := .empty } else entry

/-! ## Single calls -/

section Closed

variable {table : PipeTable} {id : PipeId} (closed : table.get? id = none)
include closed

/-- There is nothing to change under a number that is not open. -/
theorem modify_of_closed (change : OpenPipe → OpenPipe) : table.modify id change = table := by
  have slots : table.slots.modify id.index (Option.map change) = table.slots := by
    apply Array.ext_getElem?
    intro index
    rw [Array.getElem?_modify]
    by_cases here : id.index = index
    · subst here
      rw [if_pos rfl]
      cases slot : table.slots[id.index]? with
      | none => rfl
      | some held =>
          obtain rfl : held = none := by simpa [get?, slot] using closed
          rfl
    · rw [if_neg here]
  rw [modify, slots]

theorem close_of_closed : table.close id = table := by
  simp [close, closed]

theorem offer_of_closed (value : Word) (shared : Bool) :
    table.offer id value shared = (false, table) := by
  simp [offer, pipe?, closed]

theorem claim_of_closed : table.claim id = (none, table) := by
  simp [claim, closed]

theorem acknowledge_of_closed : table.acknowledge id = (false, table) := by
  simp [acknowledge, pipe?, closed]

theorem withdraw_of_closed : table.withdraw id = table :=
  modify_of_closed closed _

theorem reset_of_closed : table.reset id = table :=
  modify_of_closed closed _

end Closed

/-- A call that is about one number, unless it is a claim, changes no other pipe. -/
theorem get?_serve_of_ne (table : PipeTable) {call : Call} {target other : PipeId}
    (about : call.target? = some target) (unclaimed : call ≠ .claim target)
    (different : other ≠ target) : (table.serve call).get? other = table.get? other := by
  cases call with
  | openFor | commit => cases about
  | claim id =>
      cases about
      exact absurd rfl unclaimed
  | close id =>
      cases about
      exact (table.get?_close target other).trans (if_neg different)
  | offer id value shared =>
      cases about
      exact (table.get?_offer target other value shared).trans (if_neg different)
  | acknowledge id =>
      cases about
      exact (table.get?_acknowledge target other).trans (if_neg different)
  | withdraw id =>
      cases about
      exact (table.get?_withdraw target other).trans (if_neg different)
  | reset id =>
      cases about
      exact (table.get?_reset target other).trans (if_neg different)

theorem claim_snd_of_none {table : PipeTable} {id : PipeId} (misses : (table.claim id).1 = none) :
    (table.claim id).2 = table := by
  rw [claim_fst] at misses
  rw [claim_eq_of_peek_none misses]

/-- A claim that has a word takes just the copies of the word from other pipes. -/
theorem get?_claim_of_ne {table : PipeTable} {target : PipeId} {value : Word}
    (claims : (table.claim target).1 = some value) :
    ∃ taken, table.get? target = some taken ∧ ∀ other, other ≠ target →
      (table.claim target).2.get? other = (table.get? other).map fun entry =>
        if entry.Copies taken then { entry with pipe := .empty } else entry := by
  rw [claim_fst, peek?_eq_some_iff, pipe?_eq_some_iff] at claims
  obtain ⟨taken, found, holds⟩ := claims
  refine ⟨taken, found, fun other different => ?_⟩
  rw [get?_claim found holds, if_neg different]
  congr 1
  funext entry
  exact entry.bereft_eq taken

/-! ## Any calls -/

/-- The table is sound, the open numbers are those that the events say, and the slots are those of
the numbers that have been given out. -/
structure Trace.Sound (trace : Trace) : Prop where
  table : trace.table.Sound
  writer : ∀ id, trace.table.writer? id = opener? trace.events id
  issued : ∀ id, id ∈ issued trace.events ↔ id.index < trace.table.slots.size

namespace Trace.Sound

variable {trace : Trace} (sound : trace.Sound)
include sound

/-- What keeps the open pipes keeps the numbers. -/
theorem of_alike {after : PipeTable} (alike : Alike trace.table after) :
    (⟨trace.events, after⟩ : Trace).Sound where
  table := alike.sound sound.table
  writer := fun id => (alike.writer id).trans (sound.writer id)
  issued := by
    intro id
    rw [alike.size]
    exact sound.issued id

theorem openFor (writer : Handle) : (trace.record (.openFor writer)).Sound where
  table := sound.table.openFor writer
  writer := by
    intro id
    change ((trace.table.openFor writer).2.get? id).map (·.writer) =
      if id = (trace.table.openFor writer).1 then some writer else opener? trace.events id
    rw [sound.table.get?_openFor, ← sound.writer]
    split <;> rfl
  issued := by
    intro id
    change id ∈ (trace.table.openFor writer).1 :: PipeTable.issued trace.events ↔
      id.index < (trace.table.openFor writer).2.slots.size
    rw [List.mem_cons, sound.issued]
    unfold PipeTable.openFor
    cases free : trace.table.free with
    | nil =>
        simp only [Array.size_push, PipeId.eq_iff]
        omega
    | cons first rest =>
        have used := ((sound.table.mem_free first).1 (by simp [free])).1
        simp only [Array.size_setIfInBounds, or_iff_right_iff_imp]
        rintro rfl
        exact used

theorem close (id : PipeId) : (trace.record (.close id)).Sound where
  table := sound.table.close id
  writer := by
    intro other
    change ((trace.table.close id).get? other).map (·.writer) =
      if other = id then none else opener? trace.events other
    rw [get?_close, ← sound.writer]
    split <;> rfl
  issued := by
    intro other
    change other ∈ PipeTable.issued trace.events ↔ other.index < (trace.table.close id).slots.size
    have size : (trace.table.close id).slots.size = trace.table.slots.size := by
      unfold PipeTable.close
      split <;> simp
    rw [size, sound.issued]

theorem record (call : Call) : (trace.record call).Sound := by
  cases call with
  | openFor writer => exact sound.openFor writer
  | close id => exact sound.close id
  | offer id value shared => exact sound.of_alike (.offer _ id value shared)
  | claim id => exact sound.of_alike (.claim _ id)
  | acknowledge id => exact sound.of_alike (.acknowledge _ id)
  | withdraw id => exact sound.of_alike (.withdraw _ id)
  | reset id => exact sound.of_alike (.reset _ id)
  | commit => exact sound.of_alike (.commit _)

theorem get?_eq_none_iff {id : PipeId} :
    trace.table.get? id = none ↔ opener? trace.events id = none := by
  rw [← sound.writer, writer?, Option.map_eq_none_iff]

end Trace.Sound

namespace Trace

theorem sound_of (calls : List Call) : (of calls).Sound := by
  induction calls using List.reverseRecOn with
  | nil =>
      exact
        { table := .empty
          writer := fun id => by simp [of, writer?, opener?]
          issued := fun id => by simp [of, PipeTable.issued, PipeTable.empty] }
  | append_singleton calls call ih =>
      rw [of_append_singleton]
      exact ih.record call

/-- Whatever has been asked of a table, its numbers are as the openings and closings say: a number
stands for one pipe, and is used again only once that is closed. -/
theorem numbered_of (calls : List Call) : Numbered (of calls).events (of calls).table := by
  have sound := sound_of calls
  exact
    { writer := sound.writer
      free_nodup := sound.table.free_nodup
      mem_free := fun id => by
        rw [sound.table.mem_free, sound.issued, sound.get?_eq_none_iff]
      count := by
        refine ⟨_, openIds_nodup _, fun id => ?_, (length_openIds _).symm⟩
        rw [mem_openIds, ← sound.writer, writer?, Option.isSome_map, Option.isSome_iff_exists]
      opens := fun writer =>
        ⟨sound.get?_eq_none_iff.1 (sound.table.get?_openFor_fst writer),
          sound.table.get?_openFor writer⟩
      refuses := fun id none_open => by
        have closed := sound.get?_eq_none_iff.2 none_open
        exact ⟨close_of_closed closed, offer_of_closed closed, claim_of_closed closed,
          acknowledge_of_closed closed, withdraw_of_closed closed, reset_of_closed closed⟩
      frame := fun call target about unclaimed other different =>
        get?_serve_of_ne _ about unclaimed different
      misses := fun id => claim_snd_of_none
      claims := fun target value => get?_claim_of_ne }

/-- A number that is closed twice is given out again once. -/
example : (of [.openFor ⟨0, 0⟩, .openFor ⟨1, 0⟩, .close ⟨0⟩, .close ⟨0⟩, .openFor ⟨2, 0⟩,
    .openFor ⟨3, 0⟩]).events =
    [.opened ⟨2⟩ ⟨3, 0⟩, .opened ⟨0⟩ ⟨2, 0⟩, .closed ⟨0⟩, .closed ⟨0⟩, .opened ⟨1⟩ ⟨1, 0⟩,
      .opened ⟨0⟩ ⟨0, 0⟩] := by decide

end Trace

end PipeTable

end NodeGrid
