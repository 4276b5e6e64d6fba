import NodeGrid.Proofs.Pipe.Table
import Mathlib.Data.List.Induction

/-!
# The protocol of a pipe

Writer, reader and clock may call on a pipe in any order and any number of times.  The answers that
they have had tell what the pipe holds, so whether a word is handed out, an offer taken or a claim
reported depends on the events so far alone: a word is handed out once, after a commit and unless it
has been taken back, and a claim is reported once, after another commit.
-/

namespace NodeGrid.Pipe

/-- Something asked of a pipe. -/
inductive Call where
  | offer (value : Word)
  | claim
  | commit
  | acknowledge
  | withdraw
  | reset
  deriving DecidableEq, Repr

/-- A call and its answer. -/
inductive Event where
  | offered (value : Word) (taken : Bool)
  | claimed (value : Option Word)
  | committed
  | acknowledged (known : Bool)
  | withdrawn
  | reset
  deriving DecidableEq, Repr

/-- What a pipe answers. -/
def answer (pipe : Pipe) : Call → Event
  | .offer value => .offered value (pipe.offer? value).isSome
  | .claim => .claimed (pipe.claim?.map (·.1))
  | .commit => .committed
  | .acknowledge => .acknowledged pipe.acknowledge?.isSome
  | .withdraw => .withdrawn
  | .reset => .reset

/-- The pipe after a call.  What is refused changes nothing. -/
def serve (pipe : Pipe) : Call → Pipe
  | .offer value => (pipe.offer? value).getD pipe
  | .claim => (pipe.claim?.map (·.2)).getD pipe
  | .commit => pipe.commit
  | .acknowledge => pipe.acknowledge?.getD pipe
  | .withdraw => pipe.withdraw
  | .reset => .empty

/-- The events so far, the latest first, and the pipe that they have led to. -/
structure Trace where
  events : List Event
  pipe : Pipe
  deriving DecidableEq, Repr

namespace Trace

/-- The trace after one more call. -/
def record (trace : Trace) (call : Call) : Trace :=
  ⟨trace.pipe.answer call :: trace.events, trace.pipe.serve call⟩

/-- The trace of some calls on an empty pipe. -/
def of (calls : List Call) : Trace :=
  calls.foldl record ⟨[], .empty⟩

theorem of_append_singleton (calls : List Call) (call : Call) :
    of (calls ++ [call]) = (of calls).record call :=
  List.foldl_append

end Trace

/-! ## What events say -/

/-- The event takes nothing from the pipe and puts nothing in: it is a commit or has come to
nothing. -/
def Event.isIdle : Event → Bool
  | .committed | .offered _ false | .claimed none | .acknowledged false => true
  | .offered _ true | .claimed (some _) | .acknowledged true | .withdrawn | .reset => false

/-- The word of an offer that was taken. -/
def Event.taken? : Event → Option Word
  | .offered value true => some value
  | _ => none

/-- The word that a claim has had. -/
def Event.claimed? : Event → Option Word
  | .claimed value => value
  | _ => none

/-- In the events since an offer was taken, the latest first, it has been taken back before it was
claimed, its claim has been acknowledged, or it has been forgotten. -/
def Settled (since : List Event) : Prop :=
  (∃ later earlier, since = later ++ .withdrawn :: earlier ∧
      ∀ value, .claimed (some value) ∉ earlier) ∨
    .reset ∈ since ∨ .acknowledged true ∈ since

/-- Every offer that was taken has been settled. -/
def AllSettled (events : List Event) : Prop :=
  ∀ since value before, events = since ++ .offered value true :: before → Settled since

theorem Settled.append {since : List Event} (settled : Settled since) (later : List Event) :
    Settled (later ++ since) := by
  rcases settled with ⟨after, earlier, rfl, unclaimed⟩ | forgotten | known
  · exact .inl ⟨later ++ after, earlier, by simp, unclaimed⟩
  · exact .inr (.inl (List.mem_append_right later forgotten))
  · exact .inr (.inr (List.mem_append_right later known))

theorem AllSettled.cons {events : List Event} (settled : AllSettled events) {event : Event}
    (refused : event.taken? = none) : AllSettled (event :: events) := by
  intro since value before split
  rcases List.cons_eq_append_iff.1 split with ⟨-, same⟩ | ⟨rest, rfl, older⟩
  · cases (List.cons.inj same).1
    cases refused
  · exact (settled rest value before older).append [event]

/-- With the last offer all are settled, if the others have been. -/
theorem AllSettled.append {before since : List Event} (settled : AllSettled before) (value : Word)
    (last : ∀ event ∈ since, event.taken? = none) (ends : Settled since) :
    AllSettled (since ++ .offered value true :: before) := by
  intro after other earlier split
  rcases List.append_eq_append_iff.1 split with ⟨rest, rfl, tail⟩ | ⟨rest, rfl, tail⟩
  · cases rest with
    | nil => simpa using ends
    | cons event rest =>
        obtain ⟨rfl, same⟩ := List.cons.inj tail
        have older := (settled rest other earlier same).append (since ++ [.offered value true])
        simpa using older
  · cases rest with
    | nil => simpa using ends
    | cons event rest =>
        obtain ⟨rfl, -⟩ := List.cons.inj tail
        exact absurd (last (.offered other true) (by simp)) nofun

/-! ## What a pipe holds, told by the events -/

/-- The last offer was taken, and in the events since then nobody has taken its word out. -/
def Holding (events : List Event) (value : Word) (since : List Event) : Prop :=
  ∃ before, events = since ++ .offered value true :: before ∧ AllSettled before ∧
    ∀ event ∈ since, event.isIdle

/-- The word of the last offer was claimed after a commit, and in the events since then the claim
was neither acknowledged nor forgotten. -/
def Owing (events : List Event) (since : List Event) : Prop :=
  ∃ value between earlier, events = since ++ .claimed (some value) :: earlier ∧
    Holding earlier value between ∧ .committed ∈ between ∧
    ∀ event ∈ since, event.isIdle ∨ event = .withdrawn

/-- The events lead to what the pipe holds. -/
def Explains (events : List Event) : Pipe → Prop
  | .empty => AllSettled events
  | .pending value => ∃ since, Holding events value since ∧ .committed ∉ since
  | .ready value => ∃ since, Holding events value since ∧ .committed ∈ since
  | .claimed => ∃ since, Owing events since ∧ .committed ∉ since
  | .delivered => ∃ since, Owing events since ∧ .committed ∈ since

theorem Event.taken?_of_isIdle {event : Event} (idle : event.isIdle) : event.taken? = none := by
  cases event with
  | offered value taken => cases taken <;> simp_all [isIdle, taken?]
  | claimed | committed | acknowledged | withdrawn | reset => rfl

section Holding

variable {events since : List Event} {value : Word} (holding : Holding events value since)
include holding

theorem Holding.cons {event : Event} (idle : event.isIdle) :
    Holding (event :: events) value (event :: since) := by
  obtain ⟨before, rfl, settled, quiet⟩ := holding
  exact ⟨before, rfl, settled, List.forall_mem_cons.2 ⟨idle, quiet⟩⟩

theorem Holding.taken?_eq_none : ∀ event ∈ since, event.taken? = none :=
  let ⟨_, _, _, quiet⟩ := holding
  fun event member => event.taken?_of_isIdle (quiet event member)

/-- A word that nobody has taken out is settled by taking it back or forgetting it. -/
theorem Holding.settle {event : Event} (ends : event = .withdrawn ∨ event = .reset) :
    AllSettled (event :: events) := by
  have last := holding.taken?_eq_none
  obtain ⟨before, rfl, settled, quiet⟩ := holding
  have refused : event.taken? = none := by
    rcases ends with rfl | rfl <;> rfl
  refine settled.append value (List.forall_mem_cons.2 ⟨refused, last⟩) ?_
  rcases ends with rfl | rfl
  · exact .inl ⟨[], since, rfl, fun other member => absurd (quiet _ member) nofun⟩
  · exact .inr (.inl List.mem_cons_self)

theorem Holding.claim (visible : .committed ∈ since) : Owing (.claimed (some value) :: events) [] :=
  ⟨value, since, events, rfl, holding, visible, by simp⟩

end Holding

section Owing

variable {events since : List Event} (owing : Owing events since)
include owing

theorem Owing.cons {event : Event} (kept : event.isIdle ∨ event = .withdrawn) :
    Owing (event :: events) (event :: since) := by
  obtain ⟨value, between, earlier, rfl, holding, visible, quiet⟩ := owing
  exact ⟨value, between, earlier, rfl, holding, visible, List.forall_mem_cons.2 ⟨kept, quiet⟩⟩

/-- A word that has been claimed is settled by acknowledging the claim or forgetting it. -/
theorem Owing.settle {event : Event} (ends : event = .acknowledged true ∨ event = .reset) :
    AllSettled (event :: events) := by
  obtain ⟨value, between, earlier, rfl, holding, -, quiet⟩ := owing
  have last := holding.taken?_eq_none
  obtain ⟨before, rfl, settled, -⟩ := holding
  have refused : ∀ other ∈ event :: (since ++ .claimed (some value) :: between),
      other.taken? = none := by
    intro other member
    simp only [List.mem_cons, List.mem_append] at member
    rcases member with rfl | member | rfl | member
    · rcases ends with rfl | rfl <;> rfl
    · rcases quiet other member with idle | rfl
      · exact other.taken?_of_isIdle idle
      · rfl
    · rfl
    · exact last other member
  have ended : Settled (event :: (since ++ .claimed (some value) :: between)) := by
    rcases ends with rfl | rfl
    · exact .inr (.inr List.mem_cons_self)
    · exact .inr (.inl List.mem_cons_self)
  simpa using settled.append value refused ended

end Owing

namespace Explains

variable {events : List Event}

/-- What nothing happens to stays, unless the event is a commit. -/
theorem idle {pipe : Pipe} (explains : Explains events pipe) {event : Event} (quiet : event.isIdle)
    (uncommitted : event ≠ .committed) : Explains (event :: events) pipe := by
  have absent : ∀ {since : List Event}, .committed ∉ since → .committed ∉ event :: since :=
    fun missing member => (List.mem_cons.1 member).elim (uncommitted ·.symm) missing
  cases pipe with
  | empty => exact AllSettled.cons explains (event.taken?_of_isIdle quiet)
  | pending value =>
      obtain ⟨since, holding, fresh⟩ := explains
      exact ⟨_, holding.cons quiet, absent fresh⟩
  | ready value =>
      obtain ⟨since, holding, visible⟩ := explains
      exact ⟨_, holding.cons quiet, List.mem_cons_of_mem _ visible⟩
  | claimed =>
      obtain ⟨since, owing, fresh⟩ := explains
      exact ⟨_, owing.cons (.inl quiet), absent fresh⟩
  | delivered =>
      obtain ⟨since, owing, known⟩ := explains
      exact ⟨_, owing.cons (.inl quiet), List.mem_cons_of_mem _ known⟩

theorem commit {pipe : Pipe} (explains : Explains events pipe) :
    Explains (.committed :: events) pipe.commit := by
  cases pipe with
  | empty => exact AllSettled.cons explains rfl
  | pending value | ready value =>
      obtain ⟨since, holding, -⟩ := explains
      exact ⟨_, holding.cons rfl, List.mem_cons_self⟩
  | claimed | delivered =>
      obtain ⟨since, owing, -⟩ := explains
      exact ⟨_, owing.cons (.inl rfl), List.mem_cons_self⟩

theorem withdraw {pipe : Pipe} (explains : Explains events pipe) :
    Explains (.withdrawn :: events) pipe.withdraw := by
  cases pipe with
  | empty => exact AllSettled.cons explains rfl
  | pending value | ready value =>
      obtain ⟨since, holding, -⟩ := explains
      exact holding.settle (.inl rfl)
  | claimed =>
      obtain ⟨since, owing, fresh⟩ := explains
      exact ⟨_, owing.cons (.inr rfl), by simpa using fresh⟩
  | delivered =>
      obtain ⟨since, owing, known⟩ := explains
      exact ⟨_, owing.cons (.inr rfl), List.mem_cons_of_mem _ known⟩

theorem reset {pipe : Pipe} (explains : Explains events pipe) :
    Explains (.reset :: events) .empty := by
  cases pipe with
  | empty => exact AllSettled.cons explains rfl
  | pending value | ready value =>
      obtain ⟨since, holding, -⟩ := explains
      exact holding.settle (.inr rfl)
  | claimed | delivered =>
      obtain ⟨since, owing, -⟩ := explains
      exact owing.settle (.inr rfl)

/-- A call leads to what the pipe then holds. -/
theorem call {pipe : Pipe} (explains : Explains events pipe) (call : Call) :
    Explains (pipe.answer call :: events) (pipe.serve call) := by
  cases call with
  | offer value =>
      cases pipe with
      | empty => exact ⟨[], ⟨events, rfl, explains, by simp⟩, by simp⟩
      | pending | ready | claimed | delivered => exact explains.idle rfl nofun
  | claim =>
      cases pipe with
      | ready value =>
          obtain ⟨since, holding, visible⟩ := explains
          exact ⟨[], holding.claim visible, by simp⟩
      | empty | pending | claimed | delivered => exact explains.idle rfl nofun
  | commit => exact explains.commit
  | acknowledge =>
      cases pipe with
      | delivered =>
          obtain ⟨since, owing, -⟩ := explains
          exact owing.settle (.inl rfl)
      | empty | pending | ready | claimed => exact explains.idle rfl nofun
  | withdraw => exact explains.withdraw
  | reset => exact explains.reset

end Explains

/-- After any calls, the events lead to what the pipe holds. -/
theorem Trace.explains_of (calls : List Call) :
    Explains (Trace.of calls).events (Trace.of calls).pipe := by
  induction calls using List.reverseRecOn with
  | nil => exact fun since value before split => by simp [Trace.of] at split
  | append_singleton calls call ih =>
      rw [Trace.of_append_singleton]
      exact ih.call call

/-! ## What the events lead to -/

/-- An event that comes to nothing leaves the pipe, and a commit commits it. -/
theorem serve_of_isIdle {pipe : Pipe} {call : Call} (idle : (pipe.answer call).isIdle) :
    pipe.serve call = if pipe.answer call = .committed then pipe.commit else pipe := by
  cases call with
  | commit => rfl
  | withdraw | reset => cases idle
  | offer value =>
      cases pipe with
      | empty => cases idle
      | pending | ready | claimed | delivered => rfl
  | claim =>
      cases pipe with
      | ready => cases idle
      | empty | pending | claimed | delivered => rfl
  | acknowledge =>
      cases pipe with
      | delivered => cases idle
      | empty | pending | ready | claimed => rfl

/-- A withdrawal leaves a claim. -/
theorem withdraw_of_isClaimed {pipe : Pipe} (claimed : pipe.isClaimed) : pipe.withdraw = pipe := by
  cases pipe with
  | claimed | delivered => rfl
  | empty | pending | ready => cases claimed

/-- A claim stays until it is acknowledged or forgotten. -/
theorem serve_of_isClaimed {pipe : Pipe} (claimed : pipe.isClaimed) {call : Call}
    (remembered : pipe.answer call ≠ .reset) (unreported : pipe.answer call ≠ .acknowledged true) :
    pipe.serve call = if pipe.answer call = .committed then pipe.commit else pipe := by
  by_cases idle : (pipe.answer call).isIdle
  · exact serve_of_isIdle idle
  · cases call with
    | commit => rfl
    | withdraw => exact withdraw_of_isClaimed claimed
    | reset => exact absurd rfl remembered
    | offer | claim =>
        cases pipe with
        | claimed | delivered => rfl
        | empty | pending | ready => cases claimed
    | acknowledge =>
        cases pipe with
        | claimed => rfl
        | delivered => exact absurd rfl unreported
        | empty | pending | ready => cases claimed

/-- While nothing happens to a word that was taken, it is in the pipe, and can be claimed after a
commit. -/
theorem Trace.pipe_of_idle {calls : List Call} {since before : List Event} {value : Word}
    (split : (Trace.of calls).events = since ++ .offered value true :: before)
    (idle : ∀ event ∈ since, event.isIdle) :
    (Trace.of calls).pipe = if .committed ∈ since then .ready value else .pending value := by
  induction calls using List.reverseRecOn generalizing since with
  | nil => simp [Trace.of] at split
  | append_singleton calls call ih =>
      rw [Trace.of_append_singleton] at split ⊢
      change (Trace.of calls).pipe.serve call = _
      cases since with
      | nil =>
          -- The offer is the latest event, so the pipe was empty.
          have answered := (List.cons.inj split).1
          generalize (Trace.of calls).pipe = pipe at answered
          cases call <;> cases pipe <;> cases answered
          rfl
      | cons event rest =>
          obtain ⟨rfl, older⟩ := List.cons.inj split
          obtain ⟨quiet, others⟩ := List.forall_mem_cons.1 idle
          rw [serve_of_isIdle quiet]
          by_cases now : (Trace.of calls).pipe.answer call = .committed
          · rw [if_pos now, now, if_pos List.mem_cons_self, ih older others]
            split <;> rfl
          · simp only [if_neg now, List.mem_cons, Ne.symm now, false_or]
            exact ih older others

/-- Until a claim is acknowledged or forgotten, the pipe knows of it, and reports it after a
commit. -/
theorem Trace.pipe_of_unreported {calls : List Call} {since before : List Event} {value : Word}
    (split : (Trace.of calls).events = since ++ .claimed (some value) :: before)
    (remembered : .reset ∉ since) (unreported : .acknowledged true ∉ since) :
    (Trace.of calls).pipe = if .committed ∈ since then .delivered else .claimed := by
  induction calls using List.reverseRecOn generalizing since with
  | nil => simp [Trace.of] at split
  | append_singleton calls call ih =>
      rw [Trace.of_append_singleton] at split ⊢
      change (Trace.of calls).pipe.serve call = _
      cases since with
      | nil =>
          -- The claim is the latest event, so a word was ready.
          have answered := (List.cons.inj split).1
          generalize (Trace.of calls).pipe = pipe at answered
          cases call <;> cases pipe <;> cases answered
          rfl
      | cons event rest =>
          obtain ⟨rfl, older⟩ := List.cons.inj split
          obtain ⟨kept, stays⟩ := not_or.1 (mt List.mem_cons.2 remembered)
          obtain ⟨silent, quiet⟩ := not_or.1 (mt List.mem_cons.2 unreported)
          have earlier := ih older stays quiet
          have claimed : (Trace.of calls).pipe.isClaimed := by
            rw [earlier]
            split <;> rfl
          rw [serve_of_isClaimed claimed (Ne.symm kept) (Ne.symm silent)]
          by_cases now : (Trace.of calls).pipe.answer call = .committed
          · rw [if_pos now, now, if_pos List.mem_cons_self, earlier]
            split <;> rfl
          · simp only [if_neg now, List.mem_cons, Ne.symm now, false_or]
            exact earlier

/-! ## The hand-over -/

/-- A word that nobody has taken out is not settled. -/
theorem Holding.not_settled {events since : List Event} {value : Word}
    (holding : Holding events value since) : ¬AllSettled events := by
  intro settled
  obtain ⟨before, split, -, idle⟩ := holding
  rcases settled since value before split with ⟨later, earlier, rfl, -⟩ | forgotten | known
  · exact absurd (idle .withdrawn (by simp)) nofun
  · exact absurd (idle _ forgotten) nofun
  · exact absurd (idle _ known) nofun

/-- A word whose claim is neither acknowledged nor forgotten is not settled, for a withdrawal after
the claim does not count. -/
theorem Owing.not_settled {events since : List Event} (owing : Owing events since) :
    ¬AllSettled events := by
  intro settled
  obtain ⟨value, between, earlier, split, ⟨before, rfl, -, idle⟩, -, kept⟩ := owing
  have whole : events =
      (since ++ .claimed (some value) :: between) ++ .offered value true :: before := by
    simp [split]
  have unended : ∀ event ∈ since ++ .claimed (some value) :: between,
      event ≠ .reset ∧ event ≠ .acknowledged true := by
    intro event member
    simp only [List.mem_append, List.mem_cons] at member
    rcases member with member | rfl | member
    · rcases kept event member with quiet | rfl
      · constructor <;> (rintro rfl; cases quiet)
      · exact ⟨nofun, nofun⟩
    · exact ⟨nofun, nofun⟩
    · constructor <;> (rintro rfl; exact absurd (idle _ member) nofun)
  rcases settled _ value before whole with ⟨later, older, taken, unclaimed⟩ | forgotten | known
  · rcases List.append_eq_append_iff.1 taken with ⟨rest, -, tail⟩ | ⟨rest, -, tail⟩
    · cases rest with
      | nil => cases (List.cons.inj tail).1
      | cons event rest =>
          obtain ⟨-, same⟩ := List.cons.inj tail
          exact absurd (idle .withdrawn (by simp [same])) nofun
    · cases rest with
      | nil => cases (List.cons.inj tail).1
      | cons event rest =>
          obtain ⟨-, same⟩ := List.cons.inj tail
          exact unclaimed value (by simp [same])
  · exact (unended _ forgotten).1 rfl
  · exact (unended _ known).2 rfl

/-- The words of the offers that were taken, the latest first. -/
def takenWords (events : List Event) : List Word :=
  events.filterMap Event.taken?

/-- The words that claims have had, the latest first. -/
def claimedWords (events : List Event) : List Word :=
  events.filterMap Event.claimed?

/-- Words leave in the order in which they come in, and at most once. -/
theorem Trace.claimed_sublist (calls : List Call) :
    ((Trace.of calls).pipe.word?.toList ++ claimedWords (Trace.of calls).events).Sublist
      (takenWords (Trace.of calls).events) := by
  induction calls using List.reverseRecOn with
  | nil => exact List.Sublist.refl []
  | append_singleton calls call ih =>
      rw [Trace.of_append_singleton]
      simp only [record]
      generalize (Trace.of calls).pipe = pipe at ih ⊢
      generalize (Trace.of calls).events = events at ih ⊢
      have fewer : (claimedWords events).Sublist (takenWords events) :=
        (List.sublist_append_right _ _).trans ih
      cases call with
      | offer value =>
          cases pipe with
          | empty => exact ih.cons_cons value
          | pending | ready | claimed | delivered => exact ih
      | claim => cases pipe <;> exact ih
      | commit => cases pipe <;> exact ih
      | acknowledge => cases pipe <;> exact ih
      | withdraw => cases pipe <;> first | exact ih | exact fewer
      | reset => exact fewer

namespace Trace

/-- A claim has the word of the last offer that was taken, if since then there was a commit and
nothing took the word out or put another one in. -/
theorem claim_iff (calls : List Call) (value : Word) :
    (Trace.of calls).pipe.claim?.map (·.1) = some value ↔
      ∃ since before, (Trace.of calls).events = since ++ .offered value true :: before ∧
        .committed ∈ since ∧ ∀ event ∈ since, event.isIdle := by
  constructor
  · intro claims
    have explains := Trace.explains_of calls
    cases holds : (Trace.of calls).pipe with
    | ready word =>
        rw [holds] at claims explains
        cases claims
        obtain ⟨since, ⟨before, split, -, idle⟩, visible⟩ := explains
        exact ⟨since, before, split, visible, idle⟩
    | empty | pending | claimed | delivered =>
        rw [holds] at claims
        cases claims
  · rintro ⟨since, before, split, visible, idle⟩
    rw [Trace.pipe_of_idle split idle, if_pos visible]
    rfl

/-- An offer is taken once all before it are settled. -/
theorem offer_iff (calls : List Call) (value : Word) :
    ((Trace.of calls).pipe.offer? value).isSome ↔ AllSettled (Trace.of calls).events := by
  have explains := Trace.explains_of calls
  cases holds : (Trace.of calls).pipe with
  | empty =>
      rw [holds] at explains
      exact iff_of_true rfl explains
  | pending | ready =>
      rw [holds] at explains
      obtain ⟨since, holding, -⟩ := explains
      exact iff_of_false nofun holding.not_settled
  | claimed | delivered =>
      rw [holds] at explains
      obtain ⟨since, owing, -⟩ := explains
      exact iff_of_false nofun owing.not_settled

/-- A claim is reported once, after a commit, unless it has been forgotten. -/
theorem acknowledge_iff (calls : List Call) :
    (Trace.of calls).pipe.acknowledge?.isSome ↔
      ∃ since value before, (Trace.of calls).events = since ++ .claimed (some value) :: before ∧
        .committed ∈ since ∧ .reset ∉ since ∧ .acknowledged true ∉ since := by
  constructor
  · intro reports
    have explains := Trace.explains_of calls
    cases holds : (Trace.of calls).pipe with
    | delivered =>
        rw [holds] at explains
        obtain ⟨since, ⟨value, between, before, split, -, -, kept⟩, known⟩ := explains
        refine ⟨since, value, before, split, known, fun forgotten => ?_, fun reported => ?_⟩
        · rcases kept _ forgotten with idle | same <;> contradiction
        · rcases kept _ reported with idle | same <;> contradiction
    | empty | pending | ready | claimed =>
        rw [holds] at reports
        cases reports
  · rintro ⟨since, value, before, split, known, remembered, unreported⟩
    rw [Trace.pipe_of_unreported split remembered unreported, if_pos known]
    rfl

theorem isClaimed_of_unreported {calls : List Call} {since before : List Event} {value : Word}
    (split : (Trace.of calls).events = since ++ .claimed (some value) :: before)
    (remembered : .reset ∉ since) (unreported : .acknowledged true ∉ since) :
    (Trace.of calls).pipe.isClaimed := by
  rw [Trace.pipe_of_unreported split remembered unreported]
  split <;> rfl

/-- What a pipe does next is told by the events so far, whatever has been asked of it.  A claim has
the word of the last offer that was taken, if since then there was a commit and nothing took the
word out or put another one in; so words are claimed in the order of their offers and at most once.
An offer is taken once each before it has been taken back unclaimed, forgotten or acknowledged.  A
claim is reported once, after a commit and unless it has been forgotten, and a withdrawal leaves
it. -/
theorem answers_told_by_events (calls : List Call) :
    (∀ value, (Trace.of calls).pipe.claim?.map (·.1) = some value ↔
      ∃ since before, (Trace.of calls).events = since ++ .offered value true :: before ∧
        .committed ∈ since ∧ ∀ event ∈ since, event.isIdle) ∧
    (claimedWords (Trace.of calls).events).Sublist (takenWords (Trace.of calls).events) ∧
    (∀ value, ((Trace.of calls).pipe.offer? value).isSome ↔
      ∀ since earlier before, (Trace.of calls).events = since ++ .offered earlier true :: before →
        Settled since) ∧
    ((Trace.of calls).pipe.acknowledge?.isSome ↔
      ∃ since value before, (Trace.of calls).events = since ++ .claimed (some value) :: before ∧
        .committed ∈ since ∧ .reset ∉ since ∧ .acknowledged true ∉ since) ∧
    (∀ since value before, (Trace.of calls).events = since ++ .claimed (some value) :: before →
      .reset ∉ since → .acknowledged true ∉ since →
        (Trace.of calls).pipe.withdraw = (Trace.of calls).pipe) := by
  refine ⟨claim_iff calls, ?_, offer_iff calls, acknowledge_iff calls, ?_⟩
  · exact (List.sublist_append_right _ _).trans (claimed_sublist calls)
  · intro since value before split remembered unreported
    exact withdraw_of_isClaimed (isClaimed_of_unreported split remembered unreported)

/-- The second word is refused until the claim of the first has been acknowledged. -/
example : (Trace.of [.offer 7, .commit, .claim, .withdraw, .offer 8, .commit, .acknowledge,
    .offer 9]).events =
    [.offered 9 true, .acknowledged true, .committed, .offered 8 false, .withdrawn,
      .claimed (some 7), .committed, .offered 7 true] := by decide

end Trace

end NodeGrid.Pipe
