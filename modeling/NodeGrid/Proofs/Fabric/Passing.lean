import NodeGrid.Proofs.Fabric.Motion

/-!
# A relay is all or nothing

A half claims the word in front of it only if it can put the word into the pipe toward the other
node in the same action.  The claim may take copies of the word from other pipes before the offer is
made, pipes may be closed, and one pipe may stand in several places of the two links; but nothing of
this fills the pipe that was found empty, so the offer is never refused.
-/

namespace NodeGrid

namespace OpenPipe

/-- A copy that nobody has claimed leaves nothing to acknowledge. -/
theorem Copies.acknowledged {entry taken : OpenPipe} (copies : entry.Copies taken) :
    entry.acknowledged = entry := by
  refine if_neg fun known => ?_
  simp [Copies, known, Pipe.word?] at copies

theorem copies_acknowledged {entry taken : OpenPipe} (copies : entry.acknowledged.Copies taken) :
    entry.Copies taken := by
  unfold OpenPipe.acknowledged at copies
  split at copies
  next => simp [Copies, Pipe.word?] at copies
  next => exact copies

end OpenPipe

namespace PipeTable

/-- A pipe can take a word once a known claim in the own pipe of a half has been acknowledged. -/
def Vacant (pipes : PipeTable) (own target : Link) : Prop :=
  pipes.pipe? target.send = some .empty ∨
    target.send = own.send ∧ pipes.pipe? own.send = some .delivered

theorem pipe?_acknowledge (pipes : PipeTable) (id other : PipeId) :
    (pipes.acknowledge id).2.pipe? other =
      (pipes.pipe? other).map fun pipe => if other = id then pipe.acknowledged else pipe := by
  rw [pipe?, get?_acknowledge, pipe?]
  by_cases same : other = id
  · simp [same, Function.comp_def, OpenPipe.acknowledged_pipe]
  · simp [same, Function.comp_def]

/-- Acknowledging makes no word ready and takes none away. -/
theorem ready_acknowledge_iff {pipes : PipeTable} {id other : PipeId} {value : Word} :
    (pipes.acknowledge id).2.pipe? other = some (.ready value) ↔
      pipes.pipe? other = some (.ready value) := by
  rw [pipe?_acknowledge]
  cases pipes.pipe? other with
  | none => simp
  | some pipe =>
      by_cases same : other = id
      · cases pipe <;> simp [same, Pipe.acknowledged]
      · simp [same]

theorem isEmpty_acknowledge_iff {pipes : PipeTable} {own target : Link} :
    (pipes.acknowledge own.send).2.isEmpty target.send ↔ pipes.Vacant own target := by
  rw [isEmpty_iff, pipe?_acknowledge, Vacant]
  by_cases same : target.send = own.send
  · rw [same]
    cases pipes.pipe? own.send <;> simp
  · simp [same]

/-- A pipe with a word in it stays as it is when a claim is acknowledged. -/
theorem get?_acknowledge_of_ready {pipes : PipeTable} {id : PipeId} {taken : OpenPipe}
    {value : Word} (held : pipes.get? id = some taken) (full : taken.pipe = .ready value) (other : PipeId) :
    (pipes.acknowledge other).2.get? id = some taken := by
  rw [get?_acknowledge]
  split
  next same => rw [← same, held, Option.map_some, OpenPipe.acknowledged, if_neg (by simp [full])]
  next => exact held

/-- A vacant pipe is open, and empty after the acknowledgement. -/
theorem Vacant.exists_get? {pipes : PipeTable} {own target : Link}
    (vacant : pipes.Vacant own target) :
    ∃ entry, pipes.get? target.send = some entry ∧ entry.pipe.word? = none ∧
      (pipes.acknowledge own.send).2.get? target.send = some { entry with pipe := .empty } := by
  rcases vacant with empty | ⟨same, known⟩
  · obtain ⟨⟨_, writer, shared⟩, opened, rfl⟩ := pipe?_eq_some_iff.1 empty
    refine ⟨_, opened, rfl, ?_⟩
    rw [get?_acknowledge]
    split
    next same =>
      rw [← same, opened]
      rfl
    next => exact opened
  · obtain ⟨⟨_, writer, shared⟩, opened, rfl⟩ := pipe?_eq_some_iff.1 known
    refine ⟨_, same ▸ opened, rfl, ?_⟩
    rw [get?_acknowledge, if_pos same, opened]
    rfl

/-- Between the acknowledgement and the offer another pipe is claimed from.  The vacant pipe is not
this one, and the claim takes no copy from it. -/
theorem Vacant.get?_claim {pipes : PipeTable} {own target : Link} {taken entry : OpenPipe}
    {value : Word} (held : pipes.get? own.receive = some taken) (full : taken.pipe = .ready value)
    (emptied : pipes.get? target.send = some { entry with pipe := .empty }) :
    target.send ≠ own.receive ∧
      (pipes.claim own.receive).2.get? target.send = some { entry with pipe := .empty } := by
  have apart : target.send ≠ own.receive := by
    intro same
    rw [same, held] at emptied
    cases emptied
    cases full
  have other : ¬OpenPipe.Copies { entry with pipe := .empty } taken := by
    rintro ⟨-, -, -, unclaimed⟩
    cases unclaimed
  rw [PipeTable.get?_claim held full, if_neg apart, emptied, Option.map_some,
    OpenPipe.bereft_eq, if_neg other]
  exact ⟨apart, rfl⟩

end PipeTable

namespace Forwarder

variable {pipes : PipeTable} {own target : Link} {onward : Option Link} {value : Word}

/-- A half passes on a word exactly when it has a link onward, the pipe there is vacant, and the
word is ready in front of it. -/
theorem passed?_eq_some_iff :
    passed? pipes own onward = some value ↔
      ∃ target, onward = some target ∧ pipes.Vacant own target ∧
        pipes.pipe? own.receive = some (.ready value) := by
  unfold passed?
  rw [Option.bind_eq_some_iff]
  simp only [Option.ite_none_right_eq_some, PipeTable.isEmpty_acknowledge_iff,
    PipeTable.peek?_eq_some_iff, PipeTable.ready_acknowledge_iff]

/-- The answer of a relay says whether a word is passed on: the offer that follows a claim finds the
pipe as empty as it was checked to be. -/
theorem relay_fst (pipes : PipeTable) (own : Link) (onward : Option Link) :
    (relay pipes own onward).1 = (passed? pipes own onward).isSome := by
  cases passes : passed? pipes own onward with
  | none => rw [relay_eq_of_not_passed passes, Option.isSome_none]
  | some value =>
      obtain ⟨target, rfl, vacant, ready⟩ := passed?_eq_some_iff.1 passes
      obtain ⟨taken, held, full⟩ := PipeTable.pipe?_eq_some_iff.1 ready
      have heldNow := PipeTable.get?_acknowledge_of_ready held full own.send
      obtain ⟨entry, -, -, emptied⟩ := vacant.exists_get?
      rw [relay_eq_of_passed passes, PipeTable.offer_fst, PipeTable.pipe?,
        (PipeTable.Vacant.get?_claim heldNow full emptied).2]
      rfl

/-- What a relay that passes on a word does to every pipe. -/
theorem get?_relay_of_passed {taken : OpenPipe}
    (passes : passed? pipes own (some target) = some value)
    (held : pipes.get? own.receive = some taken) (full : taken.pipe = .ready value) (id : PipeId) :
    (relay pipes own (some target)).2.get? id =
      if id = own.receive then some { taken with pipe := .claimed }
      else (pipes.get? id).map fun entry =>
        if id = target.send then { entry with pipe := .pending value, shared := false }
        else if id = own.send then entry.acknowledged.bereft taken
        else entry.bereft taken := by
  obtain ⟨_, same, vacant, -⟩ := passed?_eq_some_iff.1 passes
  cases same
  have heldNow := PipeTable.get?_acknowledge_of_ready held full own.send
  obtain ⟨entry, opened, -, emptied⟩ := vacant.exists_get?
  obtain ⟨apart, still⟩ := PipeTable.Vacant.get?_claim heldNow full emptied
  rw [relay_of_passed passes, PipeTable.get?_offer]
  by_cases toward : id = target.send
  · subst toward
    rw [if_pos rfl, if_neg apart, still, opened]
    simp [OpenPipe.offered]
  · rw [if_neg toward, PipeTable.get?_claim heldNow full]
    by_cases here : id = own.receive
    · rw [if_pos here, if_pos here]
    · rw [if_neg here, if_neg here, PipeTable.get?_acknowledge]
      by_cases sent : id = own.send
      · simp [sent, Function.comp_def, sent ▸ toward]
      · simp [sent, toward]

/-- All that happens to a pipe is that a known claim in the own pipe of a half is acknowledged. -/
def Acknowledges (pipes : PipeTable) (own : Link) (after : PipeTable) (id : PipeId) : Prop :=
  after.get? id = (pipes.get? id).map fun entry =>
    if id = own.send ∧ entry.pipe = .delivered then { entry with pipe := .empty } else entry

theorem acknowledges_acknowledge (pipes : PipeTable) (own : Link) (id : PipeId) :
    Acknowledges pipes own (pipes.acknowledge own.send).2 id := by
  rw [Acknowledges, PipeTable.get?_acknowledge]
  by_cases sent : id = own.send
  · simp [sent, OpenPipe.acknowledged]
  · simp [sent]

/-- What becomes of the pipes when a word moves from the pipe in front of a half into the pipe
toward the other node. -/
structure Passes (pipes : PipeTable) (own target : Link) (value : Word) (taken : OpenPipe)
    (after : PipeTable) : Prop where
  /-- The word was ready in front of the half. -/
  held : pipes.get? own.receive = some taken ∧ taken.pipe = .ready value
  /-- It has been claimed there. -/
  claimed : after.get? own.receive = some { taken with pipe := .claimed }
  /-- It has been offered to the other node, and it is not shared there. -/
  offered : ∃ entry, pipes.get? target.send = some entry ∧
    after.get? target.send = some { entry with pipe := .pending value, shared := false }
  /-- No other copy of it is left. -/
  withdrawn : ∀ id entry, id ≠ own.receive → pipes.get? id = some entry → entry.Copies taken →
    after.get? id = some { entry with pipe := .empty }
  /-- Nothing else has happened but the acknowledgement. -/
  others : ∀ id, id ≠ own.receive → id ≠ target.send →
    (∀ entry, pipes.get? id = some entry → ¬entry.Copies taken) → Acknowledges pipes own after id

/-- A relay moves a word whole, with its claim and its offer, or it moves nothing. -/
structure AllOrNothing (pipes : PipeTable) (own : Link) (onward : Option Link) (moved : Bool)
    (after : PipeTable) : Prop where
  /-- A word moves exactly when there is a link onward, its pipe can take a word after the
  acknowledgement, and a word is ready in front of the half. -/
  moved_iff : moved = true ↔ ∃ target value, onward = some target ∧ pipes.Vacant own target ∧
    pipes.pipe? own.receive = some (.ready value)
  /-- Then it is claimed in the one pipe and offered in the other. -/
  all : moved = true → ∃ target value taken, onward = some target ∧
    Passes pipes own target value taken after
  /-- Otherwise nothing is claimed or offered. -/
  nothing : moved = false → ∀ id, Acknowledges pipes own after id
  /-- A word that has been claimed stands in the pipe toward the other node. -/
  kept : ∀ value, pipes.pipe? own.receive = some (.ready value) →
    after.pipe? own.receive = some .claimed →
    ∃ target, onward = some target ∧ after.pipe? target.send = some (.pending value)
  /-- No pipe is opened or closed. -/
  alike : PipeTable.Alike pipes after

theorem passes_relay (passes : passed? pipes own (some target) = some value) :
    ∃ taken, Passes pipes own target value taken (relay pipes own (some target)).2 := by
  obtain ⟨_, same, vacant, ready⟩ := passed?_eq_some_iff.1 passes
  cases same
  obtain ⟨taken, held, full⟩ := PipeTable.pipe?_eq_some_iff.1 ready
  have law := get?_relay_of_passed passes held full
  obtain ⟨entry, opened, wordless, emptied⟩ := vacant.exists_get?
  obtain ⟨apart, -⟩ := PipeTable.Vacant.get?_claim
    (PipeTable.get?_acknowledge_of_ready held full own.send) full emptied
  refine ⟨taken, ⟨held, full⟩, ?claimed, ⟨entry, opened, ?offered⟩, ?withdrawn, ?others⟩
  case claimed => rw [law, if_pos rfl]
  case offered => rw [law, if_neg apart, opened, Option.map_some, if_pos rfl]
  case withdrawn =>
    intro id other here found copies
    have unaimed : id ≠ target.send := by
      rintro rfl
      cases opened.symm.trans found
      obtain ⟨-, -, -, unclaimed⟩ := copies
      simp [wordless] at unclaimed
    rw [law, if_neg here, found, Option.map_some, if_neg unaimed, copies.acknowledged, ite_self,
      OpenPipe.bereft_eq, if_pos copies]
  case others =>
    intro id here toward single
    rw [Acknowledges, law, if_neg here]
    refine Option.map_congr fun other found => ?_
    have alone := single other found
    rw [if_neg toward, OpenPipe.bereft_eq, OpenPipe.bereft_eq, if_neg alone,
      if_neg fun copies => alone (OpenPipe.copies_acknowledged copies)]
    by_cases sent : id = own.send <;> simp [sent, OpenPipe.acknowledged]

/-- A word that a relay has claimed is on its way to the other node. -/
theorem exists_pending_of_claimed (ready : pipes.pipe? own.receive = some (.ready value))
    (claimed : (relay pipes own onward).2.pipe? own.receive = some .claimed) :
    ∃ target, onward = some target ∧
      (relay pipes own onward).2.pipe? target.send = some (.pending value) := by
  cases passes : passed? pipes own onward with
  | none =>
      rw [relay_of_not_passed passes, PipeTable.ready_acknowledge_iff.2 ready] at claimed
      cases claimed
  | some word =>
      obtain ⟨target, rfl, -, full⟩ := passed?_eq_some_iff.1 passes
      cases ready.symm.trans full
      obtain ⟨taken, does⟩ := passes_relay passes
      obtain ⟨entry, -, offered⟩ := does.offered
      exact ⟨target, rfl, PipeTable.pipe?_eq_some_iff.2 ⟨_, offered, rfl⟩⟩

/-- For any pipes and any two links, a relay moves a word from the pipe in front of a half into the
pipe toward the other node, or it moves nothing.  What it does besides is to acknowledge a claim. -/
theorem relay_all_or_nothing (pipes : PipeTable) (own : Link) (onward : Option Link) :
    AllOrNothing pipes own onward (relay pipes own onward).1 (relay pipes own onward).2 := by
  have answer := relay_fst pipes own onward
  constructor
  case moved_iff =>
    rw [answer, Option.isSome_iff_exists]
    constructor
    · rintro ⟨value, passes⟩
      obtain ⟨target, found⟩ := passed?_eq_some_iff.1 passes
      exact ⟨target, value, found⟩
    · rintro ⟨target, value, found⟩
      exact ⟨value, passed?_eq_some_iff.2 ⟨target, found⟩⟩
  case all =>
    intro moved
    obtain ⟨value, passes⟩ := Option.isSome_iff_exists.1 (answer.symm.trans moved)
    obtain ⟨target, rfl, -⟩ := passed?_eq_some_iff.1 passes
    obtain ⟨taken, does⟩ := passes_relay passes
    exact ⟨target, value, taken, rfl, does⟩
  case nothing =>
    intro stays
    have idle := Option.isSome_eq_false_iff.1 (answer.symm.trans stays)
    rw [relay_of_not_passed (Option.isNone_iff_eq_none.1 idle)]
    exact acknowledges_acknowledge pipes own
  case kept => exact fun value => exists_pending_of_claimed
  case alike => exact alike_relay pipes own onward

end Forwarder

end NodeGrid
