import NodeGrid.Proofs.Pipe.Table

/-!
# Twin pipes

Two tables can hold the same under different numbers.  As long as some pipes of the one are matched
one to one with pipes of the other, and matched pipes have one writer and hold the same, nothing
that is done to matched pipes in both tables tells them apart.  In particular the copies of a word
are found through the writer, and so they are gone from both tables after a claim.
-/

namespace NodeGrid

namespace OpenPipe

/-- What shows of an open pipe: what it holds, and whether that is shared if it is anything. -/
def visible (entry : OpenPipe) : Pipe × Bool :=
  (entry.pipe, decide (entry.pipe ≠ .empty) && entry.shared)

/-- Two open pipes of one writer that look the same. -/
structure Twin (entry twin : OpenPipe) : Prop where
  writer : entry.writer = twin.writer
  visible : entry.visible = twin.visible

theorem visible_eq_iff {first second : OpenPipe} :
    first.visible = second.visible ↔
      first.pipe = second.pipe ∧ (first.pipe ≠ .empty → first.shared = second.shared) := by
  unfold visible
  rw [Prod.mk.injEq]
  refine and_congr_right fun same => ?_
  rw [← same]
  by_cases free : first.pipe = .empty <;> simp [free]

namespace Twin

variable {entry twin : OpenPipe} (twins : Twin entry twin)
include twins

theorem pipe : entry.pipe = twin.pipe :=
  (visible_eq_iff.1 twins.visible).1

theorem shared (nonempty : entry.pipe ≠ .empty) : entry.shared = twin.shared :=
  (visible_eq_iff.1 twins.visible).2 nonempty

/-- A change of what the pipes hold that fills neither of them. -/
theorem map (change : Pipe → Pipe) (fills : entry.pipe = .empty → change .empty = .empty) :
    Twin { entry with pipe := change entry.pipe } { twin with pipe := change twin.pipe } where
  writer := twins.writer
  visible := by
    refine visible_eq_iff.2 ⟨congrArg change twins.pipe, fun nonempty => twins.shared ?_⟩
    intro free
    rw [free] at nonempty
    exact nonempty (fills free)

theorem commit :
    Twin { entry with pipe := entry.pipe.commit } { twin with pipe := twin.pipe.commit } :=
  twins.map Pipe.commit fun _ => rfl

theorem withdrawn : Twin entry.withdrawn twin.withdrawn :=
  twins.map Pipe.withdraw fun _ => rfl

theorem acknowledged : Twin entry.acknowledged twin.acknowledged := by
  unfold OpenPipe.acknowledged
  rw [← twins.pipe]
  split
  next => exact ⟨twins.writer, visible_eq_iff.2 ⟨rfl, absurd rfl⟩⟩
  next => exact twins

theorem offered (value : Word) (shared : Bool) :
    Twin (entry.offered value shared) (twin.offered value shared) := by
  unfold OpenPipe.offered
  rw [← twins.pipe]
  split
  next => exact ⟨twins.writer, visible_eq_iff.2 ⟨rfl, fun _ => rfl⟩⟩
  next => exact twins

/-- If what is taken has a twin, then what is bereft of it has one. -/
theorem bereft {taken claimed : OpenPipe} (both : Twin taken claimed)
    (nonempty : taken.pipe ≠ .empty) : Twin (entry.bereft taken) (twin.bereft claimed) := by
  by_cases free : entry.pipe = .empty
  · have kept : ∀ {pipe other : OpenPipe}, pipe.pipe = .empty → pipe.bereft other = pipe := by
      rintro ⟨pipe, writer, shared⟩ other rfl
      simp [OpenPipe.bereft, OpenPipe.withdrawn, Pipe.withdraw]
    rw [kept free, kept (twins.pipe ▸ free)]
    exact twins
  · unfold OpenPipe.bereft
    rw [← both.shared nonempty, ← twins.shared free, ← twins.writer, ← both.writer]
    split
    next => exact twins.withdrawn
    next => exact twins

end Twin

end OpenPipe

namespace PipeTable

/-- Matched pipes of two tables are twins, and each has no other twin. -/
structure Twins (matched : PipeId → PipeId → Prop) (first second : PipeTable) : Prop where
  unique : ∀ {id other place there}, matched id place → matched other there →
    (other = id ↔ there = place)
  twin : ∀ {id place}, matched id place → ∃ entry twin, first.get? id = some entry ∧
    second.get? place = some twin ∧ entry.Twin twin

namespace Twins

variable {matched : PipeId → PipeId → Prop} {first second : PipeTable}
variable (twins : Twins matched first second)
include twins

theorem pipe? {id place : PipeId} (here : matched id place) :
    first.pipe? id = second.pipe? place := by
  obtain ⟨entry, twin, opened, placed, same⟩ := twins.twin here
  rw [PipeTable.pipe?, PipeTable.pipe?, opened, placed, Option.map_some, Option.map_some, same.pipe]

theorem isEmpty {id place : PipeId} (here : matched id place) :
    first.isEmpty id = second.isEmpty place := by
  rw [PipeTable.isEmpty, PipeTable.isEmpty, twins.pipe? here]

theorem isClaimed {id place : PipeId} (here : matched id place) :
    first.isClaimed id = second.isClaimed place := by
  rw [PipeTable.isClaimed, PipeTable.isClaimed, twins.pipe? here]

/-- Whatever is done to the entries one by one, with regard to their numbers at most as far as they
are matched. -/
theorem map {later after : PipeTable} {change changed : PipeId → OpenPipe → OpenPipe}
    (here : ∀ id, later.get? id = (first.get? id).map (change id))
    (there : ∀ place, after.get? place = (second.get? place).map (changed place))
    (keeps : ∀ {id place entry twin}, matched id place → first.get? id = some entry →
      second.get? place = some twin → entry.Twin twin →
      (change id entry).Twin (changed place twin)) : Twins matched later after where
  unique := twins.unique
  twin := by
    intro id place met
    obtain ⟨entry, twin, opened, placed, same⟩ := twins.twin met
    refine ⟨change id entry, changed place twin, ?_, ?_, keeps met opened placed same⟩
    · rw [here, opened, Option.map_some]
    · rw [there, placed, Option.map_some]

/-- What is done to one pipe in each table. -/
theorem single {later after : PipeTable} {id place : PipeId} (paired : matched id place)
    {change : OpenPipe → OpenPipe}
    (here : ∀ other, later.get? other =
      if other = id then (first.get? id).map change else first.get? other)
    (there : ∀ other, after.get? other =
      if other = place then (second.get? place).map change else second.get? other)
    (keeps : ∀ {entry twin : OpenPipe}, entry.Twin twin → (change entry).Twin (change twin)) :
    Twins matched later after := by
  have pointwise : ∀ {table changed : PipeTable} {target : PipeId},
      (∀ other, changed.get? other =
        if other = target then (table.get? target).map change else table.get? other) →
      ∀ other, changed.get? other =
        (table.get? other).map fun entry => if other = target then change entry else entry := by
    intro table changed target changes other
    rw [changes]
    by_cases same : other = target <;> simp [same]
  refine twins.map (pointwise here) (pointwise there) ?_
  intro other facing entry twin met opened placed same
  by_cases targeted : other = id
  · rw [if_pos targeted, if_pos ((twins.unique paired met).1 targeted)]
    exact keeps same
  · rw [if_neg targeted, if_neg fun hit => targeted ((twins.unique paired met).2 hit)]
    exact same

theorem commit : Twins matched first.commit second.commit :=
  twins.map first.get?_commit second.get?_commit fun _ _ _ same => same.commit

variable {id place : PipeId} (paired : matched id place)
include paired

theorem acknowledge : Twins matched (first.acknowledge id).2 (second.acknowledge place).2 :=
  twins.single paired (first.get?_acknowledge id) (second.get?_acknowledge place)
    OpenPipe.Twin.acknowledged

theorem withdraw : Twins matched (first.withdraw id) (second.withdraw place) :=
  twins.single paired (first.get?_withdraw id) (second.get?_withdraw place) OpenPipe.Twin.withdrawn

theorem offer (value : Word) (shared : Bool) :
    Twins matched (first.offer id value shared).2 (second.offer place value shared).2 :=
  twins.single paired (fun other => first.get?_offer id other value shared)
    (fun other => second.get?_offer place other value shared) fun same => same.offered value shared

theorem claim : Twins matched (first.claim id).2 (second.claim place).2 := by
  cases word : (first.pipe? id).bind (·.peek?) with
  | none =>
      rw [claim_eq_of_peek_none word, claim_eq_of_peek_none (twins.pipe? paired ▸ word)]
      exact twins
  | some value =>
      obtain ⟨taken, claimed, found, held, both⟩ := twins.twin paired
      have ready : taken.pipe = .ready value := by
        rw [PipeTable.pipe?, found] at word
        exact Pipe.peek?_eq_some_iff.1 word
      have pointwise : ∀ {table : PipeTable} {target : PipeId} {entry : OpenPipe},
          table.get? target = some entry → entry.pipe = .ready value →
          ∀ other, (table.claim target).2.get? other = (table.get? other).map fun rival =>
            if other = target then { rival with pipe := .claimed } else rival.bereft entry := by
        intro table target entry opened holds other
        rw [get?_claim opened holds]
        by_cases same : other = target <;> simp [same, opened]
      refine twins.map (pointwise found ready) (pointwise held (both.pipe ▸ ready)) ?_
      intro other facing entry twin met opened placed same
      by_cases targeted : other = id
      · rw [if_pos targeted, if_pos ((twins.unique paired met).1 targeted)]
        subst targeted
        rw [found] at opened
        cases opened
        exact same.map (fun _ => .claimed) fun free => by simp [ready] at free
      · rw [if_neg targeted, if_neg fun hit => targeted ((twins.unique paired met).2 hit)]
        exact same.bereft both (by simp [ready])

end Twins

end PipeTable

end NodeGrid
