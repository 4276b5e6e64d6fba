import NodeGrid.Fabric.Link
import Mathlib.Data.List.Nodup

/-!
# Laws of pipe tables

A table is read through `get?`.  Opening and closing change which numbers are open; everything
that happens during a tick changes only what open pipes hold, and is described here by what it does
to each entry.
-/

namespace NodeGrid

theorem PipeId.eq_iff {first second : PipeId} : first = second ↔ first.index = second.index := by
  cases first
  cases second
  simp

namespace Pipe

@[simp] theorem commit_eq_empty_iff {pipe : Pipe} : pipe.commit = .empty ↔ pipe = .empty := by
  cases pipe with
  | empty => exact iff_of_true rfl rfl
  | pending | ready | claimed | delivered => exact iff_of_false nofun nofun

@[simp] theorem isClaimed_commit (pipe : Pipe) : pipe.commit.isClaimed = pipe.isClaimed := by
  cases pipe <;> rfl

/-- What a pipe holds after its claim, if there is one that is known, has been acknowledged. -/
def acknowledged (pipe : Pipe) : Pipe :=
  if pipe = .delivered then .empty else pipe

@[simp] theorem acknowledged_eq_empty_iff {pipe : Pipe} :
    pipe.acknowledged = .empty ↔ pipe = .empty ∨ pipe = .delivered := by
  unfold acknowledged
  split <;> simp_all

/-- A commit changes a pipe if something has just been offered to it or claimed from it. -/
theorem commit_eq_self_iff {pipe : Pipe} :
    pipe.commit = pipe ↔ (∀ value, pipe ≠ .pending value) ∧ pipe ≠ .claimed := by
  cases pipe with
  | pending value => exact iff_of_false nofun fun settled => settled.1 value rfl
  | claimed => exact iff_of_false nofun fun settled => settled.2 rfl
  | empty | ready | delivered => exact iff_of_true rfl ⟨nofun, nofun⟩

theorem peek?_eq_some_iff {pipe : Pipe} {value : Word} :
    pipe.peek? = some value ↔ pipe = .ready value := by
  cases pipe <;> simp [peek?]

/-- The word that has been put into a pipe and not yet been taken from it. -/
def word? : Pipe → Option Word
  | .pending value | .ready value => some value
  | .empty | .claimed | .delivered => none

@[simp] theorem word?_commit (pipe : Pipe) : pipe.commit.word? = pipe.word? := by
  cases pipe <;> rfl

@[simp] theorem word?_acknowledged (pipe : Pipe) : pipe.acknowledged.word? = pipe.word? := by
  cases pipe <;> rfl

end Pipe

namespace OpenPipe

/-- The entry after a word has been offered to it. -/
def offered (entry : OpenPipe) (value : Word) (shared : Bool) : OpenPipe :=
  if entry.pipe = .empty then { entry with pipe := .pending value, shared } else entry

/-- The entry after its claim, if there is one, has been acknowledged. -/
def acknowledged (entry : OpenPipe) : OpenPipe :=
  if entry.pipe = .delivered then { entry with pipe := .empty } else entry

/-- The entry after an unclaimed offer has been taken back. -/
def withdrawn (entry : OpenPipe) : OpenPipe :=
  { entry with pipe := entry.pipe.withdraw }

/-- The entry after the word of another entry has been claimed: a copy of that word goes. -/
def bereft (entry taken : OpenPipe) : OpenPipe :=
  if taken.shared ∧ entry.shared ∧ entry.writer = taken.writer then entry.withdrawn else entry

@[simp] theorem offered_writer (entry : OpenPipe) (value : Word) (shared : Bool) :
    (entry.offered value shared).writer = entry.writer := by
  unfold offered
  split <;> rfl

/-- An entry holds a copy of the word in another one: the word of the other is shared, and this one
holds a shared word of the same writer that has not been claimed. -/
def Copies (entry taken : OpenPipe) : Prop :=
  taken.shared ∧ entry.shared ∧ entry.writer = taken.writer ∧ entry.pipe.word?.isSome

instance (entry taken : OpenPipe) : Decidable (entry.Copies taken) :=
  inferInstanceAs (Decidable (_ ∧ _ ∧ _ ∧ _))

/-- When a word is claimed, just the copies of it go. -/
theorem bereft_eq (entry taken : OpenPipe) :
    entry.bereft taken = if entry.Copies taken then { entry with pipe := .empty } else entry := by
  unfold bereft
  by_cases shared : taken.shared ∧ entry.shared ∧ entry.writer = taken.writer
  · have copies : entry.Copies taken ↔ entry.pipe.word?.isSome :=
      ⟨fun copies => copies.2.2.2, fun held => ⟨shared.1, shared.2.1, shared.2.2, held⟩⟩
    rw [if_pos shared]
    simp only [copies]
    obtain ⟨pipe, writer, mark⟩ := entry
    cases pipe <;> rfl
  · have other : ¬entry.Copies taken :=
      fun copies => shared ⟨copies.1, copies.2.1, copies.2.2.1⟩
    rw [if_neg shared, if_neg other]

/-- A claim takes nothing from the pipes of other writers. -/
theorem bereft_of_ne {entry taken : OpenPipe} (different : entry.writer ≠ taken.writer) :
    entry.bereft taken = entry := by
  rw [bereft_eq, if_neg fun copies => different copies.2.2.1]

theorem offered_pipe (entry : OpenPipe) (value : Word) (shared : Bool) :
    (entry.offered value shared).pipe =
      if entry.pipe = .empty then .pending value else entry.pipe := by
  unfold offered
  split <;> rfl

/-- A pipe that has been offered a word holds something. -/
theorem offered_ne_empty (entry : OpenPipe) (value : Word) (shared : Bool) :
    (entry.offered value shared).pipe ≠ .empty := by
  unfold offered
  split
  next => simp
  next nonempty => exact nonempty

@[simp] theorem acknowledged_writer (entry : OpenPipe) :
    entry.acknowledged.writer = entry.writer := by
  unfold acknowledged
  split <;> rfl

theorem acknowledged_pipe (entry : OpenPipe) :
    entry.acknowledged.pipe = entry.pipe.acknowledged := by
  unfold acknowledged Pipe.acknowledged
  split <;> rfl

@[simp] theorem offered_offered (entry : OpenPipe) (value : Word) (shared : Bool) :
    (entry.offered value shared).offered value shared = entry.offered value shared := by
  by_cases free : entry.pipe = .empty <;> simp [offered, free]

@[simp] theorem withdrawn_withdrawn (entry : OpenPipe) :
    entry.withdrawn.withdrawn = entry.withdrawn := by
  cases entry with
  | mk pipe writer shared => cases pipe <;> rfl

end OpenPipe

namespace PipeTable

/-- The module that writes to an open pipe. -/
def writer? (table : PipeTable) (id : PipeId) : Option Handle :=
  (table.get? id).map (·.writer)

theorem get?_modify (table : PipeTable) (id other : PipeId) (change : OpenPipe → OpenPipe) :
    (table.modify id change).get? other =
      if other = id then (table.get? id).map change else table.get? other := by
  simp only [get?, modify, Array.getElem?_modify, PipeId.eq_iff]
  by_cases same : id.index = other.index
  · rw [if_pos same, if_pos same.symm, same]
    cases table.slots[other.index]? <;> rfl
  · rw [if_neg same, if_neg (Ne.symm same)]

/-- What a change of the entries, one by one, does to the table. -/
theorem get?_mapIdx (table : PipeTable) (change : Nat → OpenPipe → OpenPipe) (id : PipeId) :
    get? { table with slots := table.slots.mapIdx fun index slot => slot.map (change index) } id =
      (table.get? id).map (change id.index) := by
  simp only [get?, Array.getElem?_mapIdx]
  cases table.slots[id.index]? <;> rfl

theorem get?_commit (table : PipeTable) (id : PipeId) :
    table.commit.get? id =
      (table.get? id).map fun entry => { entry with pipe := entry.pipe.commit } := by
  simp only [get?, commit, Array.getElem?_map]
  cases table.slots[id.index]? <;> rfl

theorem get?_offer (table : PipeTable) (id other : PipeId) (value : Word) (shared : Bool) :
    (table.offer id value shared).2.get? other =
      if other = id then (table.get? id).map (·.offered value shared) else table.get? other := by
  unfold offer pipe?
  cases found : table.get? id with
  | none =>
      by_cases same : other = id <;> simp [same, found]
  | some entry =>
      cases holds : entry.pipe with
      | empty => simp [get?_modify, found, holds, Pipe.offer?, OpenPipe.offered]
      | pending _ | ready _ | claimed | delivered =>
          by_cases same : other = id <;>
            simp [same, found, holds, Pipe.offer?, OpenPipe.offered]

theorem get?_acknowledge (table : PipeTable) (id other : PipeId) :
    (table.acknowledge id).2.get? other =
      if other = id then (table.get? id).map (·.acknowledged) else table.get? other := by
  unfold acknowledge pipe?
  cases found : table.get? id with
  | none =>
      by_cases same : other = id <;> simp [same, found]
  | some entry =>
      cases holds : entry.pipe with
      | delivered => simp [get?_modify, found, holds, Pipe.acknowledge?, OpenPipe.acknowledged]
      | empty | pending _ | ready _ | claimed =>
          by_cases same : other = id <;>
            simp [same, found, holds, Pipe.acknowledge?, OpenPipe.acknowledged]

theorem get?_acknowledge_of_ne (table : PipeTable) {id other : PipeId} (different : other ≠ id) :
    (table.acknowledge id).2.get? other = table.get? other := by
  rw [get?_acknowledge, if_neg different]

/-- An acknowledgement empties its pipe if that holds a known claim. -/
theorem exists_acknowledged {table : PipeTable} {id : PipeId} {entry : OpenPipe}
    (opened : table.get? id = some entry) (other : PipeId) :
    ∃ settled, (table.acknowledge other).2.get? id = some settled ∧
      settled.writer = entry.writer ∧
      settled.pipe = if id = other then entry.pipe.acknowledged else entry.pipe := by
  rw [get?_acknowledge]
  by_cases same : id = other
  · subst same
    rw [if_pos rfl, opened, Option.map_some]
    exact ⟨_, rfl, entry.acknowledged_writer, by rw [if_pos rfl, entry.acknowledged_pipe]⟩
  · rw [if_neg same]
    exact ⟨entry, opened, rfl, by rw [if_neg same]⟩

theorem acknowledge_fst (table : PipeTable) (id : PipeId) :
    (table.acknowledge id).1 = decide (table.pipe? id = some .delivered) := by
  unfold acknowledge
  cases found : table.pipe? id with
  | none => simp
  | some pipe => cases pipe <;> simp [Pipe.acknowledge?]

theorem offer_fst (table : PipeTable) (id : PipeId) (value : Word) (shared : Bool) :
    (table.offer id value shared).1 = decide (table.pipe? id = some .empty) := by
  unfold offer
  cases found : table.pipe? id with
  | none => simp
  | some pipe => cases pipe <;> simp [Pipe.offer?]

theorem isEmpty_iff {table : PipeTable} {id : PipeId} :
    table.isEmpty id ↔ table.pipe? id = some .empty := by
  unfold isEmpty
  cases table.pipe? id <;> simp [Pipe.isEmpty]

theorem get?_withdraw (table : PipeTable) (id other : PipeId) :
    (table.withdraw id).get? other =
      if other = id then (table.get? id).map (·.withdrawn) else table.get? other :=
  get?_modify table id other _

theorem get?_reset (table : PipeTable) (id other : PipeId) :
    (table.reset id).get? other =
      if other = id then (table.get? id).map ({ · with pipe := .empty }) else table.get? other :=
  get?_modify table id other _

theorem pipe?_eq_some_iff {table : PipeTable} {id : PipeId} {pipe : Pipe} :
    table.pipe? id = some pipe ↔ ∃ entry, table.get? id = some entry ∧ entry.pipe = pipe := by
  simp [pipe?]

/-- A word can be claimed exactly when it is ready. -/
theorem peek?_eq_some_iff {table : PipeTable} {id : PipeId} {value : Word} :
    (table.pipe? id).bind (·.peek?) = some value ↔ table.pipe? id = some (.ready value) := by
  simp [Option.bind_eq_some_iff, Pipe.peek?_eq_some_iff]

/-- A pipe that holds nothing at all is one without a writer. -/
theorem pipe?_eq_none_iff {table : PipeTable} {id : PipeId} :
    table.pipe? id = none ↔ table.writer? id = none := by
  simp [pipe?, writer?]

/-! ## Claims -/

/-- A claim answers with the word that is ready. -/
theorem claim_fst (table : PipeTable) (id : PipeId) :
    (table.claim id).1 = (table.pipe? id).bind (·.peek?) := by
  unfold claim pipe?
  cases found : table.get? id with
  | none => rfl
  | some entry => cases holds : entry.pipe <;> simp [Pipe.claim?, Pipe.peek?, holds]

/-- Without a word that is ready nothing is claimed and nothing changes. -/
theorem claim_eq_of_peek_none {table : PipeTable} {id : PipeId}
    (nothing : (table.pipe? id).bind (·.peek?) = none) : table.claim id = (none, table) := by
  unfold claim
  cases found : table.get? id with
  | none => rfl
  | some entry =>
      cases holds : entry.pipe with
      | ready value => simp [pipe?, found, holds, Pipe.peek?] at nothing
      | empty | pending _ | claimed | delivered => simp [Pipe.claim?, holds]

/-- A claim marks its pipe and takes every copy of the word from the writer's other pipes. -/
theorem get?_claim {table : PipeTable} {id : PipeId} {taken : OpenPipe} {value : Word}
    (found : table.get? id = some taken) (holds : taken.pipe = .ready value) (other : PipeId) :
    (table.claim id).2.get? other =
      if other = id then some { taken with pipe := .claimed }
      else (table.get? other).map (·.bereft taken) := by
  simp only [claim, found, holds, Pipe.claim?]
  by_cases shared : taken.shared
  · rw [if_pos shared]
    unfold withdrawCopies
    rw [get?_mapIdx, get?_modify, found]
    by_cases same : other = id
    · simp [same]
    · rw [if_neg same, if_neg same]
      congr 1
      funext entry
      have index : other.index ≠ id.index := fun equal => same (PipeId.eq_iff.2 equal)
      simp [OpenPipe.bereft, OpenPipe.withdrawn, shared, index]
  · rw [if_neg shared, get?_modify, found]
    by_cases same : other = id
    · simp [same]
    · simp [same, OpenPipe.bereft, shared]

/-! ## Operations on several pipes -/

/-- Going through some pipes with a change that says nothing new the second time changes just these
pipes. -/
theorem get?_foldl {visit : PipeTable → PipeId → PipeTable} {change : OpenPipe → OpenPipe}
    (pointwise : ∀ table id other, (visit table id).get? other =
      if other = id then (table.get? id).map change else table.get? other)
    (idempotent : ∀ entry, change (change entry) = change entry)
    (table : PipeTable) (links : List Link) (id : PipeId) :
    (links.foldl (fun after link => visit after link.send) table).get? id =
      if id ∈ links.map (·.send) then (table.get? id).map change else table.get? id := by
  induction links generalizing table with
  | nil => simp
  | cons link rest ih =>
      rw [List.foldl_cons, ih, pointwise, List.map_cons]
      by_cases first : id = link.send
      · subst first
        by_cases again : link.send ∈ rest.map (·.send)
        · simp [again, Function.comp_def, idempotent]
        · simp [again]
      · simp [first]

theorem offerShared_snd (table : PipeTable) (value : Word) (links : List Link) :
    (table.offerShared value links).2 =
      links.foldl (fun after link => (after.offer link.send value true).2) table := by
  induction links generalizing table with
  | nil => rfl
  | cons link rest ih => exact ih _

theorem get?_offerShared (table : PipeTable) (value : Word) (links : List Link) (id : PipeId) :
    (table.offerShared value links).2.get? id =
      if id ∈ links.map (·.send) then (table.get? id).map (·.offered value true)
      else table.get? id := by
  have pointwise : ∀ (table : PipeTable) (id other : PipeId),
      (table.offer id value true).2.get? other =
        if other = id then (table.get? id).map (·.offered value true) else table.get? other := by
    intro table id other
    exact get?_offer table id other value true
  rw [offerShared_snd]
  exact get?_foldl pointwise (by simp) table links id

theorem get?_withdrawAll (table : PipeTable) (links : List Link) (id : PipeId) :
    (table.withdrawAll links).get? id =
      if id ∈ links.map (·.send) then (table.get? id).map (·.withdrawn) else table.get? id :=
  get?_foldl get?_withdraw (by simp) table links id

theorem get?_resetAll (table : PipeTable) (links : List Link) (id : PipeId) :
    (table.resetAll links).get? id =
      if id ∈ links.map (·.send) then (table.get? id).map ({ · with pipe := .empty })
      else table.get? id :=
  get?_foldl get?_reset (fun _ => rfl) table links id

/-! ## Opening and closing -/

/-- The list of free numbers names every number that was used and is not open, and each of them
once. -/
structure Sound (table : PipeTable) : Prop where
  free_nodup : table.free.Nodup
  mem_free : ∀ id, id ∈ table.free ↔ id.index < table.slots.size ∧ table.get? id = none

@[simp] theorem get?_empty (id : PipeId) : empty.get? id = none := by
  simp [get?, empty]

theorem Sound.empty : Sound empty where
  free_nodup := by simp [PipeTable.empty]
  mem_free := by simp [PipeTable.empty]

/-- The number of a new pipe was not open before. -/
theorem Sound.get?_openFor_fst {table : PipeTable} (sound : table.Sound) (writer : Handle) :
    table.get? (table.openFor writer).1 = none := by
  unfold openFor
  cases free : table.free with
  | nil => simp [get?]
  | cons first rest => exact ((sound.mem_free first).1 (by simp [free])).2

theorem Sound.get?_openFor {table : PipeTable} (sound : table.Sound) (writer : Handle)
    (id : PipeId) :
    (table.openFor writer).2.get? id =
      if id = (table.openFor writer).1 then some ⟨.empty, writer, false⟩ else table.get? id := by
  unfold openFor
  cases free : table.free with
  | nil =>
      simp only [get?, Array.getElem?_push, PipeId.eq_iff]
      by_cases last : id.index = table.slots.size <;> simp [last]
  | cons first rest =>
      have inBounds := ((sound.mem_free first).1 (by simp [free])).1
      simp only [get?, Array.getElem?_setIfInBounds, PipeId.eq_iff]
      by_cases same : first.index = id.index
      · simp [same, same ▸ inBounds]
      · simp [same, Ne.symm same]

theorem Sound.openFor {table : PipeTable} (sound : table.Sound) (writer : Handle) :
    (table.openFor writer).2.Sound := by
  have opened := sound.get?_openFor writer
  unfold PipeTable.openFor at opened ⊢
  cases free : table.free with
  | nil =>
      rw [free] at opened
      refine ⟨by simp, fun id => ?_⟩
      have member := sound.mem_free id
      simp only [free, List.not_mem_nil, false_iff, not_and] at member ⊢
      rw [opened id]
      intro inBounds
      by_cases last : id = ⟨table.slots.size⟩
      · simp [last]
      · rw [if_neg last]
        refine member ?_
        have different : id.index ≠ table.slots.size := fun equal => last (PipeId.eq_iff.2 equal)
        simp only [Array.size_push] at inBounds
        omega
  | cons first rest =>
      rw [free] at opened
      have nodup : first ∉ rest ∧ rest.Nodup := by simpa [free] using sound.free_nodup
      refine ⟨nodup.2, fun id => ?_⟩
      have member := sound.mem_free id
      simp only [free, List.mem_cons] at member
      simp only [Array.size_setIfInBounds]
      rw [opened id]
      by_cases same : id = first
      · simp [same, nodup.1]
      · simpa [same] using member

theorem get?_close (table : PipeTable) (id other : PipeId) :
    (table.close id).get? other = if other = id then none else table.get? other := by
  unfold close
  cases found : table.get? id with
  | none =>
      by_cases same : other = id
      · simp [same, found]
      · simp [same]
  | some entry =>
      simp only [get?, Array.getElem?_setIfInBounds, PipeId.eq_iff]
      by_cases same : id.index = other.index
      · rw [if_pos same, if_pos same.symm]
        split <;> rfl
      · rw [if_neg same, if_neg (Ne.symm same)]

theorem Sound.close {table : PipeTable} (sound : table.Sound) (id : PipeId) :
    (table.close id).Sound := by
  have closed := table.get?_close id
  unfold PipeTable.close at closed ⊢
  cases found : table.get? id with
  | none => exact sound
  | some entry =>
      rw [found] at closed
      have inBounds : id.index < table.slots.size := by
        by_contra outside
        simp [get?, Array.getElem?_eq_none (Nat.le_of_not_lt outside)] at found
      have used : id ∉ table.free := by
        rw [sound.mem_free, found]
        simp
      refine ⟨List.nodup_cons.2 ⟨used, sound.free_nodup⟩, fun other => ?_⟩
      simp only [List.mem_cons, Array.size_setIfInBounds]
      rw [closed other, sound.mem_free other]
      by_cases same : other = id
      · simp [same, inBounds]
      · simp [same]

/-! ## Counting -/

/-- The numbers of the open pipes, in increasing order. -/
def openIds (table : PipeTable) : List PipeId :=
  table.slots.toList.zipIdx.filterMap fun (slot, index) => slot.map fun _ => ⟨index⟩

theorem mem_openIds {table : PipeTable} {id : PipeId} :
    id ∈ table.openIds ↔ ∃ entry, table.get? id = some entry := by
  simp only [openIds, List.mem_filterMap, Prod.exists, List.mk_mem_zipIdx_iff_getElem?,
    Array.getElem?_toList, Option.map_eq_some_iff, get?, Option.join_eq_some_iff]
  constructor
  · rintro ⟨_, index, found, entry, rfl, rfl⟩
    exact ⟨entry, found⟩
  · rintro ⟨entry, found⟩
    exact ⟨_, id.index, found, entry, rfl, rfl⟩

theorem openIds_nodup (table : PipeTable) : table.openIds.Nodup := by
  have indices : (table.openIds.map (·.index)).Sublist
      (table.slots.toList.zipIdx.map Prod.snd) := by
    unfold openIds
    generalize table.slots.toList.zipIdx = pairs
    induction pairs with
    | nil => simp
    | cons pair rest ih =>
        obtain ⟨slot, index⟩ := pair
        cases slot with
        | none => simpa using ih.cons index
        | some entry => simpa using ih.cons_cons index
  apply List.Nodup.of_map (·.index)
  apply indices.nodup
  rw [List.zipIdx_map_snd]
  exact List.nodup_range'

theorem length_openIds (table : PipeTable) : table.openIds.length = table.openCount := by
  unfold openIds openCount
  generalize 0 = start
  induction table.slots.toList generalizing start with
  | nil => rfl
  | cons slot rest ih =>
      cases slot with
      | none => simpa using ih (start + 1)
      | some entry => simpa using ih (start + 1)

/-! ## Tables with the same pipes open -/

/-- The same pipes are open in both tables, for the same writers, and the same numbers are free. -/
structure Alike (before after : PipeTable) : Prop where
  free : after.free = before.free
  size : after.slots.size = before.slots.size
  writer : ∀ id, after.writer? id = before.writer? id

namespace Alike

variable {before middle after : PipeTable}

theorem refl (table : PipeTable) : Alike table table :=
  ⟨rfl, rfl, fun _ => rfl⟩

theorem trans (first : Alike before middle) (second : Alike middle after) : Alike before after where
  free := second.free.trans first.free
  size := second.size.trans first.size
  writer := fun id => (second.writer id).trans (first.writer id)

/-- An open pipe stays open for its writer. -/
theorem exists_get? (alike : Alike before after) {id : PipeId} {entry : OpenPipe}
    (found : before.get? id = some entry) :
    ∃ later, after.get? id = some later ∧ later.writer = entry.writer := by
  have writer := alike.writer id
  rw [writer?, writer?, found, Option.map_some, Option.map_eq_some_iff] at writer
  exact writer

theorem exists_get?_of_after (alike : Alike before after) {id : PipeId} {entry : OpenPipe}
    (found : after.get? id = some entry) :
    ∃ earlier, before.get? id = some earlier ∧ earlier.writer = entry.writer := by
  have writer := (alike.writer id).symm
  rw [writer?, writer?, found, Option.map_some, Option.map_eq_some_iff] at writer
  exact writer

theorem sound (alike : Alike before after) (sound : before.Sound) : after.Sound where
  free_nodup := by
    rw [alike.free]
    exact sound.free_nodup
  mem_free := by
    intro id
    have closed : after.get? id = none ↔ before.get? id = none := by
      have writer := alike.writer id
      simp only [writer?] at writer
      cases earlier : before.get? id <;> cases later : after.get? id <;>
        simp [earlier, later] at writer ⊢
    rw [alike.free, alike.size, closed]
    exact sound.mem_free id

theorem modify (table : PipeTable) (id : PipeId) {change : OpenPipe → OpenPipe}
    (keeps : ∀ entry, (change entry).writer = entry.writer) :
    Alike table (table.modify id change) where
  free := rfl
  size := by simp [PipeTable.modify]
  writer := by
    intro other
    rw [writer?, get?_modify]
    by_cases same : other = id
    · subst same
      simp [writer?, Function.comp_def, keeps]
    · simp [same, writer?]

theorem withdraw (table : PipeTable) (id : PipeId) : Alike table (table.withdraw id) :=
  modify table id fun _ => rfl

theorem reset (table : PipeTable) (id : PipeId) : Alike table (table.reset id) :=
  modify table id fun _ => rfl

theorem offer (table : PipeTable) (id : PipeId) (value : Word) (shared : Bool) :
    Alike table (table.offer id value shared).2 := by
  unfold PipeTable.offer
  split
  next => exact modify table id fun _ => rfl
  next => exact refl table

theorem acknowledge (table : PipeTable) (id : PipeId) :
    Alike table (table.acknowledge id).2 := by
  unfold PipeTable.acknowledge
  split
  next => exact modify table id fun _ => rfl
  next => exact refl table

theorem withdrawCopies (table : PipeTable) (kept : PipeId) (writer : Handle) :
    Alike table (table.withdrawCopies kept writer) where
  free := rfl
  size := by simp [PipeTable.withdrawCopies]
  writer := by
    intro other
    unfold PipeTable.withdrawCopies
    rw [writer?, get?_mapIdx, writer?, Option.map_map]
    congr 1
    funext entry
    dsimp only [Function.comp_apply]
    split <;> rfl

theorem claim (table : PipeTable) (id : PipeId) : Alike table (table.claim id).2 := by
  unfold PipeTable.claim
  cases table.get? id with
  | none => exact refl table
  | some entry =>
      dsimp only
      cases entry.pipe.claim? with
      | none => exact refl table
      | some claimed =>
          have marked : Alike table (table.modify id ({ · with pipe := claimed.2 })) :=
            modify table id fun _ => rfl
          cases shared : entry.shared with
          | true => simpa [shared] using marked.trans (withdrawCopies _ id entry.writer)
          | false => simpa [shared] using marked

theorem commit (table : PipeTable) : Alike table table.commit where
  free := rfl
  size := by simp [PipeTable.commit]
  writer := by
    intro other
    simp [writer?, get?_commit, Function.comp_def]

theorem foldl {visit : PipeTable → Link → PipeTable} (each : ∀ table link, Alike table (visit table link))
    (table : PipeTable) (links : List Link) : Alike table (links.foldl visit table) := by
  induction links generalizing table with
  | nil => exact refl table
  | cons link rest ih => exact (each table link).trans (ih _)

theorem offerShared (table : PipeTable) (value : Word) (links : List Link) :
    Alike table (table.offerShared value links).2 := by
  rw [offerShared_snd]
  exact foldl (fun table link => offer table link.send value true) table links

theorem withdrawAll (table : PipeTable) (links : List Link) :
    Alike table (table.withdrawAll links) :=
  foldl (fun table link => withdraw table link.send) table links

theorem resetAll (table : PipeTable) (links : List Link) : Alike table (table.resetAll links) :=
  foldl (fun table link => reset table link.send) table links

end Alike

end PipeTable

end NodeGrid
