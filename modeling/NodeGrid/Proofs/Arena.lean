import NodeGrid.Arena
import Mathlib.Data.List.Nodup

/-!
# Laws of arenas

An arena is read through `get?`.  Each operation changes what `get?` finds under one handle and
under no other, provided that the list of free slots is right: a slot that still holds a value
must never be handed out again.
-/

namespace NodeGrid

theorem Handle.eq_iff {first second : Handle} :
    first = second ↔ first.index = second.index ∧ first.generation = second.generation := by
  cases first
  cases second
  simp

namespace Arena

variable {α : Type}

/-- A handle finds a value exactly when its slot holds that value in its generation. -/
theorem get?_eq_some_iff {arena : Arena α} {handle : Handle} {value : α} :
    arena.get? handle = some value ↔
      arena.slots[handle.index]? = some ⟨handle.generation, some value⟩ := by
  unfold get?
  split
  next slot found =>
    obtain ⟨generation, held⟩ := slot
    rw [found]
    by_cases same : generation = handle.generation <;> simp [same]
  next missing => simp [missing]

/-- Only the value under the handle itself is changed. -/
theorem get?_modify (arena : Arena α) (handle other : Handle) (change : α → α) :
    (arena.modify handle change).get? other =
      if other = handle then (arena.get? handle).map change else arena.get? other := by
  simp only [get?, modify, Array.getElem?_modify, Handle.eq_iff]
  by_cases index : handle.index = other.index
  · rw [if_pos index, index]
    cases arena.slots[other.index]? with
    | none => simp
    | some slot => grind
  · simp [index, Ne.symm index]

@[simp] theorem get?_empty (handle : Handle) : (empty : Arena α).get? handle = none := by
  simp [get?, empty]

/-- Removing a value leaves every other handle alone. -/
theorem get?_remove (arena : Arena α) (handle other : Handle) :
    (arena.remove handle).2.get? other = if other = handle then none else arena.get? other := by
  unfold remove
  cases found : arena.get? handle with
  | none =>
      simp only
      split
      next same => rw [same, found]
      next => rfl
  | some value =>
      simp only [get?, Array.getElem?_setIfInBounds, Handle.eq_iff] at found ⊢
      grind

/-! ## Listing the values -/

theorem mem_entries_iff {arena : Arena α} {handle : Handle} {value : α} :
    (handle, value) ∈ arena.entries ↔ arena.get? handle = some value := by
  rw [get?_eq_some_iff]
  simp only [entries, List.mem_filterMap, Prod.exists, List.mk_mem_zipIdx_iff_getElem?,
    Array.getElem?_toList, Option.map_eq_some_iff, Prod.mk.injEq]
  constructor
  · rintro ⟨⟨generation, held⟩, index, found, value, rfl, rfl, rfl⟩
    exact found
  · intro found
    exact ⟨_, _, found, value, rfl, rfl, rfl⟩

theorem mem_handles_iff {arena : Arena α} {handle : Handle} :
    handle ∈ arena.handles ↔ ∃ value, arena.get? handle = some value := by
  simp [handles, mem_entries_iff]

/-- Handles are listed in the order of the slots, and every slot is visited once. -/
theorem handles_sorted (arena : Arena α) :
    arena.handles.Pairwise fun first second => first.index < second.index := by
  have indices : (arena.handles.map (·.index)).Sublist
      (arena.slots.toList.zipIdx.map Prod.snd) := by
    unfold handles entries
    generalize arena.slots.toList.zipIdx = pairs
    induction pairs with
    | nil => simp
    | cons pair rest ih =>
        obtain ⟨⟨generation, held⟩, index⟩ := pair
        cases held with
        | none => simpa using ih.cons index
        | some value => simpa using ih.cons_cons index
  rw [List.zipIdx_map_snd] at indices
  exact List.pairwise_map.1 (List.Pairwise.sublist indices List.pairwise_lt_range')

/-- No handle is listed twice. -/
theorem handles_nodup (arena : Arena α) : arena.handles.Nodup :=
  arena.handles_sorted.imp fun less same => Nat.ne_of_lt less (congrArg Handle.index same)

/-- Two arenas list those handles in the same order that both of them have values under. -/
theorem filter_handles_eq {β : Type} {first : Arena α} {second : Arena β} {listed : Handle → Bool}
    (same : ∀ handle, listed handle → (handle ∈ first.handles ↔ handle ∈ second.handles)) :
    first.handles.filter listed = second.handles.filter listed := by
  have alike : (first.handles.filter listed).Perm (second.handles.filter listed) := by
    refine (List.perm_ext_iff_of_nodup (first.handles_nodup.filter _)
      (second.handles_nodup.filter _)).2 fun handle => ?_
    rw [List.mem_filter, List.mem_filter]
    exact and_congr_left (same handle)
  refine alike.eq_of_pairwise ?_ (first.handles_sorted.filter _) (second.handles_sorted.filter _)
  intro one two _ _ less greater
  exact absurd less (Nat.lt_asymm greater)

/-- Arenas with values under the same handles list the same handles. -/
theorem handles_perm {before after : Arena α}
    (same : ∀ handle, (after.get? handle).isSome = (before.get? handle).isSome) :
    after.handles.Perm before.handles := by
  apply (List.perm_ext_iff_of_nodup after.handles_nodup before.handles_nodup).2
  intro handle
  rw [mem_handles_iff, mem_handles_iff, ← Option.isSome_iff_exists, ← Option.isSome_iff_exists,
    same]

theorem handles_modify (arena : Arena α) (handle : Handle) (change : α → α) :
    (arena.modify handle change).handles.Perm arena.handles := by
  apply handles_perm
  intro other
  rw [get?_modify]
  by_cases here : other = handle <;> simp [here]

theorem handles_remove {arena : Arena α} {handle : Handle} {value : α}
    (found : arena.get? handle = some value) :
    arena.handles.Perm (handle :: (arena.remove handle).2.handles) := by
  have gone : handle ∉ (arena.remove handle).2.handles := by
    rw [mem_handles_iff, get?_remove]
    simp
  apply (List.perm_ext_iff_of_nodup arena.handles_nodup
    (List.nodup_cons.2 ⟨gone, handles_nodup _⟩)).2
  intro other
  rw [mem_handles_iff, List.mem_cons, mem_handles_iff, get?_remove]
  by_cases same : other = handle <;> simp [same, found]

/-! ## Sound arenas -/

/-- The list of free slots names every slot without a value, and each of them once, and the size is
the number of values. -/
structure Sound (arena : Arena α) : Prop where
  free_nodup : arena.free.Nodup
  mem_free : ∀ index,
    index ∈ arena.free ↔ ∃ slot, arena.slots[index]? = some slot ∧ slot.value = none
  counted : arena.size = arena.handles.length

theorem Sound.empty : (empty : Arena α).Sound where
  free_nodup := by simp [Arena.empty]
  mem_free := by simp [Arena.empty]
  counted := rfl

/-- Changing a value leaves its slot in use. -/
theorem Sound.modify {arena : Arena α} (sound : arena.Sound) (handle : Handle)
    (change : α → α) : (arena.modify handle change).Sound where
  free_nodup := sound.free_nodup
  mem_free := by
    intro index
    rw [show (arena.modify handle change).free = arena.free from rfl, sound.mem_free]
    simp only [Arena.modify, Array.getElem?_modify]
    by_cases same : handle.index = index
    · rw [if_pos same]
      cases arena.slots[index]? with
      | none => simp
      | some slot => by_cases generation : slot.generation = handle.generation <;> simp [generation]
    · simp [same]
  counted := sound.counted.trans (handles_modify arena handle change).length_eq.symm

/-- The handle of a new value had no value before. -/
theorem Sound.get?_insert_fst {arena : Arena α} (sound : arena.Sound) (value : α) :
    arena.get? (arena.insert value).1 = none := by
  unfold insert
  cases free : arena.free with
  | nil => simp [get?]
  | cons index rest =>
      obtain ⟨slot, found, unused⟩ := (sound.mem_free index).1 (by simp [free])
      simp [get?, found]

theorem Sound.get?_insert {arena : Arena α} (sound : arena.Sound) (value : α)
    (handle : Handle) :
    (arena.insert value).2.get? handle =
      if handle = (arena.insert value).1 then some value else arena.get? handle := by
  unfold insert
  cases free : arena.free with
  | nil =>
      simp only [get?, Array.getElem?_push, Handle.eq_iff]
      by_cases index : handle.index = arena.slots.size
      · by_cases generation : handle.generation = 0 <;> simp [index, generation, eq_comm]
      · simp [index]
  | cons index rest =>
      -- The slot that is used again held nothing, so no other generation of it is found.
      obtain ⟨slot, found, unused⟩ := (sound.mem_free index).1 (by simp [free])
      have inBounds : index < arena.slots.size := (Array.getElem?_eq_some_iff.1 found).1
      simp only [get?, Array.getElem?_setIfInBounds, found, Option.map_some, Option.getD_some,
        Handle.eq_iff]
      grind

theorem Sound.handles_insert {arena : Arena α} (sound : arena.Sound) (value : α) :
    (arena.insert value).2.handles.Perm ((arena.insert value).1 :: arena.handles) := by
  have fresh : (arena.insert value).1 ∉ arena.handles := by
    rw [mem_handles_iff, sound.get?_insert_fst]
    simp
  apply (List.perm_ext_iff_of_nodup (handles_nodup _)
    (List.nodup_cons.2 ⟨fresh, arena.handles_nodup⟩)).2
  intro handle
  rw [mem_handles_iff, sound.get?_insert, List.mem_cons, mem_handles_iff]
  by_cases same : handle = (arena.insert value).1 <;> simp [same]

theorem Sound.counted_insert {arena : Arena α} (sound : arena.Sound) (value : α) :
    (arena.insert value).2.size = (arena.insert value).2.handles.length := by
  have grows : (arena.insert value).2.size = arena.size + 1 := by
    unfold Arena.insert
    cases arena.free <;> rfl
  rw [grows, (sound.handles_insert value).length_eq, List.length_cons, sound.counted]

theorem Sound.insert {arena : Arena α} (sound : arena.Sound) (value : α) :
    (arena.insert value).2.Sound := by
  have counted := sound.counted_insert value
  unfold Arena.insert at counted ⊢
  cases free : arena.free with
  | nil =>
      rw [free] at counted
      constructor
      case free_nodup => simp
      case mem_free =>
        intro index
        have none_free : ¬∃ slot, arena.slots[index]? = some slot ∧ slot.value = none := by
          rw [← sound.mem_free, free]
          simp
        simp only [List.not_mem_nil, false_iff, Array.getElem?_push]
        by_cases last : index = arena.slots.size
        · simp [last]
        · simpa [last] using none_free
      case counted => exact counted
  | cons first rest =>
      rw [free] at counted
      have nodup : first ∉ rest ∧ rest.Nodup := by simpa [free] using sound.free_nodup
      constructor
      case free_nodup => exact nodup.2
      case mem_free =>
        intro index
        have member := sound.mem_free index
        rw [free, List.mem_cons] at member
        simp only [Array.getElem?_setIfInBounds]
        by_cases same : first = index
        · subst same
          simp [nodup.1]
        · simpa [same, Ne.symm same] using member
      case counted => exact counted

theorem Sound.counted_remove {arena : Arena α} (sound : arena.Sound) (handle : Handle) :
    (arena.remove handle).2.size = (arena.remove handle).2.handles.length := by
  cases found : arena.get? handle with
  | none =>
      have kept : (arena.remove handle).2 = arena := by simp [Arena.remove, found]
      rw [kept, sound.counted]
  | some value =>
      have shrinks : (arena.remove handle).2.size = arena.size - 1 := by
        simp [Arena.remove, found]
      rw [shrinks, sound.counted, (handles_remove found).length_eq, List.length_cons,
        Nat.add_sub_cancel]

theorem Sound.remove {arena : Arena α} (sound : arena.Sound) (handle : Handle) :
    (arena.remove handle).2.Sound := by
  have counted := sound.counted_remove handle
  unfold Arena.remove at counted ⊢
  cases found : arena.get? handle with
  | none => exact sound
  | some value =>
      rw [found] at counted
      have slot := get?_eq_some_iff.1 found
      have inBounds : handle.index < arena.slots.size := (Array.getElem?_eq_some_iff.1 slot).1
      have notFree : handle.index ∉ arena.free := by
        rw [sound.mem_free, slot]
        simp
      constructor
      case free_nodup => exact List.nodup_cons.2 ⟨notFree, sound.free_nodup⟩
      case mem_free =>
        intro index
        simp only [List.mem_cons, sound.mem_free, Array.getElem?_setIfInBounds]
        by_cases same : handle.index = index
        · subst same
          simp [inBounds]
        · simp [same, Ne.symm same]
      case counted => exact counted

/-! ## Generations -/

/-- The generation of a slot. -/
def generation? (arena : Arena α) (index : Nat) : Option UInt32 :=
  arena.slots[index]?.map (·.generation)

@[simp] theorem generation?_modify (arena : Arena α) (handle : Handle) (change : α → α)
    (index : Nat) : (arena.modify handle change).generation? index = arena.generation? index := by
  simp only [generation?, modify, Array.getElem?_modify]
  by_cases same : handle.index = index
  · rw [if_pos same, Option.map_map]
    refine congrArg (Option.map · _) (funext fun slot => ?_)
    by_cases generation : slot.generation = handle.generation <;> simp [generation]
  · rw [if_neg same]

theorem generation?_of_get? {arena : Arena α} {handle : Handle} {value : α}
    (found : arena.get? handle = some value) :
    arena.generation? handle.index = some handle.generation := by
  rw [generation?, get?_eq_some_iff.1 found, Option.map_some]

@[simp] theorem generation?_remove (arena : Arena α) (handle : Handle) (index : Nat) :
    (arena.remove handle).2.generation? index = arena.generation? index := by
  unfold remove
  cases found : arena.get? handle with
  | none => rfl
  | some value =>
      have slot := get?_eq_some_iff.1 found
      have inBounds : handle.index < arena.slots.size := (Array.getElem?_eq_some_iff.1 slot).1
      simp only [generation?, Array.getElem?_setIfInBounds]
      by_cases same : handle.index = index
      · subst same
        rw [slot]
        simp [inBounds]
      · rw [if_neg same]

/-- A new value gets a new slot, or the next generation of a slot that has been used. -/
theorem Sound.generation_insert_fst {arena : Arena α} (sound : arena.Sound) (value : α) :
    (arena.insert value).1.generation =
      (arena.generation? (arena.insert value).1.index).elim 0 (· + 1) := by
  unfold Arena.insert
  cases free : arena.free with
  | nil => simp [generation?]
  | cons index rest =>
      obtain ⟨slot, found, -⟩ := (sound.mem_free index).1 (by simp [free])
      simp [generation?, found]

theorem Sound.generation?_insert {arena : Arena α} (sound : arena.Sound) (value : α)
    (index : Nat) :
    (arena.insert value).2.generation? index =
      if index = (arena.insert value).1.index then some (arena.insert value).1.generation
      else arena.generation? index := by
  unfold Arena.insert
  cases free : arena.free with
  | nil =>
      simp only [generation?, Array.getElem?_push]
      by_cases last : index = arena.slots.size <;> simp [last]
  | cons first rest =>
      obtain ⟨slot, found, -⟩ := (sound.mem_free first).1 (by simp [free])
      have inBounds : first < arena.slots.size := (Array.getElem?_eq_some_iff.1 found).1
      simp only [generation?, Array.getElem?_setIfInBounds]
      by_cases same : first = index
      · subst same
        simp [inBounds]
      · simp [same, Ne.symm same]

/-- The handle belongs to a value or belonged to one, as long as no generation has wrapped
around. -/
def Issued (arena : Arena α) (handle : Handle) : Prop :=
  ∃ generation, arena.generation? handle.index = some generation ∧
    handle.generation ≤ generation

theorem issued_of_get? {arena : Arena α} {handle : Handle} {value : α}
    (found : arena.get? handle = some value) : arena.Issued handle :=
  ⟨handle.generation, generation?_of_get? found, UInt32.le_refl _⟩

/-- No slot has been used again more often than this. -/
def Reused (arena : Arena α) (bound : Nat) : Prop :=
  ∀ index generation, arena.generation? index = some generation → generation.toNat ≤ bound

theorem Reused.empty : (empty : Arena α).Reused 0 := by
  simp [Reused, generation?, Arena.empty]

theorem Reused.mono {arena : Arena α} {bound larger : Nat} (reused : arena.Reused bound)
    (less : bound ≤ larger) : arena.Reused larger :=
  fun index generation used => Nat.le_trans (reused index generation used) less

section Insert

variable {arena : Arena α} (sound : arena.Sound) {bound : Nat} (reused : arena.Reused bound)
variable (small : bound + 1 < UInt32.size) (value : α)
include sound reused small

/-- The next generation of a slot. -/
theorem Sound.toNat_insert_generation {generation : UInt32}
    (used : arena.generation? (arena.insert value).1.index = some generation) :
    (arena.insert value).1.generation.toNat = generation.toNat + 1 := by
  have bounded := reused _ _ used
  rw [sound.generation_insert_fst, used, Option.elim_some, UInt32.toNat_add]
  exact Nat.mod_eq_of_lt (Nat.lt_of_le_of_lt (Nat.succ_le_succ bounded) small)

/-- The handle of a new value has not been issued before. -/
theorem Sound.not_issued_insert_fst : ¬arena.Issued (arena.insert value).1 := by
  rintro ⟨generation, used, older⟩
  have next := sound.toNat_insert_generation reused small value used
  have earlier := UInt32.le_iff_toNat_le.1 older
  omega

theorem Sound.issued_insert {handle : Handle} (issued : arena.Issued handle) :
    (arena.insert value).2.Issued handle := by
  obtain ⟨generation, used, older⟩ := issued
  unfold Issued
  rw [sound.generation?_insert]
  by_cases same : handle.index = (arena.insert value).1.index
  · rw [if_pos same]
    rw [same] at used
    have next := sound.toNat_insert_generation reused small value used
    have earlier := UInt32.le_iff_toNat_le.1 older
    exact ⟨_, rfl, UInt32.le_iff_toNat_le.2 (by omega)⟩
  · rw [if_neg same]
    exact ⟨generation, used, older⟩

theorem Sound.reused_insert : (arena.insert value).2.Reused (bound + 1) := by
  intro index generation now
  rw [sound.generation?_insert] at now
  by_cases same : index = (arena.insert value).1.index
  · rw [if_pos same, Option.some.injEq] at now
    rw [← now]
    cases used : arena.generation? (arena.insert value).1.index with
    | none => simp [sound.generation_insert_fst, used]
    | some earlier =>
        rw [sound.toNat_insert_generation reused small value used]
        exact Nat.succ_le_succ (reused _ _ used)
  · rw [if_neg same] at now
    exact Nat.le_succ_of_le (reused _ _ now)

end Insert

/-! ## Slots that are used over and over -/

/-- The arena with another generation in a slot that holds nothing. -/
def aged (arena : Arena α) (index : Nat) (generation : UInt32) : Arena α :=
  { arena with slots := arena.slots.setIfInBounds index ⟨generation, none⟩ }

theorem aged_aged (arena : Arena α) (index : Nat) (first second : UInt32) :
    (arena.aged index first).aged index second = arena.aged index second := by
  simp only [aged, Array.setIfInBounds_setIfInBounds]

/-- What is listed does not depend on the generation of a slot that holds nothing. -/
theorem entries_eq_of_unused {arena other : Arena α} {before after : List (ArenaSlot α)}
    {generation later : UInt32} (here : arena.slots.toList = before ++ ⟨generation, none⟩ :: after)
    (there : other.slots.toList = before ++ ⟨later, none⟩ :: after) :
    other.entries = arena.entries := by
  simp [entries, here, there, List.zipIdx_append, List.filterMap_append]

section Unused

variable {arena : Arena α} {index : Nat} {generation : UInt32}
variable (unused : arena.slots[index]? = some ⟨generation, none⟩)
include unused

theorem aged_self : arena.aged index generation = arena := by
  obtain ⟨inBounds, same⟩ := Array.getElem?_eq_some_iff.1 unused
  simp [aged, Array.setIfInBounds, inBounds, ← same]

theorem getElem?_aged (later : UInt32) :
    (arena.aged index later).slots[index]? = some ⟨later, none⟩ := by
  obtain ⟨inBounds, -⟩ := Array.getElem?_eq_some_iff.1 unused
  simp [aged, inBounds]

theorem toList_aged (later : UInt32) :
    (arena.aged index later).slots.toList =
      arena.slots.toList.take index ++ ⟨later, none⟩ :: arena.slots.toList.drop (index + 1) := by
  obtain ⟨inBounds, -⟩ := Array.getElem?_eq_some_iff.1 unused
  rw [aged, Array.toList_setIfInBounds]
  exact List.set_eq_take_cons_drop _ inBounds

theorem entries_aged (later : UInt32) : (arena.aged index later).entries = arena.entries := by
  have same := toList_aged unused generation
  rw [aged_self unused] at same
  exact entries_eq_of_unused same (toList_aged unused later)

section Next

variable {free : List Nat} (next : arena.free = index :: free) (value : α)
include next

theorem insert_of_unused : arena.insert value =
    (⟨index, generation + 1⟩,
      ⟨arena.slots.setIfInBounds index ⟨generation + 1, some value⟩, free, arena.size + 1⟩) := by
  simp only [insert, next, unused, Option.map_some, Option.getD_some]

theorem get?_insert_of_unused :
    (arena.insert value).2.get? ⟨index, generation + 1⟩ = some value := by
  obtain ⟨inBounds, -⟩ := Array.getElem?_eq_some_iff.1 unused
  rw [get?_eq_some_iff, insert_of_unused unused next]
  simp [inBounds]

/-- A value that is stored in the slot and removed again leaves only its generation there. -/
theorem remove_insert : ((arena.insert value).2.remove ⟨index, generation + 1⟩).2 =
    arena.aged index (generation + 1) := by
  rw [remove, get?_insert_of_unused unused next, insert_of_unused unused next]
  simp [aged, next]

end Next

end Unused

end Arena

end NodeGrid
