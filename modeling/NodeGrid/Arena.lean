/-!
# Arenas

An arena stores values under handles.  A slot is used again after its value has been removed, and
the generation in the handle tells the new value from the old: a handle whose value is gone finds
nothing.
-/

namespace NodeGrid

/-- The name of a value in an arena: a slot and how often the slot had been used again. -/
structure Handle where
  index : Nat
  generation : UInt32
  deriving DecidableEq, Repr

/-- A handle as it is written in messages. -/
def Handle.text (handle : Handle) : String :=
  s!"{handle.index}v{handle.generation}"

/-- A place for one value and the generation of that value, or of the last one. -/
structure ArenaSlot (α : Type) where
  generation : UInt32
  value : Option α
  deriving Repr

/-- Values under handles.  Free slots are used again last in, first out. -/
structure Arena (α : Type) where
  slots : Array (ArenaSlot α)
  free : List Nat
  size : Nat
  deriving Repr

namespace Arena

variable {α : Type}

/-- The arena without values. -/
def empty : Arena α :=
  ⟨#[], [], 0⟩

/-- The value under a handle. -/
def get? (arena : Arena α) (handle : Handle) : Option α :=
  match arena.slots[handle.index]? with
  | some slot => if slot.generation = handle.generation then slot.value else none
  | none => none

/-- The handle has a value. -/
def contains (arena : Arena α) (handle : Handle) : Bool :=
  (arena.get? handle).isSome

/-- Change the value under a handle, if there is one. -/
def modify (arena : Arena α) (handle : Handle) (change : α → α) : Arena α :=
  { arena with
    slots := arena.slots.modify handle.index fun slot =>
      if slot.generation = handle.generation then { slot with value := slot.value.map change }
      else slot }

/-- Store a value under a new handle. -/
def insert (arena : Arena α) (value : α) : Handle × Arena α :=
  match arena.free with
  | index :: free =>
      let generation := (arena.slots[index]?.map (·.generation)).getD 0 + 1
      (⟨index, generation⟩,
        { slots := arena.slots.setIfInBounds index ⟨generation, some value⟩
          free
          size := arena.size + 1 })
  | [] =>
      (⟨arena.slots.size, 0⟩,
        { slots := arena.slots.push ⟨0, some value⟩
          free := []
          size := arena.size + 1 })

/-- Remove the value under a handle and give it back. -/
def remove (arena : Arena α) (handle : Handle) : Option α × Arena α :=
  match arena.get? handle with
  | some value =>
      (some value,
        { slots := arena.slots.setIfInBounds handle.index ⟨handle.generation, none⟩
          free := handle.index :: arena.free
          size := arena.size - 1 })
  | none => (none, arena)

/-- The arena has no values. -/
def isEmpty (arena : Arena α) : Bool :=
  arena.size = 0

/-- Every value with its handle, in the order of the slots. -/
def entries (arena : Arena α) : List (Handle × α) :=
  arena.slots.toList.zipIdx.filterMap fun (slot, index) =>
    slot.value.map (⟨index, slot.generation⟩, ·)

/-- The handles that have values, in the order of the slots. -/
def handles (arena : Arena α) : List Handle :=
  arena.entries.map (·.1)

end Arena

end NodeGrid
