import NodeGrid.Arena
import NodeGrid.Pipe

/-!
# Tables of pipes

All pipes of a grid stand in one table.  A word offered on several pipes of one writer at once is
shared between them: the first claim takes it, and the other copies are withdrawn at once.
-/

namespace NodeGrid

/-- The number of a pipe.  Numbers are used again once a pipe is closed. -/
structure PipeId where
  index : Nat
  deriving DecidableEq, Repr

/-- An open pipe, the module that writes to it, and whether it was last offered a shared word. -/
structure OpenPipe where
  pipe : Pipe
  writer : Handle
  shared : Bool
  deriving DecidableEq, Repr

/-- The open pipes by number.  Free numbers are used again last in, first out. -/
structure PipeTable where
  slots : Array (Option OpenPipe)
  free : List PipeId
  deriving DecidableEq, Repr

namespace PipeTable

/-- The table without pipes. -/
def empty : PipeTable :=
  ⟨#[], []⟩

/-- The open pipe with a number. -/
def get? (table : PipeTable) (id : PipeId) : Option OpenPipe :=
  table.slots[id.index]?.join

/-- What the open pipe with a number holds. -/
def pipe? (table : PipeTable) (id : PipeId) : Option Pipe :=
  (table.get? id).map (·.pipe)

/-- Open an empty pipe for a writer. -/
def openFor (table : PipeTable) (writer : Handle) : PipeId × PipeTable :=
  let opened : OpenPipe := ⟨.empty, writer, false⟩
  match table.free with
  | id :: free => (id, { slots := table.slots.setIfInBounds id.index (some opened), free })
  | [] => (⟨table.slots.size⟩, { table with slots := table.slots.push (some opened) })

/-- Close a pipe and free its number. -/
def close (table : PipeTable) (id : PipeId) : PipeTable :=
  match table.get? id with
  | some _ => { slots := table.slots.setIfInBounds id.index none, free := id :: table.free }
  | none => table

/-- Change an open pipe. -/
def modify (table : PipeTable) (id : PipeId) (change : OpenPipe → OpenPipe) : PipeTable :=
  { table with slots := table.slots.modify id.index (Option.map change) }

/-- Put a word into an empty pipe and mark it as shared or not.  The answer says whether the pipe
took it. -/
def offer (table : PipeTable) (id : PipeId) (value : Word) (shared : Bool) : Bool × PipeTable :=
  match (table.pipe? id).bind (·.offer? value) with
  | some pipe => (true, table.modify id ({ · with pipe, shared }))
  | none => (false, table)

/-- Withdraw the copies of a shared word on all pipes of a writer but one. -/
def withdrawCopies (table : PipeTable) (kept : PipeId) (writer : Handle) : PipeTable :=
  { table with
    slots := table.slots.mapIdx fun index slot =>
      slot.map fun other =>
        if index ≠ kept.index ∧ other.shared ∧ other.writer = writer then
          { other with pipe := other.pipe.withdraw }
        else other }

/-- Claim the word that is ready in a pipe; if it was shared, no copy of it stays. -/
def claim (table : PipeTable) (id : PipeId) : Option Word × PipeTable :=
  match table.get? id with
  | none => (none, table)
  | some entry =>
      match entry.pipe.claim? with
      | none => (none, table)
      | some (value, pipe) =>
          let claimed := table.modify id ({ · with pipe })
          (some value, if entry.shared then claimed.withdrawCopies id entry.writer else claimed)

/-- Acknowledge a claim.  The answer says whether there was one to acknowledge. -/
def acknowledge (table : PipeTable) (id : PipeId) : Bool × PipeTable :=
  match (table.pipe? id).bind (·.acknowledge?) with
  | some pipe => (true, table.modify id ({ · with pipe }))
  | none => (false, table)

/-- Take back an offer that has not been claimed. -/
def withdraw (table : PipeTable) (id : PipeId) : PipeTable :=
  table.modify id fun entry => { entry with pipe := entry.pipe.withdraw }

/-- Empty a pipe, whatever it holds. -/
def reset (table : PipeTable) (id : PipeId) : PipeTable :=
  table.modify id ({ · with pipe := .empty })

/-- The end of a tick for every pipe. -/
def commit (table : PipeTable) : PipeTable :=
  { table with
    slots := table.slots.map (Option.map fun entry => { entry with pipe := entry.pipe.commit }) }

/-- A pipe is open and can take an offer. -/
def isEmpty (table : PipeTable) (id : PipeId) : Bool :=
  (table.pipe? id).any (·.isEmpty)

/-- A pipe is open, and its word has been claimed and not acknowledged. -/
def isClaimed (table : PipeTable) (id : PipeId) : Bool :=
  (table.pipe? id).any (·.isClaimed)

/-- Number of open pipes. -/
def openCount (table : PipeTable) : Nat :=
  (table.slots.toList.filter (·.isSome)).length

end PipeTable

end NodeGrid
