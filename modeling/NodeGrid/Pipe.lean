import NodeGrid.Word

/-!
# Pipes

A pipe is one direction of a link and holds at most one word.  It changes in two phases, so that
what one side does in a tick is seen by the other side in the next: an offer can be claimed only
after a commit, and a claim can be acknowledged only after another.
-/

namespace NodeGrid

/-- What a pipe holds. -/
inductive Pipe where
  | empty
  /-- Offered, and not yet seen by the reader. -/
  | pending (value : Word)
  /-- Seen by the reader, and not claimed. -/
  | ready (value : Word)
  /-- Claimed, and the writer does not know yet. -/
  | claimed
  /-- The writer may acknowledge the claim. -/
  | delivered
  deriving DecidableEq, Repr

namespace Pipe

/-- Put a word into an empty pipe.  Any other pipe refuses it. -/
def offer? : Pipe → Word → Option Pipe
  | .empty, value => some (.pending value)
  | _, _ => none

/-- Take the word that is ready. -/
def claim? : Pipe → Option (Word × Pipe)
  | .ready value => some (value, .claimed)
  | _ => none

/-- The end of a tick: offers become ready, and claims become known to the writer. -/
def commit : Pipe → Pipe
  | .pending value => .ready value
  | .claimed => .delivered
  | pipe => pipe

/-- Take note of a claim, once it is known. -/
def acknowledge? : Pipe → Option Pipe
  | .delivered => some .empty
  | _ => none

/-- Take back an offer that has not been claimed. -/
def withdraw : Pipe → Pipe
  | .pending _ | .ready _ => .empty
  | pipe => pipe

/-- The pipe can take an offer. -/
def isEmpty (pipe : Pipe) : Bool :=
  pipe = .empty

/-- The word has been claimed, and the writer has not acknowledged it. -/
def isClaimed : Pipe → Bool
  | .claimed | .delivered => true
  | _ => false

/-- The word that a reader could claim now. -/
def peek? : Pipe → Option Word
  | .ready value => some value
  | _ => none

end Pipe

end NodeGrid
