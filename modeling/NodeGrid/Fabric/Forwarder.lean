import NodeGrid.Fabric.Link

/-!
# Forwarders

Two nodes can be joined by a pair of forwarders instead of a link.  Each half stands in front of
one node and passes what that node writes to the node in front of its sibling.
-/

namespace NodeGrid

/-- Half of a pair.  A half whose sibling is gone names none. -/
structure Forwarder where
  sibling : Option Handle
  deriving DecidableEq, Repr

namespace Forwarder

/-- A half whose sibling does not exist yet. -/
def unpaired : Forwarder :=
  ⟨none⟩

/-- Make another half the sibling. -/
def pairWith (_ : Forwarder) (sibling : Handle) : Forwarder :=
  ⟨some sibling⟩

/-- Forget the sibling. -/
def detach (_ : Forwarder) : Forwarder :=
  unpaired

/-- Move at most one word from our own node into the pipe toward the other node, after
acknowledging what our node has taken from us.  The word is claimed only if it can be passed on
at once.  The answer says whether a word moved. -/
def relay (pipes : PipeTable) (own : Link) (onward : Option Link) : Bool × PipeTable :=
  let acknowledged := (pipes.acknowledge own.send).2
  match onward with
  | none => (false, acknowledged)
  | some target =>
      if acknowledged.isEmpty target.send then
        match acknowledged.claim own.receive with
        | (some value, claimed) => claimed.offer target.send value false
        | (none, _) => (false, acknowledged)
      else (false, acknowledged)

end Forwarder

end NodeGrid
