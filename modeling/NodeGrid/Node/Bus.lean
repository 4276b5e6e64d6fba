import NodeGrid.Word
import NodeGrid.Port

/-!
# The bus of a node

A node reaches its ports through a bus, which decides what becomes of an offer and when a word can
be claimed.  Nodes are run against any bus; the pipes of a grid are one.
-/

namespace NodeGrid

/-- What a node can do at its ports, on a state of the outside. -/
class Bus (σ : Type) where
  /-- Offer a word on a port.  The answer says whether the offer was taken on. -/
  offer : σ → Port → Word → Bool × σ
  /-- Offer a word on every linked port, to be claimed once.  The answer says whether any offer was
  taken on. -/
  offerAny : σ → Word → Bool × σ
  /-- Claim the word that has arrived on a port. -/
  claim : σ → Port → Option Word × σ
  /-- Acknowledge a claimed offer, which says the port it was claimed on, and take back all other
  offers. -/
  pollDelivered : σ → Option Port × σ

end NodeGrid
