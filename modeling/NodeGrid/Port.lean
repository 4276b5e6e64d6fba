/-!
# Ports

A module has four ports, one on each side.  Their order is the order in which a read from any port
polls them and in which every listing of ports is written.
-/

namespace NodeGrid

/-- One side of a module. -/
inductive Port where
  | left
  | right
  | up
  | down
  deriving DecidableEq, Repr

namespace Port

/-- Every port, in polling order. -/
def all : List Port :=
  [.left, .right, .up, .down]

/-- Position of a port in polling order. -/
def index : Port → Nat
  | .left => 0
  | .right => 1
  | .up => 2
  | .down => 3

/-- The side that faces a port across a straight link. -/
def opposite : Port → Port
  | .left => .right
  | .right => .left
  | .up => .down
  | .down => .up

/-- The word that names a port in programs and in messages. -/
def name : Port → String
  | .left => "LEFT"
  | .right => "RIGHT"
  | .up => "UP"
  | .down => "DOWN"

@[simp] theorem mem_all (port : Port) : port ∈ all := by
  cases port <;> simp [all]

@[simp] theorem opposite_opposite (port : Port) : port.opposite.opposite = port := by
  cases port <;> rfl

end Port

/-- A value for each port. -/
structure PortMap (α : Type) where
  left : α
  right : α
  up : α
  down : α
  deriving DecidableEq, Repr

namespace PortMap

variable {α : Type}

/-- The same value for every port. -/
def replicate (value : α) : PortMap α :=
  ⟨value, value, value, value⟩

/-- The value for one port. -/
def get (values : PortMap α) : Port → α
  | .left => values.left
  | .right => values.right
  | .up => values.up
  | .down => values.down

/-- Replace the value for one port. -/
def set (values : PortMap α) (port : Port) (value : α) : PortMap α :=
  match port with
  | .left => { values with left := value }
  | .right => { values with right := value }
  | .up => { values with up := value }
  | .down => { values with down := value }

/-- Apply a function to every value. -/
def map {β : Type} (change : α → β) (values : PortMap α) : PortMap β :=
  ⟨change values.left, change values.right, change values.up, change values.down⟩

/-- The ports that have a value, with that value, in polling order. -/
def present (values : PortMap (Option α)) : List (Port × α) :=
  Port.all.filterMap fun port => (values.get port).map (port, ·)

@[simp] theorem get_replicate (value : α) (port : Port) : (replicate value).get port = value := by
  cases port <;> rfl

theorem get_set (values : PortMap α) (port other : Port) (value : α) :
    (values.set port value).get other = if port = other then value else values.get other := by
  cases port <;> cases other <;> rfl

@[simp] theorem get_set_self (values : PortMap α) (port : Port) (value : α) :
    (values.set port value).get port = value := by
  simp [get_set]

@[simp] theorem get_map {β : Type} (change : α → β) (values : PortMap α) (port : Port) :
    (values.map change).get port = change (values.get port) := by
  cases port <;> rfl

/-- Port maps agree when they agree at every port. -/
theorem ext_get {first second : PortMap α} (same : ∀ port, first.get port = second.get port) :
    first = second := by
  cases first
  cases second
  have left := same .left
  have right := same .right
  have up := same .up
  have down := same .down
  simp_all [get]

end PortMap

end NodeGrid
