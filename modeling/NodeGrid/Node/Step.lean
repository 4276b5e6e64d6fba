import NodeGrid.Node.Basic

/-!
# One step of a node

A step reads the input of the current instruction, if it can, and then either changes the core or
begins a write through a port.  A step that finds a write pending only asks whether it has been
claimed.
-/

namespace NodeGrid

variable {σ : Type} [Bus σ]

/-- The operand that an instruction takes its input from; one without input reads nothing. -/
def Instruction.input : Instruction → Operand
  | .binary _ operand => operand
  | .move source _ => source
  | .jumpRelative offset => offset
  | .complement | .negate | .save | .swap | .jump _ _ => .target .nil

/-- Claim a word on the first of some ports that has one. -/
def claimFirst (bus : σ) : List Port → Option (Port × Word) × σ
  | [] => (none, bus)
  | port :: rest =>
      match Bus.claim bus port with
      | (some value, after) => (some (port, value), after)
      | (none, after) => claimFirst after rest

namespace Core

/-- Claim a word on a port. -/
def claim (core : Core) (bus : σ) (port : Port) : Option (Word × Core) × σ :=
  let (claimed, after) := Bus.claim bus port
  (claimed.map (·, core), after)

/-- Read an operand, if it has a word now.  A read from any port takes the first port in polling
order and makes it the last port; before that the last port reads as zero. -/
def read (core : Core) (bus : σ) : Operand → Option (Word × Core) × σ
  | .literal value => (some (value, core), bus)
  | .target .acc => (some (core.registers.acc, core), bus)
  | .target .nil => (some (0, core), bus)
  | .target (.port port) => core.claim bus port
  | .target .any =>
      match claimFirst bus Port.all with
      | (some (port, value), after) =>
          (some (value, { core with registers.last := some port }), after)
      | (none, after) => (none, after)
  | .target .last =>
      match core.registers.last with
      | some port => core.claim bus port
      | none => (some (0, core), bus)

/-- The write that an instruction makes through the ports.  Without a last port there is nowhere to
write to. -/
def outgoing? (core : Core) (value : Word) : Instruction → Option PendingWrite
  | .move _ .last => core.registers.last.map fun _ => ⟨value, .last⟩
  | .move _ target => if target.isPort then some ⟨value, target⟩ else none
  | _ => none

/-- The effect of an instruction with its input on the core alone. -/
def perform (core : Core) (value : Word) : Instruction → Core
  | .binary op _ =>
      { core with registers.acc := op.apply core.registers.acc value }.advance
  | .complement =>
      { core with registers.acc := Word.saturate (~~~core.registers.acc.toInt32) }.advance
  | .negate => { core with registers.acc := Word.saturate (-core.registers.acc.toInt32) }.advance
  | .save => { core with registers.bak := core.registers.acc }.advance
  | .swap =>
      { core with
        registers.acc := core.registers.bak
        registers.bak := core.registers.acc }.advance
  | .move _ .acc => { core with registers.acc := value }.advance
  | .move _ _ => core.advance
  | .jump condition index =>
      if condition.holds core.registers.acc then core.jump index else core.advance
  | .jumpRelative _ => core.jumpBy value

/-- Offer a pending write where its target leads. -/
def offer (core : Core) (bus : σ) (write : PendingWrite) : σ :=
  match write.target with
  | .port port => (Bus.offer bus port write.value).2
  | .any => (Bus.offerAny bus write.value).2
  | .last =>
      match core.registers.last with
      | some port => (Bus.offer bus port write.value).2
      | none => bus
  | .acc | .nil => bus

end Core

namespace Node

/-- Run an instruction that has its input. -/
def finish (node : Node) (bus : σ) (instruction : Instruction) (value : Word) : Node × σ :=
  match node.core.outgoing? value instruction with
  | some write => ({ node with activity := .waitingWrite write }, node.core.offer bus write)
  | none => ({ node with core := node.core.perform value instruction, activity := .running }, bus)

/-- Run the current instruction as far as its input allows. -/
def execute (node : Node) (bus : σ) : Node × σ :=
  match node.core.instruction? with
  | none => ({ node with activity := .idle }, bus)
  | some instruction =>
      match node.core.read bus instruction.input with
      | (none, after) => ({ node with activity := .waitingRead }, after)
      | (some (value, core), after) => { node with core }.finish after instruction value

/-- Go on after a claimed write.  After a write to any port, the port it was claimed on is the last
port.  An unclaimed write is offered again, since its offer may have been lost with a link. -/
def completeWrite (node : Node) (bus : σ) (write : PendingWrite) : Node × σ :=
  match Bus.pollDelivered bus with
  | (some port, after) =>
      let core :=
        if write.target = .any then { node.core with registers.last := some port }
        else node.core
      ({ node with core := core.advance, activity := .running }, after)
  | (none, after) => (node, node.core.offer after write)

/-- One step. -/
def step (node : Node) (bus : σ) : Node × σ :=
  if node.enabled then
    match node.activity with
    | .idle => (node, bus)
    | .waitingWrite write => node.completeWrite bus write
    | .running | .waitingRead => node.execute bus
  else (node, bus)

end Node

end NodeGrid
