import NodeGrid.Node.Basic
import NodeGrid.Wire.Codec

/-!
# Reports as bytes

Compile errors, statuses and debug views are sent to other programs as bytes.  The parts of a value
follow each other in a fixed order, and the cases of a type are numbered in a fixed order.
-/

namespace NodeGrid.Wire

open Assembly

/-- Positions are 64-bit numbers. -/
def position : Codec Nat :=
  .nat 64

/-- Operand issues in the order of their numbers. -/
def operandIssue : Codec OperandIssue :=
  .oneOf [.missing, .excess, .notTarget, .notWritable]

/-- The number of a fault. -/
def faultNumber : Fault → Nat
  | .tooManyLines => 0
  | .lineTooLong => 1
  | .unexpectedToken => 2
  | .unknownInstruction => 3
  | .invalidOperand _ => 4
  | .undefinedLabel => 5
  | .duplicateLabel => 6

/-- Read what follows the number of a fault. -/
def decodeFault (number : Nat) (rest : List UInt8) : Option (Fault × List UInt8) :=
  match number with
  | 0 => some (.tooManyLines, rest)
  | 1 => some (.lineTooLong, rest)
  | 2 => some (.unexpectedToken, rest)
  | 3 => some (.unknownInstruction, rest)
  | 4 => (operandIssue.decode rest).map fun (issue, after) => (.invalidOperand issue, after)
  | 5 => some (.undefinedLabel, rest)
  | 6 => some (.duplicateLabel, rest)
  | _ => none

/-- A fault is its number; the issue follows where there is one. -/
def fault : Codec Fault where
  encode kind :=
    Codec.encodeNat (faultNumber kind) ++
      match kind with
      | .invalidOperand issue => operandIssue.encode issue
      | _ => []
  decode bytes :=
    match Codec.decodeNat 32 bytes with
    | none => none
    | some (number, rest) => decodeFault number rest

/-- A compile error: fault, line, first and last column. -/
def compileError : Codec CompileError :=
  (fault.pair (position.pair (position.pair position))).via
    (fun (kind, line, startColumn, endColumn) => ⟨kind, line, startColumn, endColumn⟩)
    (fun error => (error.fault, error.line, error.startColumn, error.endColumn))

/-- Statuses in the order of their numbers. -/
def status : Codec Status :=
  .oneOf [.idle, .running, .waitingRead, .waitingWrite]

/-- Ports are numbered in polling order. -/
def port : Codec Port :=
  .oneOf Port.all

/-- A debug view: line, program counter, status, both registers, last port. -/
def debugView : Codec DebugView :=
  (position.option.pair
    (position.pair (status.pair (Codec.word.pair (Codec.word.pair port.option))))).via
    (fun (currentLine, pc, kind, acc, bak, last) => ⟨currentLine, pc, kind, acc, bak, last⟩)
    (fun view => (view.currentLine, view.pc, view.status, view.acc, view.bak, view.last))

end NodeGrid.Wire
