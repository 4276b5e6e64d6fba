import NodeGrid.Assembly.Line

/-!
# Compile errors

An error says what is wrong and where: the line, counted from one, and the bytes of the kept text
of that line.  Positions are 64-bit numbers, so the line number does not grow past the greatest
of them.
-/

namespace NodeGrid.Assembly

/-- What is wrong with an operand. -/
inductive OperandIssue where
  | missing
  | excess
  | notTarget
  | notWritable
  deriving DecidableEq, Repr

/-- The name of an operand issue in messages. -/
def OperandIssue.name : OperandIssue → String
  | .missing => "Missing"
  | .excess => "Excess"
  | .notTarget => "NotATarget"
  | .notWritable => "NotWritable"

/-- What is wrong with a program. -/
inductive Fault where
  | tooManyLines
  | lineTooLong
  | unexpectedToken
  | unknownInstruction
  | invalidOperand (issue : OperandIssue)
  | undefinedLabel
  | duplicateLabel
  deriving DecidableEq, Repr

namespace Fault

/-- A fault in words. -/
def message : Fault → String
  | .tooManyLines => "too many lines"
  | .lineTooLong => "line too long"
  | .unexpectedToken => "unexpected token"
  | .unknownInstruction => "unknown instruction"
  | .invalidOperand issue => s!"invalid operand ({issue.name})"
  | .undefinedLabel => "undefined label"
  | .duplicateLabel => "duplicate label"

/-- The key under which an interface looks up its own wording. -/
def messageKey : Fault → String
  | .tooManyLines => "message.too_many_lines"
  | .lineTooLong => "message.line_too_long"
  | .unexpectedToken => "message.unexpected_token"
  | .unknownInstruction => "message.unknown_instruction"
  | .invalidOperand .missing => "message.missing_parameter"
  | .invalidOperand .excess => "message.excess_tokens"
  | .invalidOperand .notTarget => "message.invalid_target"
  | .invalidOperand .notWritable => "message.invalid_destination"
  | .undefinedLabel => "message.label_not_found"
  | .duplicateLabel => "message.duplicate_label"

end Fault

/-- The greatest position that an error can name. -/
def maxPosition : Nat :=
  UInt64.size - 1

/-- A fault and its place in the program. -/
structure CompileError where
  fault : Fault
  line : Nat
  startColumn : Nat
  endColumn : Nat
  deriving DecidableEq, Repr

namespace CompileError

/-- A fault on the line with this index, between two byte offsets. -/
def onLine (fault : Fault) (index startColumn endColumn : Nat) : CompileError :=
  ⟨fault, min (index + 1) maxPosition, startColumn, endColumn⟩

/-- A fault at a token of the line with this index. -/
def onToken (fault : Fault) (index : Nat) (token : Token) : CompileError :=
  onLine fault index token.start token.stop

/-- An error in words. -/
def message (error : CompileError) : String :=
  s!"{error.fault.message} at line {error.line}, columns {error.startColumn}..{error.endColumn}"

end CompileError

end NodeGrid.Assembly
