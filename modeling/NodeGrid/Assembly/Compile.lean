import NodeGrid.Text.Uppercase
import NodeGrid.Assembly.Opcode
import NodeGrid.Assembly.Program

/-!
# Compiling

Source lines are put into upper case and cut to the capacity of a line; this text is kept and all
columns refer to it.  Lines are then read in order, and the first one at fault is reported.  Only
when every line is sound are the labels that jumps name looked up, so a jump may go forward.
-/

namespace NodeGrid.Assembly

/-- Numbers of lines and columns. -/
structure Extent where
  lines : Nat
  columns : Nat
  deriving DecidableEq, Repr

/-- The part of one extent that lies within another. -/
def Extent.within (extent bound : Extent) : Extent :=
  ⟨min extent.lines bound.lines, min extent.columns bound.columns⟩

/-- The limits that hold where none are given. -/
def Extent.standard : Extent :=
  ⟨40, 18⟩

/-- A fault and the token that it is about. -/
structure Flaw where
  fault : Fault
  token : Token
  deriving DecidableEq, Repr

/-- What a statement asks for, before the labels are known. -/
inductive Operation where
  | instruction (instruction : Instruction)
  | jump (condition : Condition) (label : Token)
  deriving DecidableEq, Repr

/-- An operand that has to be there.  A missing one is reported at the token that it should
follow. -/
def required (previous : Token) : Option Token → Except Flaw Token
  | some token => .ok token
  | none => .error ⟨.invalidOperand .missing, previous⟩

/-- An operand that must not be there. -/
def refused : Option Token → Except Flaw Unit
  | some token => .error ⟨.invalidOperand .excess, token⟩
  | none => .ok ()

/-- The operand that a token denotes. -/
def operandOf (token : Token) : Except Flaw Operand :=
  match Operand.ofText? token.text with
  | some operand => .ok operand
  | none => .error ⟨.invalidOperand .notTarget, token⟩

/-- The destination that a token denotes; a literal cannot be written to. -/
def destinationOf (token : Token) : Except Flaw Target :=
  match Target.ofText? token.text with
  | some target => .ok target
  | none =>
      if (literal? token.text).isSome then .error ⟨.invalidOperand .notWritable, token⟩
      else .error ⟨.invalidOperand .notTarget, token⟩

namespace Statement

/-- The only operand of a mnemonic that takes one. -/
def onlyOperand (statement : Statement) : Except Flaw Token := do
  let token ← required statement.mnemonic statement.first
  refused statement.second
  pure token

/-- What a statement with operands of a given form asks for. -/
def operationOfForm (statement : Statement) : Form → Except Flaw Operation
  | .fixed instruction => do
      refused statement.first
      pure (.instruction instruction)
  | .jump condition => do
      let label ← statement.onlyOperand
      pure (.jump condition label)
  | .jumpRelative => do
      let offset ← operandOf (← statement.onlyOperand)
      pure (.instruction (.jumpRelative offset))
  | .binary op => do
      let operand ← operandOf (← statement.onlyOperand)
      pure (.instruction (.binary op operand))
  | .move => do
      let source ← required statement.mnemonic statement.first
      let destination ← required source statement.second
      let operand ← operandOf source
      let target ← destinationOf destination
      pure (.instruction (.move operand target))

/-- What a statement asks for. -/
def operation (statement : Statement) : Except Flaw Operation :=
  match Opcode.ofText? statement.mnemonic.text with
  | none => .error ⟨.unknownInstruction, statement.mnemonic⟩
  | some opcode => do
      refused statement.excess
      statement.operationOfForm opcode.form

end Statement

/-- An operation and the index of the line it stands on. -/
structure PlacedOperation where
  operation : Operation
  line : Nat
  deriving DecidableEq, Repr

/-- What the lines read so far amount to. -/
structure Draft where
  labels : List Label
  code : List PlacedOperation
  deriving DecidableEq, Repr

namespace Draft

/-- Enter a label for the instruction that comes next.  A label is entered once. -/
def addLabel (draft : Draft) : Option Token → Except Flaw Draft
  | none => .ok draft
  | some label =>
      if draft.labels.any fun known => known.name = label.text then
        .error ⟨.duplicateLabel, label⟩
      else .ok { draft with labels := draft.labels ++ [⟨label.text, draft.code.length⟩] }

/-- Enter the operation of a statement. -/
def addStatement (draft : Draft) (index : Nat) : Option Statement → Except Flaw Draft
  | none => .ok draft
  | some statement => do
      let operation ← statement.operation
      pure { draft with code := draft.code ++ [⟨operation, index⟩] }

/-- Enter the parts of a line. -/
def addLine (draft : Draft) (index : Nat) (text : List Char) : Except Flaw Draft :=
  match Line.read text with
  | .error label => .error ⟨.unexpectedToken, label⟩
  | .ok line => do
      let labelled ← draft.addLabel line.label
      labelled.addStatement index line.statement

end Draft

/-- The text of a line that is kept: upper case, cut to the capacity. -/
def keptText (capacity : Extent) (line : List Char) : List Char :=
  Text.fitting capacity.columns (Text.upper line)

/-- A line is too long if it has more characters than allowed or loses some when it is kept. -/
def isOverlong (capacity bounds : Extent) (line : List Char) : Bool :=
  bounds.columns < line.length || capacity.columns < Text.byteLength (Text.upper line)

/-- Read lines, the first of which has this index, onto a draft. -/
def readLines (capacity bounds : Extent) (index : Nat) (draft : Draft) :
    List (List Char) → Except CompileError Draft
  | [] => .ok draft
  | line :: rest =>
      if isOverlong capacity bounds line then
        .error (.onLine .lineTooLong index bounds.columns bounds.columns)
      else
        match draft.addLine index (keptText capacity line) with
        | .error flaw => .error (.onToken flaw.fault index flaw.token)
        | .ok extended => readLines capacity bounds (index + 1) extended rest

/-- The instruction that an operation becomes once all labels are known. -/
def PlacedOperation.place (labels : List Label) (placed : PlacedOperation) :
    Except CompileError Placed :=
  match placed.operation with
  | .instruction instruction => .ok ⟨instruction, placed.line⟩
  | .jump condition label =>
      let reference : Reference := ⟨label.text, placed.line, label.start, label.stop⟩
      (reference.resolve labels).map fun index => ⟨.jump condition index, placed.line⟩

/-- Look up the labels of all jumps. -/
def Draft.finish (draft : Draft) : Except CompileError Program := do
  let code ← draft.code.mapM (·.place draft.labels)
  pure ⟨code, draft.labels⟩

/-- The result of compiling: the text that is kept and either a program or the first error. -/
structure Compilation where
  kept : List (List Char)
  outcome : Except CompileError Program

/-- Compile lines within limits, which count only as far as the capacity goes.  Of too many lines
nothing is kept. -/
def compile (capacity limits : Extent) (source : List (List Char)) : Compilation :=
  let bounds := limits.within capacity
  if bounds.lines < source.length then
    ⟨[], .error (.onLine .tooManyLines (bounds.lines - 1) 0 0)⟩
  else
    { kept := source.map (keptText capacity)
      outcome := do
        let draft ← readLines capacity bounds 0 ⟨[], []⟩ source
        draft.finish }

end NodeGrid.Assembly
