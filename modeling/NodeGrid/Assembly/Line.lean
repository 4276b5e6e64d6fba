import NodeGrid.Text.Blank
import NodeGrid.Text.Bytes

/-!
# The parts of a line

A line holds an optional label, then an optional mnemonic with operands; a comment runs from the
first `#` to the end.  Reading a line only finds these parts and says where they stand, in bytes
from the start of the line.  What the words mean is decided later.
-/

namespace NodeGrid.Assembly

/-- A piece of a line and the byte offset at which it starts. -/
structure Token where
  text : List Char
  start : Nat
  deriving DecidableEq, Repr

/-- The byte offset after the last character of a token. -/
def Token.stop (token : Token) : Nat :=
  token.start + Text.byteLength token.text

/-- The instruction part of a line.  Anything behind the second operand is excess. -/
structure Statement where
  mnemonic : Token
  first : Option Token
  second : Option Token
  excess : Option Token
  deriving DecidableEq, Repr

/-- The parts of one line. -/
structure Line where
  label : Option Token
  statement : Option Statement
  deriving DecidableEq, Repr

/-- What is left of a line after the part read so far. -/
structure Remainder where
  offset : Nat
  text : List Char
  deriving DecidableEq, Repr

namespace Remainder

/-- Pass over the characters of a class. -/
def skip (accept : Char → Bool) (rest : Remainder) : Remainder :=
  ⟨rest.offset + Text.byteLength (rest.text.takeWhile accept), rest.text.dropWhile accept⟩

/-- Pass over white space. -/
def skipBlank (rest : Remainder) : Remainder :=
  rest.skip Text.isBlank

/-- Pass over one comma, if it comes next. -/
def skipComma (rest : Remainder) : Remainder :=
  match rest.text with
  | ',' :: text => ⟨rest.offset + 1, text⟩
  | _ => rest

/-- A token of this text that starts here, unless the text is empty. -/
def token? (rest : Remainder) (text : List Char) : Option Token :=
  if text = [] then none else some ⟨text, rest.offset⟩

/-- The token of the characters of a class that come next. -/
def word? (accept : Char → Bool) (rest : Remainder) : Option Token :=
  rest.token? (rest.text.takeWhile accept)

end Remainder

/-- Everything from the first `#` on is a comment. -/
def stripComment (line : List Char) : List Char :=
  line.takeWhile (· ≠ '#')

/-- Mnemonics run to the next white space. -/
def isMnemonicChar (char : Char) : Bool :=
  !Text.isBlank char

/-- Operands end at white space and at commas. -/
def isOperandChar (char : Char) : Bool :=
  char ≠ ',' && !Text.isBlank char

/-- Read the label: what stands before the first colon, without the white space at its end.  A
colon that nothing precedes marks no label.  White space inside a label is an error, which names
the text. -/
def readLabel (rest : Remainder) : Except Token (Option Token × Remainder) :=
  let before := rest.text.takeWhile (· ≠ ':')
  match rest.text.dropWhile (· ≠ ':') with
  | [] => .ok (none, rest)
  | _ :: after =>
      if before = [] then .ok (none, rest)
      else
        let label : Token := ⟨Text.trimEnd before, rest.offset⟩
        if label.text.any Text.isBlank then .error label
        else .ok (some label, ⟨rest.offset + Text.byteLength before + 1, after⟩)

/-- Read the operands that follow a mnemonic.  One comma may stand between them. -/
def readOperands (mnemonic : Token) (rest : Remainder) : Statement :=
  let atFirst := rest.skipBlank
  let atSecond := ((atFirst.skip isOperandChar).skipBlank.skipComma).skipBlank
  let atExcess := (atSecond.skip isOperandChar).skipBlank
  { mnemonic
    first := atFirst.word? isOperandChar
    second := atSecond.word? isOperandChar
    excess := atExcess.token? (Text.trimEnd atExcess.text) }

/-- Read the instruction part, if there is one. -/
def readStatement (rest : Remainder) : Option Statement :=
  let atMnemonic := rest.skipBlank
  (atMnemonic.word? isMnemonicChar).map fun mnemonic =>
    readOperands mnemonic (atMnemonic.skip isMnemonicChar)

/-- Read a line.  The only error is a label with white space in it, given as its text. -/
def Line.read (line : List Char) : Except Token Line :=
  match readLabel (Remainder.skipBlank ⟨0, stripComment line⟩) with
  | .error label => .error label
  | .ok (label, rest) => .ok { label, statement := readStatement rest }

end NodeGrid.Assembly
