import NodeGrid.Toml.Scalar

/-!
# Quoted text of TOML

Text stands between double quotes, where a backslash starts an escape, or between single quotes,
where it does not.  Either kind may run over several lines between tripled quotes.  Of text over
several lines only its end matters here.
-/

namespace NodeGrid.Toml

/-- A character that may stand unescaped in text and in comments. -/
def isPlainChar (char : Char) : Bool :=
  char = '\t' || (' ' ≤ char && char ≠ '\x7f')

/-- The character that a one-letter escape stands for. -/
def escape? : Char → Option Char
  | 'b' => some '\x08'
  | 't' => some '\t'
  | 'n' => some '\n'
  | 'f' => some '\x0c'
  | 'r' => some '\r'
  | '"' => some '"'
  | '\\' => some '\\'
  | _ => none

/-- The character with a code point; surrogates and numbers beyond are none. -/
def charOfCode? (code : Nat) : Option Char :=
  if code.isValidChar then some (Char.ofNat code) else none

/-- Where the reader of escaped text stands. -/
inductive EscapeState where
  | plain
  /-- After a backslash. -/
  | escape
  /-- After a backslash and blanks: the line has to end. -/
  | lineEnd
  /-- Inside the number of a code point: digits still missing, and the number so far. -/
  | code (missing value : Nat)
  deriving DecidableEq, Repr

/-- Read text after its opening double quote.  Gives the text and what follows the closing one. -/
def readEscaped : EscapeState → List Char → Option (List Char × List Char)
  | _, [] => none
  | .plain, char :: rest =>
      if char = '"' then some ([], rest)
      else if char = '\\' then readEscaped .escape rest
      else if isPlainChar char then (readEscaped .plain rest).map fun (text, after) =>
        (char :: text, after)
      else none
  | .escape, char :: rest =>
      if char = 'u' then readEscaped (.code 4 0) rest
      else if char = 'U' then readEscaped (.code 8 0) rest
      else do
        let meant ← escape? char
        let (text, after) ← readEscaped .plain rest
        pure (meant :: text, after)
  | .lineEnd, _ => none
  | .code missing value, char :: rest => do
      let extended := 16 * value + (← hexDigit? char)
      if missing ≤ 1 then
        let meant ← charOfCode? extended
        let (text, after) ← readEscaped .plain rest
        pure (meant :: text, after)
      else readEscaped (.code (missing - 1) extended) rest

/-- Read text after its opening single quote. -/
def readLiteral : List Char → Option (List Char × List Char)
  | [] => none
  | char :: rest =>
      if char = '\'' then some ([], rest)
      else if isPlainChar char then (readLiteral rest).map fun (text, after) =>
        (char :: text, after)
      else none

/-- What follows closing quotes that start here.  Three close the text; up to two more before them
belong to it. -/
def afterClosing? (quote : Char) (text : List Char) : Option (List Char) :=
  let count := (text.takeWhile (· = quote)).length
  if count ≤ 5 then some (text.drop count) else none

/-- Quotes that start here close the text. -/
def closes (quote : Char) (text : List Char) : Bool :=
  3 ≤ (text.takeWhile (· = quote)).length

/-- Pass over text after three opening double quotes. -/
def skipEscapedLines : EscapeState → List Char → Option (List Char)
  | _, [] => none
  | .plain, char :: rest =>
      if closes '"' (char :: rest) then afterClosing? '"' (char :: rest)
      else if char = '\\' then skipEscapedLines .escape rest
      else if char = '\n' || isPlainChar char then skipEscapedLines .plain rest
      else none
  | .escape, char :: rest =>
      if char = 'u' then skipEscapedLines (.code 4 0) rest
      else if char = 'U' then skipEscapedLines (.code 8 0) rest
      else if char = '\n' then skipEscapedLines .plain rest
      else if char = ' ' || char = '\t' then skipEscapedLines .lineEnd rest
      else if (escape? char).isSome then skipEscapedLines .plain rest
      else none
  | .lineEnd, char :: rest =>
      if char = '\n' then skipEscapedLines .plain rest
      else if char = ' ' || char = '\t' then skipEscapedLines .lineEnd rest
      else none
  | .code missing value, char :: rest => do
      let extended := 16 * value + (← hexDigit? char)
      if missing ≤ 1 then
        if extended.isValidChar then skipEscapedLines .plain rest else none
      else skipEscapedLines (.code (missing - 1) extended) rest

/-- Pass over text after three opening single quotes. -/
def skipLiteralLines : List Char → Option (List Char)
  | [] => none
  | char :: rest =>
      if closes '\'' (char :: rest) then afterClosing? '\'' (char :: rest)
      else if char = '\n' || isPlainChar char then skipLiteralLines rest
      else none

/-- Pass over text in any kind of quotes. -/
def skipQuoted : List Char → Option (List Char)
  | '"' :: '"' :: '"' :: rest => skipEscapedLines .plain rest
  | '\'' :: '\'' :: '\'' :: rest => skipLiteralLines rest
  | '"' :: rest => (readEscaped .plain rest).map (·.2)
  | '\'' :: rest => (readLiteral rest).map (·.2)
  | _ => none

end NodeGrid.Toml
