import NodeGrid.Toml.Table
import NodeGrid.Toml.Quoted

/-!
# TOML documents

A document is read line by line into one table.  Every line has to be sound, also those that nobody
asks for: keys may not repeat, values have to be complete, and nothing may follow them but a
comment.  Nesting is bounded.
-/

namespace NodeGrid.Toml

/-- Reading takes from the front of a text, or refuses it. -/
abbrev Reader := StateT (List Char) Option

/-- Keys with this many parts, and values nested this deep, are refused. -/
def depthBound : Nat :=
  80

/-- A blank within a line. -/
def isGap (char : Char) : Bool :=
  char = ' ' || char = '\t'

/-- A character of an unquoted key. -/
def isBareKeyChar (char : Char) : Bool :=
  char.isAlphanum || char = '_' || char = '-'

/-- The next character, left where it is. -/
def peek : Reader (Option Char) := do
  pure (← get).head?

/-- Take the characters of a class. -/
def takeClass (accept : Char → Bool) : Reader (List Char) := do
  let text ← get
  set (text.dropWhile accept)
  pure (text.takeWhile accept)

/-- Pass over blanks within a line. -/
def skipGap : Reader Unit := do
  let _ ← takeClass isGap

/-- Take this text if it comes next, and say whether it did. -/
def takeIf (expected : String) : Reader Bool := do
  let text ← get
  if expected.toList.isPrefixOf text then
    set (text.drop expected.length)
    pure true
  else pure false

/-- Take this text, which has to come next. -/
def expect (expected : String) : Reader Unit := do
  if ← takeIf expected then pure () else failure

/-- A comment runs to the end of the line. -/
def skipComment : Reader Unit := do
  if ← takeIf "#" then
    let _ ← takeClass isPlainChar

/-- The end of a line or of the text. -/
def lineEnd : Reader Unit := do
  match ← get with
  | [] => pure ()
  | '\n' :: rest => set rest
  | _ => failure

/-- What may follow a header or a value on its line. -/
def restOfLine : Reader Unit := do
  skipGap
  skipComment
  lineEnd

/-- One part of a key. -/
def keyPart : Reader Key := fun text =>
  match text with
  | '"' :: rest => readEscaped .plain rest
  | '\'' :: rest => readLiteral rest
  | _ =>
      let name := text.takeWhile isBareKeyChar
      if name.isEmpty then none else some (name, text.dropWhile isBareKeyChar)

/-- A key of at most this many parts, given as the parts before the last and the last. -/
def dottedKey : Nat → Reader (List Key × Key)
  | 0 => failure
  | bound + 1 => do
      skipGap
      let part ← keyPart
      skipGap
      if ← takeIf "." then
        let (path, key) ← dottedKey bound
        pure (part :: path, key)
      else pure ([], part)

/-- A key with fewer parts than the bound. -/
def key : Reader (List Key × Key) :=
  dottedKey (depthBound - 1)

/-- Pass over blanks, line ends and comments between the items of an array. -/
def afterSpace? : List Char → Bool → Option (List Char)
  | [], inComment => if inComment then none else some []
  | char :: rest, true =>
      if char = '\n' then afterSpace? rest false
      else if isPlainChar char then afterSpace? rest true
      else none
  | char :: rest, false =>
      if char = '\n' || isGap char then afterSpace? rest false
      else if char = '#' then afterSpace? rest true
      else some (char :: rest)

/-- Pass over blanks, line ends and comments. -/
def skipSpace : Reader Unit := do
  match afterSpace? (← get) false with
  | some rest => set rest
  | none => failure

/-- A number, a boolean or a date.  A date and a time may stand apart. -/
def plainValue : Reader Item := do
  let word ← takeClass isWordChar
  match integer? word with
  | some value => pure (.integer value)
  | none =>
      if !isOtherWord word then failure
      else if isDate word then
        match ← get with
        | ' ' :: next :: rest =>
            if isWordChar next then
              set (next :: rest)
              let time ← takeClass isWordChar
              if isZonedTime time then pure .other else failure
            else pure .other
        | _ => pure .other
      else pure .other

mutual

/-- A value.  The first number bounds the work and the second the nesting. -/
def value : Nat → Nat → Reader Item
  | 0, _ => failure
  | fuel + 1, depth => do
      match ← peek with
      | some '"' | some '\'' =>
          match skipQuoted (← get) with
          | some rest =>
              set rest
              pure .other
          | none => failure
      | some '[' =>
          if depth = 0 then failure
          expect "["
          arrayItems fuel (depth - 1)
          pure .other
      | some '\x7b' =>
          if depth = 0 then failure
          expect "\x7b"
          skipGap
          if ← takeIf "\x7d" then pure .other
          else
            inlineEntries fuel (depth - 1) (.empty .defined)
            pure .other
      | _ => plainValue

/-- The rest of an array, up to its closing bracket. -/
def arrayItems : Nat → Nat → Reader Unit
  | 0, _ => failure
  | fuel + 1, depth => do
      skipSpace
      if ← takeIf "]" then pure ()
      else
        let _ ← value fuel depth
        skipSpace
        if ← takeIf "," then arrayItems fuel depth else expect "]"

/-- The rest of an inline table that has these entries, up to its closing brace. -/
def inlineEntries : Nat → Nat → Table → Reader Unit
  | 0, _, _ => failure
  | fuel + 1, depth, table => do
      let (path, name) ← key
      expect "="
      skipGap
      let item ← value fuel depth
      skipGap
      let extended ← table.assign path name item
      if ← takeIf "," then inlineEntries fuel depth extended else expect "\x7d"

end

/-- A value that may be as long as the text. -/
def anyValue : Reader Item := do
  let text ← get
  value (2 * text.length + 2) (depthBound - 1)

/-- A document while it is read: the table so far and the header that entries belong to. -/
structure Draft where
  document : Table
  header : List Key
  deriving Repr

/-- Read one line onto a draft. -/
def line (draft : Draft) : Reader Draft := do
  skipGap
  match ← peek with
  | none => pure draft
  | some '\n' | some '#' =>
      skipComment
      lineEnd
      pure draft
  | some '[' =>
      expect "["
      if ← takeIf "[" then
        let (path, name) ← key
        expect "]]"
        restOfLine
        pure ⟨← draft.document.extend path name, path ++ [name]⟩
      else
        let (path, name) ← key
        expect "]"
        restOfLine
        pure ⟨← draft.document.define path name, path ++ [name]⟩
  | some _ =>
      let (path, name) ← key
      expect "="
      skipGap
      let item ← anyValue
      restOfLine
      let extended ← Table.alter false (·.assign path name item) draft.header draft.document
      pure { draft with document := extended }

/-- Read lines to the end of the text.  The number bounds the lines. -/
def lines : Nat → Draft → Reader Draft
  | 0, _ => failure
  | bound + 1, draft => do
      let extended ← line draft
      if (← peek).isNone then pure extended else lines bound extended

/-- Lines may end in a carriage return and a line feed; a carriage return stands nowhere else. -/
def unifyLineEnds : List Char → Option (List Char)
  | [] => some []
  | '\r' :: '\n' :: rest => (unifyLineEnds rest).map ('\n' :: ·)
  | '\r' :: _ => none
  | char :: rest => (unifyLineEnds rest).map (char :: ·)

/-- The table of a document.  A mark of byte order may come first. -/
def document? (text : List Char) : Option Table := do
  let unmarked := if text.head? = some '\ufeff' then text.drop 1 else text
  let unified ← unifyLineEnds unmarked
  let (draft, _) ← (lines (unified.length + 1) ⟨.empty .defined, []⟩).run unified
  pure draft.document

end NodeGrid.Toml
