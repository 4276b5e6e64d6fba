import NodeGrid.Text.Uppercase.Table

/-!
# Upper case

Programs are read in upper case.  The mapping is the full one of Unicode, without regard to
language or context, so one character may become several.
-/

namespace NodeGrid.Text

/-- The upper-case form of one character. -/
def upperChar (char : Char) : List Char :=
  if char.toNat < 0x80 then [char.toUpper]
  else
    match upperExpansions.find? fun entry => entry.1 = char.toNat with
    | some (_, codes) => codes.map Char.ofNat
    | none =>
        match upperRuns.find? fun run => run.covers char.toNat with
        | some run => [Char.ofNat (run.image char.toNat)]
        | none => [char]

/-- The upper-case form of a text. -/
def upper (text : List Char) : List Char :=
  text.flatMap upperChar

end NodeGrid.Text
