import NodeGrid.Assembly.Compile

/-!
# Settings

Settings bound how long programs and lines may be and how many nodes a grid may have.  A bound on
programs counts only within what a node can store.
-/

namespace NodeGrid

open Assembly

/-- The bounds of a grid. -/
structure Settings where
  maxLines : Nat
  maxColumns : Nat
  maxNodes : Nat
  deriving DecidableEq, Repr

/-- Why settings are refused. -/
inductive SettingsError where
  /-- The text is not a document with integers where they are needed. -/
  | unreadable
  | exceedsCapacity (name : String) (value capacity : Nat)
  deriving DecidableEq, Repr

/-- A refusal in words, where there are any of our own. -/
def SettingsError.message : SettingsError → String
  | .unreadable => "could not parse settings"
  | .exceedsCapacity name value capacity =>
      s!"{name} = {value} exceeds the capacity of {capacity}"

/-- The most lines, and the most bytes in a line, that a node of a grid stores. -/
def nodeCapacity : Extent :=
  ⟨64, 64⟩

namespace Settings

/-- The settings that hold where none are given. -/
def standard : Settings :=
  ⟨Extent.standard.lines, Extent.standard.columns, 64⟩

/-- The limits on the programs of nodes. -/
def limits (settings : Settings) : Extent :=
  ⟨settings.maxLines, settings.maxColumns⟩

/-- A bound lies within a capacity. -/
def checkBound (name : String) (value capacity : Nat) : Except SettingsError Unit :=
  if capacity < value then .error (.exceedsCapacity name value capacity) else .ok ()

/-- The bounds on programs lie within what a node stores; lines are checked first. -/
def validate (settings : Settings) : Except SettingsError Unit := do
  checkBound "max_lines_per_program" settings.maxLines nodeCapacity.lines
  checkBound "max_columns_per_line" settings.maxColumns nodeCapacity.columns

end Settings

end NodeGrid
