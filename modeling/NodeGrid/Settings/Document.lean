import NodeGrid.Settings
import NodeGrid.Toml.Document

/-!
# Settings from a document

Settings are written as a TOML document.  Keys that are missing take their standard values, keys
with other names are passed over, and the three known ones have to be natural numbers.
-/

namespace NodeGrid.Settings

/-- The natural number that belongs to a key of a document, or a standard value. -/
def bound? (document : Toml.Table) (key : String) (standard : Nat) : Option Nat :=
  match document.find? key.toList with
  | none => some standard
  | some (.integer value) => if 0 ≤ value then some value.toNat else none
  | some _ => none

/-- The settings that a document gives, whether or not a node can store that much. -/
def ofDocument? (document : Toml.Table) : Option Settings := do
  let maxLines ← bound? document "max_lines_per_program" standard.maxLines
  let maxColumns ← bound? document "max_columns_per_line" standard.maxColumns
  let maxNodes ← bound? document "max_nodes_per_controller" standard.maxNodes
  pure ⟨maxLines, maxColumns, maxNodes⟩

/-- The settings that a text gives, within what a node can store. -/
def ofToml (text : List Char) : Except SettingsError Settings :=
  match (Toml.document? text).bind ofDocument? with
  | none => .error .unreadable
  | some settings => settings.validate.map fun _ => settings

end NodeGrid.Settings
