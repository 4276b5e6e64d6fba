/-!
# Tables of a TOML document

A document is a table of keys.  A table may be given in parts, but each key and each table only
once, so a table remembers how it came about: a header defines it, and passing through it on the
way to another table only implies it.  Only integers keep their value; of other plain values it is
enough to know that they are there.
-/

namespace NodeGrid.Toml

/-- A key, or one part of a dotted key. -/
abbrev Key := List Char

/-- How a table came about. -/
inductive Origin where
  /-- A header names it, or it is the document. -/
  | defined
  /-- It stands inside the name of a header. -/
  | impliedByHeader
  /-- It stands inside a dotted key. -/
  | impliedByKey
  deriving DecidableEq, Repr

/-- What belongs to a key.  Of an array of tables only the last table can still change. -/
inductive Item where
  | integer (value : Int)
  | other
  | table (origin : Origin) (entries : List (Key × Item))
  | tables (last : List (Key × Item))
  deriving Repr

/-- A table with its origin. -/
structure Table where
  origin : Origin
  entries : List (Key × Item)
  deriving Repr

namespace Table

/-- A table without entries. -/
def empty (origin : Origin) : Table :=
  ⟨origin, []⟩

/-- What belongs to a key. -/
def find? (table : Table) (key : Key) : Option Item :=
  (table.entries.find? fun entry => entry.1 = key).map (·.2)

/-- Give a key its item, in place of any other. -/
def put (table : Table) (key : Key) (item : Item) : Table :=
  { table with entries := table.entries.filter (fun entry => entry.1 ≠ key) ++ [(key, item)] }

/-- Change the table at the end of a path.  Tables that are missing on the way are implied.  The
parts of a dotted key may lead only through tables that are implied. -/
def alter (dotted : Bool) (change : Table → Option Table) : List Key → Table → Option Table
  | [], table => change table
  | key :: rest, table =>
      match table.find? key with
      | none => do
          let origin := if dotted then Origin.impliedByKey else .impliedByHeader
          let inner ← alter dotted change rest (.empty origin)
          pure (table.put key (.table inner.origin inner.entries))
      | some (.table origin entries) =>
          if dotted && origin = .defined then none
          else do
            let inner ← alter dotted change rest ⟨origin, entries⟩
            pure (table.put key (.table inner.origin inner.entries))
      | some (.tables last) => do
          let inner ← alter dotted change rest ⟨.defined, last⟩
          pure (table.put key (.tables inner.entries))
      | some (.integer _) | some .other => none

/-- Give a dotted key a value.  A table that a header defines or implies takes no entry through a
dotted key, and no key is given twice. -/
def assign (table : Table) (path : List Key) (key : Key) (value : Item) : Option Table :=
  alter true
    (fun inner =>
      if (inner.origin = .impliedByKey) = (path = []) then none
      else if (inner.find? key).isSome then none
      else some (inner.put key value))
    path table

/-- Define the table of a header.  It may have been implied by another header. -/
def define (document : Table) (path : List Key) (key : Key) : Option Table :=
  alter false
    (fun parent =>
      match parent.find? key with
      | none => some (parent.put key (.table .defined []))
      | some (.table .impliedByHeader entries) => some (parent.put key (.table .defined entries))
      | some _ => none)
    path document

/-- Begin a further table of an array of tables. -/
def extend (document : Table) (path : List Key) (key : Key) : Option Table :=
  alter false
    (fun parent =>
      match parent.find? key with
      | none | some (.tables _) => some (parent.put key (.tables []))
      | some _ => none)
    path document

end Table

end NodeGrid.Toml
