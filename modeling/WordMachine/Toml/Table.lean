/-
  Tables of a configuration, reached by paths of keys.

  A path leads from table to table; where a list of tables stands on the way, it goes on in the last
  of them.
-/
import WordMachine.Toml.Parse
import WordMachine.Value

namespace WordMachine

namespace Toml

/-- The entries of a table, in the order in which they were made. -/
abbrev Entries := List (String × Value)

namespace Entries

/-- The value of a key. -/
def get? (entries : Entries) (key : String) : Option Value := entries.lookup key

/-- Gives a new value to a key that has one. -/
def replace (entries : Entries) (key : String) (value : Value) : Entries :=
  entries.map fun entry => if entry.1 = key then (key, value) else entry

/-- Adds a key at the end. -/
def add (entries : Entries) (key : String) (value : Value) : Entries := entries ++ [(key, value)]

/-- Changes the table at the end of a path.  Tables that are missing on the way are made.  Lists of
tables are entered only `throughLists`. -/
def updateAt (throughLists : Bool) (change : Entries → Except Error Entries) :
    List String → Entries → Except Error Entries
  | [], entries => change entries
  | key :: path, entries =>
    match entries.get? key with
    | none => do return entries.add key (.table (← updateAt throughLists change path []))
    | some (.table inner) => do
      return entries.replace key (.table (← updateAt throughLists change path inner))
    | some (.list items) =>
      match throughLists, items.getLast? with
      | true, some (.table inner) => do
        let last := Value.table (← updateAt throughLists change path inner)
        return entries.replace key (.list (items.dropLast ++ [last]))
      | _, _ => .error .malformed
    | some _ => .error .malformed

/-- Adds a key that must not be there yet. -/
def insertNew (key : String) (value : Value) (entries : Entries) : Except Error Entries :=
  match entries.get? key with
  | some _ => .error .malformed
  | none => .ok (entries.add key value)

/-- Adds an empty table to the list of tables of a key. -/
def appendTable (key : String) (entries : Entries) : Except Error Entries :=
  match entries.get? key with
  | none => .ok (entries.add key (.list [.table []]))
  | some (.list items) => .ok (entries.replace key (.list (items ++ [.table []])))
  | some _ => .error .malformed

end Entries

/-! ### Protected paths -/

/-- The paths that later statements may not use freely. -/
structure Protection where
  /-- Tables that have a header, or keys with dots in an earlier section: they get no (further)
  header and no keys with dots. -/
  declared : List (List String)
  /-- Values written in one piece: nothing is added to them or below them. -/
  frozen : List (List String)
  /-- Tables made by keys with dots in the current section: declared once the section ends. -/
  pending : List (List String)

namespace Protection

/-- No protected paths. -/
def none : Protection := ⟨[], [], []⟩

/-- Has the table a header, or keys with dots in an earlier section? -/
def isDeclared (p : Protection) (path : List String) : Bool := p.declared.contains path

/-- Does the path lead into a value that was written in one piece? -/
def isFrozen (p : Protection) (path : List String) : Bool := p.frozen.any (·.isPrefixOf path)

/-- Protects a table. -/
def declare (p : Protection) (path : List String) : Protection :=
  { p with declared := path :: p.declared }

/-- Protects a value that was written in one piece. -/
def freeze (p : Protection) (path : List String) : Protection :=
  { p with frozen := path :: p.frozen }

/-- Protects a table from the next section on. -/
def postpone (p : Protection) (path : List String) : Protection :=
  { p with pending := path :: p.pending }

/-- Ends a section. -/
def endSection (p : Protection) : Protection :=
  { p with declared := p.pending ++ p.declared, pending := [] }

/-- Lifts the protection of a path and of all paths below it. -/
def release (p : Protection) (path : List String) : Protection :=
  let keep := List.filter fun other : List String => !path.isPrefixOf other
  { p with declared := keep p.declared, frozen := keep p.frozen }

end Protection

end Toml

end WordMachine
