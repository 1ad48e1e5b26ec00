import Ambient.Json.Value
/-!
# Tables of a TOML document

A document sets keys table by table. Which keys may still be added to a table depends on how the
table came about, so that is kept until the whole document is read.

## Main definitions

* `Toml.Origin`: how a table came about.
* `Toml.Entry`: what stands under a key while a document is read.
* `Toml.assign`: put a value under a dotted key.
* `Toml.openTable`, `Toml.openTableItem`: the entries after a table, or one item of an array of
  tables, was given under its own header.
* `Toml.toMembers`: the entries as members of a JSON object.
-/

namespace Ambient.Toml

/-- How a table came about. -/
inductive Origin
  /-- Under a header of its own. -/
  | header
  /-- As the parent of something under a header. -/
  | parent
  /-- By dotted keys. -/
  | dotted
  deriving DecidableEq, Repr

/-- What stands under a key while a document is read. -/
inductive Entry
  /-- A value that is complete. -/
  | value (v : Json)
  /-- A table that may get further keys. -/
  | table (origin : Origin) (entries : List (String × Entry))
  /-- An array of tables. Only its last item may get further keys. -/
  | tables (earlier : List Json) (last : List (String × Entry))

/-- The entries of a table, in the order in which their keys came in. -/
abbrev Entries := List (String × Entry)

mutual

/-- An entry as a JSON value. -/
def toJson : Entry → Json
  | .value v => v
  | .table _ entries => .obj (toMembers entries)
  | .tables earlier last => .arr (earlier ++ [.obj (toMembers last)])

/-- The entries as members of a JSON object. -/
def toMembers : Entries → List (String × Json)
  | [] => []
  | (key, entry) :: rest => (key, toJson entry) :: toMembers rest

end

/-- The entries with another entry in the place of the one under a key. -/
def replaceEntry (key : String) (entry : Entry) (entries : Entries) : Entries :=
  entries.map fun (k, e) => if k = key then (k, entry) else (k, e)

/-- Put a value under a dotted key. The tables on the way are those of dotted keys, or of parents if
another one follows; tables with a header are closed to dotted keys. -/
def assign (value : Json) : List String → Entries → Option Entries
  | [], _ => none
  | [key], entries =>
    match entries.lookup key with
    | some _ => none
    | none => some (entries ++ [(key, .value value)])
  | key :: next :: path, entries =>
    match entries.lookup key with
    | none => do
      let inner ← assign value (next :: path) []
      pure (entries ++ [(key, .table .dotted inner)])
    | some (.value _) => none
    | some (.table origin inner) =>
      if origin = .dotted ∨ (origin = .parent ∧ path ≠ []) then do
        let inner ← assign value (next :: path) inner
        pure (replaceEntry key (.table origin inner) entries)
      else none
    | some (.tables earlier last) =>
      if path ≠ [] then do
        let last ← assign value (next :: path) last
        pure (replaceEntry key (.tables earlier last) entries)
      else none

/-- Put values under dotted keys, from left to right. -/
def assignAll (assignments : List (List String × Json)) (entries : Entries) : Option Entries :=
  assignments.foldlM (fun entries (path, value) => assign value path entries) entries

/-- Change the entries that hold the last key of a header. Tables on the way are made as needed. -/
def underHeader (change : String → Entries → Option Entries) :
    List String → Entries → Option Entries
  | [], _ => none
  | [key], entries => change key entries
  | key :: next :: path, entries =>
    match entries.lookup key with
    | none => do
      let inner ← underHeader change (next :: path) []
      pure (entries ++ [(key, .table .parent inner)])
    | some (.value _) => none
    | some (.table origin inner) => do
      let inner ← underHeader change (next :: path) inner
      pure (replaceEntry key (.table origin inner) entries)
    | some (.tables earlier last) => do
      let last ← underHeader change (next :: path) last
      pure (replaceEntry key (.tables earlier last) entries)

/-- The entries after a table was given under its own header. A table may have been the parent of
others before; it then takes the last place. -/
def openTable (path : List String) (assignments : List (List String × Json)) :
    Entries → Option Entries :=
  underHeader (fun key entries => do
    let earlier ← match entries.lookup key with
      | none => some []
      | some (.table .parent inner) => some inner
      | some _ => none
    let inner ← assignAll assignments earlier
    pure (entries.filter (fun entry => entry.1 != key) ++ [(key, .table .header inner)])) path

/-- The entries after one item of an array of tables was given under its own header. -/
def openTableItem (path : List String) (assignments : List (List String × Json)) :
    Entries → Option Entries :=
  underHeader (fun key entries => do
    let item ← assignAll assignments []
    match entries.lookup key with
    | none => some (entries ++ [(key, .tables [] item)])
    | some (.tables earlier last) =>
      some (replaceEntry key (.tables (earlier ++ [.obj (toMembers last)]) item) entries)
    | some _ => none) path

end Ambient.Toml
