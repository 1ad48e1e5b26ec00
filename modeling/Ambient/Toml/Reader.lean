import Ambient.Toml.Lexical
import Ambient.Toml.Number
import Ambient.Toml.Table
/-!
# Reading TOML documents

## Main definitions

* `Toml.readValue`: read one value from the start of a text.
* `Toml.Section`: a header with the assignments below it.
* `Toml.parse`: the document that a text holds, as a JSON object.

## Design notes

A text is read in two steps. The first takes it apart into sections without regard to which keys
they set. The second puts the sections into one table, and refuses a key that is set twice.
-/

namespace Ambient.Toml

/-- The text after a given word. -/
def readWord : List Char → List Char → Option (List Char)
  | [], text => some text
  | w :: word, c :: text => if c = w then readWord word text else none
  | _ :: _, [] => none

mutual

/-- Read one value. Containers may still nest `depth` deep. -/
def readValue : Nat → Nat → List Char → Option (Json × List Char)
  | 0, _, _ => none
  | fuel + 1, depth, text =>
    match text with
    | 't' :: rest => do pure (.bool true, ← readWord "rue".toList rest)
    | 'f' :: rest => do pure (.bool false, ← readWord "alse".toList rest)
    | '[' :: rest =>
      if depth = 0 then none
      else do
        let (items, rest) ← readItems fuel (depth - 1) rest
        pure (.arr items, rest)
    | '\x7b' :: rest =>
      if depth = 0 then none
      else do
        let (assignments, rest) ← readInline fuel (depth - 1) rest
        pure (.obj (toMembers (← assignAll assignments [])), rest)
    | text =>
      match readString text with
      | some (content, rest) => some (.str content, rest)
      | none => readNumber text

/-- Read the items of an array up to its end. A comma may follow the last one. -/
def readItems : Nat → Nat → List Char → Option (List Json × List Char)
  | 0, _, _ => none
  | fuel + 1, depth, text =>
    match skipSpace text with
    | ']' :: rest => some ([], rest)
    | text => do
      let (item, rest) ← readValue fuel depth text
      match skipSpace rest with
      | ',' :: rest =>
        let (items, rest) ← readItems fuel depth rest
        pure (item :: items, rest)
      | ']' :: rest => pure ([item], rest)
      | _ => none

/-- Read the assignments of an inline table up to its end. All of them stand on one line. -/
def readInline : Nat → Nat → List Char → Option (List (List String × Json) × List Char)
  | 0, _, _ => none
  | fuel + 1, depth, text =>
    match skipBlanks text with
    | '\x7d' :: rest => some ([], rest)
    | text => readPairs fuel depth text

/-- Read the assignments of an inline table that has at least one more. -/
def readPairs : Nat → Nat → List Char → Option (List (List String × Json) × List Char)
  | 0, _, _ => none
  | fuel + 1, depth, text => do
    let (path, rest) ← readKey text
    let (value, rest) ← readValue fuel depth (skipBlanks (← readMark '=' rest))
    match skipBlanks rest with
    | ',' :: rest =>
      let (assignments, rest) ← readPairs fuel depth rest
      pure ((path, value) :: assignments, rest)
    | '\x7d' :: rest => pure ([(path, value)], rest)
    | _ => none

end

/-- A header. -/
inductive Header
  /-- The header of a table. -/
  | table (path : List String)
  /-- The header of one item of an array of tables. -/
  | item (path : List String)

/-- A header with the assignments below it. -/
structure Section where
  header : Header
  assignments : List (List String × Json)

/-- Read a line with a header, from after its first bracket. -/
def readHeader : List Char → Option (Header × List Char)
  | '[' :: text => do
    let (path, rest) ← readKey text
    let rest ← readLineEnd (← readMark ']' (← readMark ']' rest))
    pure (.item path, rest)
  | text => do
    let (path, rest) ← readKey text
    let rest ← readLineEnd (← readMark ']' rest)
    pure (.table path, rest)

/-- Read the assignments up to the next header, and all sections from there on. -/
def readSections : Nat → List Char → Option (List (List String × Json) × List Section)
  | 0, _ => none
  | fuel + 1, text =>
    match skipSpace text with
    | [] => some ([], [])
    | '[' :: rest => do
      let (header, rest) ← readHeader rest
      let (assignments, sections) ← readSections fuel rest
      pure ([], { header, assignments } :: sections)
    | text => do
      let (path, rest) ← readKey text
      let text := skipBlanks (← readMark '=' rest)
      let (value, rest) ← readValue (2 * text.length + 2) (nestingLimit - 1) text
      let (assignments, sections) ← readSections fuel (← readLineEnd rest)
      pure ((path, value) :: assignments, sections)

/-- The entries after one more section. -/
def addSection (entries : Entries) (part : Section) : Option Entries :=
  match part.header with
  | .table path => openTable path part.assignments entries
  | .item path => openTableItem path part.assignments entries

/-- A byte order mark at the start of a text does not count. -/
def afterMark : List Char → List Char
  | '\ufeff' :: text => text
  | text => text

/-- The document that a text holds, as a JSON object. -/
def parse (text : String) : Option Json := do
  let chars := afterMark text.toList
  let (assignments, sections) ← readSections (chars.length + 1) chars
  let root ← assignAll assignments []
  pure (.obj (toMembers (← sections.foldlM addSection root)))

end Ambient.Toml
