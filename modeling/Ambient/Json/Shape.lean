import Ambient.Json.Reader
/-!
# Reading JSON text of a given shape

A shape says which JSON values a text may hold. Reading a text of a shape stops at the first problem
in reading order, be it a fault of the text or a value that does not fit.

## Main definitions

* `Json.Shape`: strings, booleans, lists, records and so on.
* `Json.TextError`: a fault of the text, or a mismatch between text and shape.
* `Json.Shape.read`: read one value of a shape.
* `Json.Shape.parse`: read a text that holds one value of a shape and nothing else.

## Design notes

Values that no field asks for are passed over, so they are held to the lexical rules only. A record
may be written as an array of its fields in order. What is read is given back as a JSON value in
which records are objects, so one decoder serves values and texts.
-/

namespace Ambient.Json

/-- The form of a JSON value. -/
inductive Shape
  /-- A string. -/
  | string
  /-- A boolean. -/
  | boolean
  /-- Any value. -/
  | anything
  /-- `null`, or a value of a shape. -/
  | optional (shape : Shape)
  /-- An array of values of a shape. -/
  | list (shape : Shape)
  /-- One of some words, written as a string or as an object with the word as its only key. -/
  | word (known : List String)
  /-- Any word, written like those of `word`. -/
  | anyWord
  /-- An object with some named fields, of which some are required. -/
  | record (fields : List (String × Shape)) (required : List String)

/-- Why a text holds no value of a shape. -/
inductive TextError
  /-- The text is no JSON text. -/
  | fault (fault : Fault)
  /-- A value of the text does not fit the shape. -/
  | mismatch
  deriving DecidableEq, Repr

namespace Shape

/-- A fault of the text as a reason for refusing it. -/
def lift {α : Type} : Except Fault α → Except TextError α
  | .ok a => .ok a
  | .error fault => .error (.fault fault)

/-- The reason for refusing a value that starts where something else is asked for. A literal is read
to its end first, so a fault in it comes before the mismatch. -/
def refuse (text : List Char) : TextError :=
  let after : Except Fault Unit := match text with
    | [] => .error .endOfText
    | 'n' :: rest => (readWord "ull".toList rest).map fun _ => ()
    | 't' :: rest => (readWord "rue".toList rest).map fun _ => ()
    | 'f' :: rest => (readWord "alse".toList rest).map fun _ => ()
    | '"' :: rest => (readString rest).map fun _ => ()
    | '-' :: rest => (readNumber true rest).map fun _ => ()
    | '[' :: _ => .ok ()
    | '\x7b' :: _ => .ok ()
    | c :: rest =>
      if c.isDigit then (readNumber false (c :: rest)).map fun _ => () else .error .malformed
  match after with
  | .ok () => .mismatch
  | .error fault => .fault fault

/-- Whether a word is one of the known ones; all words are if there is no list of them. -/
def admits (known : Option (List String)) (word : String) : Bool :=
  match known with
  | some words => words.contains word
  | none => true

/-- Read a word, written as a string or as an object whose only member has it as its key. -/
def readWordValue (known : Option (List String)) (depth : Nat) (text : List Char) :
    Except TextError (Json × List Char) :=
  match text with
  | [] => .error (.fault .endOfText)
  | '"' :: rest => do
    let (content, rest) ← lift (readString rest)
    let word := String.ofList content
    if admits known word then pure (.str word, rest) else .error .mismatch
  | '\x7b' :: rest => do
    if depth ≤ 1 then .error (.fault .malformed)
    else
      match skipGap rest with
      | '"' :: rest => do
        let (content, rest) ← lift (readString rest)
        let word := String.ofList content
        if admits known word then
          let rest ← lift (readColon rest)
          match skipGap rest with
          | 'n' :: rest => do
            let rest ← lift (readWord "ull".toList rest)
            match skipGap rest with
            | '\x7d' :: rest => pure (.str word, rest)
            | [] => .error (.fault .endOfText)
            | _ => .error (.fault .malformed)
          | rest => .error (refuse rest)
        else .error .mismatch
      | rest => .error (refuse rest)
  | _ => .error (.fault .malformed)

/-- The start of the next item of an array, or none at its end. -/
def nextItem? (first : Bool) (text : List Char) : Except TextError (Option (List Char)) :=
  match skipGap text with
  | [] => .error (.fault .endOfText)
  | ']' :: _ => .ok none
  | c :: rest =>
    if first then .ok (some (c :: rest))
    else if c = ',' then
      match skipGap rest with
      | [] => .error (.fault .endOfText)
      | ']' :: _ => .error (.fault .malformed)
      | rest => .ok (some rest)
    else .error (.fault .malformed)

/-- The start of the next key of an object, or none at its end. -/
def nextKey? (first : Bool) (text : List Char) : Except TextError (Option (List Char)) :=
  match skipGap text with
  | [] => .error (.fault .endOfText)
  | '\x7d' :: _ => .ok none
  | c :: rest =>
    let start := if first then some (c :: rest) else if c = ',' then some (skipGap rest) else none
    match start with
    | none => .error (.fault .malformed)
    | some [] => .error (.fault .endOfText)
    | some ('"' :: rest) => .ok (some ('"' :: rest))
    | some _ => .error (.fault .malformed)

/-- The text after the closing bracket of an array. -/
def closeArray (text : List Char) : Except TextError (List Char) :=
  match skipGap text with
  | ']' :: rest => .ok rest
  | [] => .error (.fault .endOfText)
  | _ => .error (.fault .malformed)

mutual

/-- Read one value of a shape. Containers may still nest less than `depth` deep. -/
def read : Nat → Nat → Shape → List Char → Except TextError (Json × List Char)
  | 0, _, _, _ => .error (.fault .endOfText)
  | fuel + 1, depth, shape, text =>
    let text := skipGap text
    match shape with
    | .string =>
      match text with
      | '"' :: rest => do
        let (content, rest) ← lift (readString rest)
        pure (.str (String.ofList content), rest)
      | text => .error (refuse text)
    | .boolean =>
      match text with
      | 't' :: rest => do pure (.bool true, ← lift (readWord "rue".toList rest))
      | 'f' :: rest => do pure (.bool false, ← lift (readWord "alse".toList rest))
      | text => .error (refuse text)
    | .anything => lift (readValue (2 * text.length + 2) depth text)
    | .optional shape =>
      match text with
      | 'n' :: rest => do pure (.null, ← lift (readWord "ull".toList rest))
      | text => read fuel depth shape text
    | .word known => readWordValue (some known) depth text
    | .anyWord => readWordValue none depth text
    | .list shape =>
      match text with
      | '[' :: rest =>
        if depth ≤ 1 then .error (.fault .malformed)
        else do
          let (items, rest) ← readListItems fuel (depth - 1) shape true rest
          pure (.arr items, ← closeArray rest)
      | text => .error (refuse text)
    | .record fields required =>
      match text with
      | '[' :: rest =>
        if depth ≤ 1 then .error (.fault .malformed)
        else do
          let (members, rest) ← readRow fuel (depth - 1) fields required true rest
          pure (.obj members, ← closeArray rest)
      | '\x7b' :: rest =>
        if depth ≤ 1 then .error (.fault .malformed)
        else do
          let (members, rest) ← readFields fuel (depth - 1) fields required [] true rest
          pure (.obj members, rest)
      | text => .error (refuse text)

/-- Read the items of an array up to its end. -/
def readListItems : Nat → Nat → Shape → Bool → List Char →
    Except TextError (List Json × List Char)
  | 0, _, _, _, _ => .error (.fault .endOfText)
  | fuel + 1, depth, shape, first, text => do
    match ← nextItem? first text with
    | none => pure ([], text)
    | some start =>
      let (item, rest) ← read fuel depth shape start
      let (items, rest) ← readListItems fuel depth shape false rest
      pure (item :: items, rest)

/-- Read the fields of a record from the items of an array. -/
def readRow : Nat → Nat → List (String × Shape) → List String → Bool → List Char →
    Except TextError (List (String × Json) × List Char)
  | 0, _, _, _, _, _ => .error (.fault .endOfText)
  | _ + 1, _, [], _, _, text => pure ([], text)
  | fuel + 1, depth, (name, shape) :: fields, required, first, text => do
    match ← nextItem? first text with
    | none =>
      if ((name, shape) :: fields).any fun field => required.contains field.1 then
        .error .mismatch
      else pure ([], text)
    | some start =>
      let (value, rest) ← read fuel depth shape start
      let (members, rest) ← readRow fuel depth fields required false rest
      pure ((name, value) :: members, rest)

/-- Read the fields of a record from the members of an object, which must not repeat a field. Fields
that were already read are given in `seen`. -/
def readFields : Nat → Nat → List (String × Shape) → List String → List String → Bool →
    List Char → Except TextError (List (String × Json) × List Char)
  | 0, _, _, _, _, _, _ => .error (.fault .endOfText)
  | fuel + 1, depth, fields, required, seen, first, text => do
    match ← nextKey? first text with
    | none =>
      if required.all seen.contains then pure ([], (skipGap text).drop 1) else .error .mismatch
    | some start =>
      let (content, rest) ← lift (readString (start.drop 1))
      let key := String.ofList content
      match fields.lookup key with
      | some shape =>
        if seen.contains key then .error .mismatch
        else
          let rest ← lift (readColon rest)
          let (value, rest) ← read fuel depth shape rest
          let (members, rest) ← readFields fuel depth fields required (key :: seen) false rest
          pure ((key, value) :: members, rest)
      | none =>
        let rest ← lift (readColon rest)
        let rest ← lift (skipValue (2 * rest.length + 2) rest)
        readFields fuel depth fields required seen false rest

end

/-- Read a text that holds one value of a shape and nothing else. -/
def parse (shape : Shape) (text : String) : Except TextError Json := do
  let chars := text.toList
  let (value, rest) ← shape.read (2 * chars.length + 20) depthLimit chars
  lift (readEnd rest)
  pure value

end Shape

end Ambient.Json
