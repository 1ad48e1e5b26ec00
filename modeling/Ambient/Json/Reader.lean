import Ambient.Json.Lexical
/-!
# Reading JSON text

## Main definitions

* `Json.readValue`: read one value from the start of a text.
* `Json.skipValue`: pass over one value without keeping it.
* `Json.parse`: read a text that holds one value and nothing else.

## Design notes

The readers recurse on a count of steps, for which the length of the text always suffices. Kept
values may nest at most 127 containers deep; values that are passed over may nest without limit.
-/

namespace Ambient.Json

/-- One more than the number of containers that may be nested. -/
def depthLimit : Nat := 128

/-- The text after the colon that follows a key. -/
def readColon (text : List Char) : Except Fault (List Char) :=
  match skipGap text with
  | [] => .error .endOfText
  | ':' :: rest => .ok rest
  | _ => .error .malformed

/-- The key of a member and the text after its colon. -/
def readKey (text : List Char) : Except Fault (String × List Char) :=
  match text with
  | '"' :: rest => do
    let (key, rest) ← readString rest
    let rest ← readColon rest
    pure (String.ofList key, rest)
  | [] => .error .endOfText
  | _ => .error .malformed

mutual

/-- Read one value. Containers may still nest less than `depth` deep. -/
def readValue : Nat → Nat → List Char → Except Fault (Json × List Char)
  | 0, _, _ => .error .endOfText
  | fuel + 1, depth, text =>
    match skipGap text with
    | [] => .error .endOfText
    | 'n' :: rest => do pure (.null, ← readWord "ull".toList rest)
    | 't' :: rest => do pure (.bool true, ← readWord "rue".toList rest)
    | 'f' :: rest => do pure (.bool false, ← readWord "alse".toList rest)
    | '"' :: rest => do
      let (content, rest) ← readString rest
      pure (.str (String.ofList content), rest)
    | '[' :: rest =>
      if depth ≤ 1 then .error .malformed
      else
        match skipGap rest with
        | ']' :: rest => .ok (.arr [], rest)
        | [] => .error .endOfText
        | rest => do
          let (item, rest) ← readValue fuel (depth - 1) rest
          let (items, rest) ← readItems fuel (depth - 1) rest
          pure (.arr (item :: items), rest)
    | '\x7b' :: rest =>
      if depth ≤ 1 then .error .malformed
      else
        match skipGap rest with
        | '\x7d' :: rest => .ok (.obj [], rest)
        | rest => do
          let (key, rest) ← readKey rest
          let (value, rest) ← readValue fuel (depth - 1) rest
          let (members, rest) ← readMembers fuel (depth - 1) rest
          pure (.ofMembers ((key, value) :: members), rest)
    | '-' :: rest => readNumber true rest
    | c :: rest => if c.isDigit then readNumber false (c :: rest) else .error .malformed

/-- Read the further items of an array, up to its end. -/
def readItems : Nat → Nat → List Char → Except Fault (List Json × List Char)
  | 0, _, _ => .error .endOfText
  | fuel + 1, depth, text =>
    match skipGap text with
    | [] => .error .endOfText
    | ']' :: rest => .ok ([], rest)
    | ',' :: rest => do
      let (item, rest) ← readValue fuel depth rest
      let (items, rest) ← readItems fuel depth rest
      pure (item :: items, rest)
    | _ => .error .malformed

/-- Read the further members of an object, up to its end. -/
def readMembers : Nat → Nat → List Char →
    Except Fault (List (String × Json) × List Char)
  | 0, _, _ => .error .endOfText
  | fuel + 1, depth, text =>
    match skipGap text with
    | [] => .error .endOfText
    | '\x7d' :: rest => .ok ([], rest)
    | ',' :: rest => do
      let (key, rest) ← readKey (skipGap rest)
      let (value, rest) ← readValue fuel depth rest
      let (members, rest) ← readMembers fuel depth rest
      pure ((key, value) :: members, rest)
    | _ => .error .malformed

end

/-- The text after a key and its colon. -/
def skipKey (text : List Char) : Except Fault (List Char) :=
  match text with
  | '"' :: rest => do readColon (← skipString rest)
  | [] => .error .endOfText
  | _ => .error .malformed

mutual

/-- The text after one value. -/
def skipValue : Nat → List Char → Except Fault (List Char)
  | 0, _ => .error .endOfText
  | fuel + 1, text =>
    match skipGap text with
    | [] => .error .endOfText
    | 'n' :: rest => readWord "ull".toList rest
    | 't' :: rest => readWord "rue".toList rest
    | 'f' :: rest => readWord "alse".toList rest
    | '"' :: rest => skipString rest
    | '[' :: rest =>
      match skipGap rest with
      | ']' :: rest => .ok rest
      | [] => .error .endOfText
      | rest => do skipItems fuel (← skipValue fuel rest)
    | '\x7b' :: rest =>
      match skipGap rest with
      | '\x7d' :: rest => .ok rest
      | rest => do skipMembers fuel (← skipValue fuel (← skipKey rest))
    | '-' :: rest => skipNumber rest
    | c :: rest => if c.isDigit then skipNumber (c :: rest) else .error .malformed

/-- The text after the further items of an array and its end. -/
def skipItems : Nat → List Char → Except Fault (List Char)
  | 0, _ => .error .endOfText
  | fuel + 1, text =>
    match skipGap text with
    | [] => .error .endOfText
    | ']' :: rest => .ok rest
    | ',' :: rest => do skipItems fuel (← skipValue fuel rest)
    | _ => .error .malformed

/-- The text after the further members of an object and its end. -/
def skipMembers : Nat → List Char → Except Fault (List Char)
  | 0, _ => .error .endOfText
  | fuel + 1, text =>
    match skipGap text with
    | [] => .error .endOfText
    | '\x7d' :: rest => .ok rest
    | ',' :: rest => do skipMembers fuel (← skipValue fuel (← skipKey (skipGap rest)))
    | _ => .error .malformed

end

/-- The end of a text that has been read: only blanks may be left. -/
def readEnd (text : List Char) : Except Fault Unit :=
  if (skipGap text).isEmpty then .ok () else .error .malformed

/-- Read a text that holds one value and nothing else. -/
def parse (text : String) : Except Fault Json := do
  let chars := text.toList
  let (value, rest) ← readValue (2 * chars.length + 2) depthLimit chars
  readEnd rest
  pure value

end Ambient.Json
