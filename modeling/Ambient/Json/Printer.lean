import Ambient.Json.Value
/-!
# Printing JSON

## Main definitions

* `Json.quoted`: a text as a JSON string. Quotes, backslashes and control characters are escaped.
* `Json.compact`: a value without any blanks.
* `Json.pretty`: a value with one member or item a line, indented by two blanks a level.

The text is built as a list of characters, which is the form that reading takes apart.
-/

namespace Ambient.Json

/-- A hexadecimal digit in lower case. -/
def hexDigit (n : Nat) : Char :=
  if n < 10 then Char.ofNat (48 + n) else Char.ofNat (87 + n)

/-- A character inside a JSON string. -/
def escaped (c : Char) : List Char :=
  match c with
  | '"' => ['\\', '"']
  | '\\' => ['\\', '\\']
  | '\n' => ['\\', 'n']
  | '\r' => ['\\', 'r']
  | '\t' => ['\\', 't']
  | '\x08' => ['\\', 'b']
  | '\x0c' => ['\\', 'f']
  | c =>
    if c.toNat < 32 then ['\\', 'u', '0', '0', hexDigit (c.toNat / 16), hexDigit (c.toNat % 16)]
    else [c]

/-- A text as a JSON string. -/
def quoted (s : List Char) : List Char :=
  '"' :: (s.flatMap escaped ++ ['"'])

/-- The decimal text of an integer. -/
def intText (n : Int) : List Char :=
  if n < 0 then '-' :: Nat.toDigits 10 n.natAbs else Nat.toDigits 10 n.natAbs

mutual

/-- The characters of a value without any blanks. -/
def compactChars : Json → List Char
  | .null => "null".toList
  | .bool true => "true".toList
  | .bool false => "false".toList
  | .int n => intText n
  | .float x => x.text
  | .str s => quoted s.toList
  | .arr items => '[' :: (compactItems items ++ [']'])
  | .obj members => '\x7b' :: (compactMembers members ++ ['\x7d'])

/-- The items of an array, with commas between them. -/
def compactItems : List Json → List Char
  | [] => []
  | [item] => compactChars item
  | item :: next :: rest => compactChars item ++ ',' :: compactItems (next :: rest)

/-- The members of an object, with commas between them. -/
def compactMembers : List (String × Json) → List Char
  | [] => []
  | [(key, value)] => quoted key.toList ++ ':' :: compactChars value
  | (key, value) :: next :: rest =>
    quoted key.toList ++ ':' :: (compactChars value ++ ',' :: compactMembers (next :: rest))

end

/-- A line feed and the indentation of a level. -/
def newline (level : Nat) : List Char :=
  '\n' :: List.replicate (2 * level) ' '

mutual

/-- The characters of a value that stands at a level of nesting, one entry a line. -/
def prettyChars (level : Nat) : Json → List Char
  | .arr (item :: rest) =>
    '[' :: (prettyItems (level + 1) (item :: rest) ++ newline level ++ [']'])
  | .obj (member :: rest) =>
    '\x7b' :: (prettyMembers (level + 1) (member :: rest) ++ newline level ++ ['\x7d'])
  | .arr [] => ['[', ']']
  | .obj [] => ['\x7b', '\x7d']
  | .null => "null".toList
  | .bool true => "true".toList
  | .bool false => "false".toList
  | .int n => intText n
  | .float x => x.text
  | .str s => quoted s.toList

/-- The items of an array, each on a line of its own. -/
def prettyItems (level : Nat) : List Json → List Char
  | [] => []
  | [item] => newline level ++ prettyChars level item
  | item :: next :: rest =>
    newline level ++ prettyChars level item ++ ',' :: prettyItems level (next :: rest)

/-- The members of an object, each on a line of its own. -/
def prettyMembers (level : Nat) : List (String × Json) → List Char
  | [] => []
  | [(key, value)] =>
    newline level ++ quoted key.toList ++ ':' :: ' ' :: prettyChars level value
  | (key, value) :: next :: rest =>
    newline level ++ quoted key.toList ++ ':' :: ' ' ::
      (prettyChars level value ++ ',' :: prettyMembers level (next :: rest))

end

/-- A value without any blanks. -/
def compact (v : Json) : String :=
  String.ofList v.compactChars

/-- A value with one entry a line, indented by two blanks a level. -/
def pretty (v : Json) : String :=
  String.ofList (v.prettyChars 0)

end Ambient.Json
