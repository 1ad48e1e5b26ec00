import Ambient.Json.Lexical
/-!
# Blanks, strings and keys of TOML text

Each reader takes the text that is still to be read and gives back what it read together with the
rest, or nothing if the text is malformed.

## Main definitions

* `Toml.skipSpace`: the text after blanks, line ends and comments.
* `Toml.readLineEnd`: the text after the end of a line, which may hold a comment.
* `Toml.readString`: read a string in any of the four notations.
* `Toml.readKey`: read a key, given as the list of its parts.

## Main statements

* `Toml.length_of_readEscape`: an escape takes at least one character.
-/

namespace Ambient.Toml

/-- The two characters that may stand between the tokens of a line. -/
def isBlank (c : Char) : Bool :=
  c == ' ' || c == '\t'

/-- The text after the blanks at its start. -/
def skipBlanks (text : List Char) : List Char :=
  text.dropWhile isBlank

/-- The characters that comments and strings may hold: no control character except the tab. -/
def isPlain (c : Char) : Bool :=
  c == '\t' || (32 ≤ c.toNat && c.toNat != 127)

/-- The text after a line end. -/
def readNewline : List Char → Option (List Char)
  | '\n' :: rest => some rest
  | '\r' :: '\n' :: rest => some rest
  | _ => none

/-- The text after blanks, line ends and comments. -/
def skipSpace : List Char → List Char
  | [] => []
  | '\r' :: '\n' :: rest => skipSpace rest
  | c :: rest =>
    if isBlank c || c == '\n' then skipSpace rest
    else if c = '#' then skipSpace (rest.dropWhile isPlain)
    else c :: rest
termination_by text => text.length
decreasing_by
  · simp only [List.length_cons]; omega
  · simp
  · have shorter := (List.dropWhile_suffix (l := rest) isPlain).length_le
    simp only [List.length_cons]; omega

/-- The text after the end of a line: blanks, perhaps a comment, and a line end or the end of the
text. -/
def readLineEnd (text : List Char) : Option (List Char) :=
  let text := match skipBlanks text with
    | '#' :: rest => rest.dropWhile isPlain
    | text => text
  if text.isEmpty then some [] else readNewline text

/-! ## Strings -/

/-- A number of hexadecimal digits, read after the digits of `value`. -/
def readHexDigits : Nat → Nat → List Char → Option (Nat × List Char)
  | 0, value, text => some (value, text)
  | count + 1, value, c :: text =>
    match Json.hexValue? c with
    | some digit => readHexDigits count (value * 16 + digit) text
    | none => none
  | _ + 1, _, [] => none

/-- The character with a number, if there is one. -/
def charOf? (n : Nat) : Option Char :=
  if n.isValidChar then some (Char.ofNat n) else none

/-- The character whose number stands in hexadecimal digits. -/
def readCodePoint (digits : Nat) (text : List Char) : Option (Char × List Char) :=
  match readHexDigits digits 0 text with
  | some (n, rest) => (charOf? n).map fun c => (c, rest)
  | none => none

/-- The character for an escape, read from after its backslash. -/
def readEscape : List Char → Option (Char × List Char)
  | 'u' :: text => readCodePoint 4 text
  | 'U' :: text => readCodePoint 8 text
  | 'b' :: text => some ('\x08', text)
  | 't' :: text => some ('\t', text)
  | 'n' :: text => some ('\n', text)
  | 'f' :: text => some ('\x0c', text)
  | 'r' :: text => some ('\r', text)
  | '"' :: text => some ('"', text)
  | '\\' :: text => some ('\\', text)
  | _ => none

theorem length_of_readHexDigits {count value n : Nat} {text rest : List Char}
    (h : readHexDigits count value text = some (n, rest)) : rest.length ≤ text.length := by
  induction count generalizing value text with
  | zero => simp_all [readHexDigits]
  | succ count ih =>
    cases text with
    | nil => simp [readHexDigits] at h
    | cons c text =>
      unfold readHexDigits at h
      split at h
      · have shorter := ih h
        simp only [List.length_cons]; omega
      · simp at h

/-- An escape takes at least one character. -/
theorem length_of_readEscape {text rest : List Char} {c : Char}
    (h : readEscape text = some (c, rest)) : rest.length < text.length := by
  have ofCodePoint {digits : Nat} {text rest : List Char} {c : Char}
      (h : readCodePoint digits text = some (c, rest)) : rest.length ≤ text.length := by
    unfold readCodePoint at h
    split at h
    · rename_i read
      have shorter := length_of_readHexDigits read
      simp only [Option.map_eq_some_iff, Prod.mk.injEq] at h
      obtain ⟨_, _, _, rfl⟩ := h
      exact shorter
    · simp at h
  unfold readEscape at h
  split at h
  case h_1 => exact Nat.lt_succ_of_le (ofCodePoint h)
  case h_2 => exact Nat.lt_succ_of_le (ofCodePoint h)
  all_goals first
    | (simp at h; done)
    | (simp only [Option.some.injEq, Prod.mk.injEq] at h
       obtain ⟨_, rfl⟩ := h
       simp)

/-- The content of a string in double quotes, read from after its opening quote. -/
def readQuoted : List Char → Option (List Char × List Char)
  | [] => none
  | c :: text =>
    if c = '"' then some ([], text)
    else if c = '\\' then
      match _read : readEscape text with
      | none => none
      | some (d, rest) => (readQuoted rest).map fun (content, rest) => (d :: content, rest)
    else if isPlain c then (readQuoted text).map fun (content, rest) => (c :: content, rest)
    else none
termination_by text => text.length
decreasing_by
  · have shorter := length_of_readEscape _read
    simp only [List.length_cons]; omega
  · simp

/-- The content of a string in single quotes, read from after its opening quote. -/
def readLiteral (text : List Char) : Option (List Char × List Char) :=
  let inside (c : Char) : Bool := isPlain c && c != '\''
  match text.dropWhile inside with
  | '\'' :: rest => some (text.takeWhile inside, rest)
  | _ => none

/-- The quotes that belong to the content of a multi-line string although they stand right before
its end: the text after the first three quotes holds them. -/
def closingQuotes (quote : Char) : List Char → List Char × List Char
  | a :: b :: rest =>
    if a != quote then ([], a :: b :: rest)
    else if b != quote then ([a], b :: rest)
    else ([a, b], rest)
  | [a] => if a = quote then ([a], []) else ([], [a])
  | [] => ([], [])

/-- Whether a text starts with three quotes of a kind. -/
def startsBlock (quote : Char) (text : List Char) : Bool :=
  text.take 3 == [quote, quote, quote]

/-- The text after blanks, if a line ends there, and after all further blanks and line ends. -/
def skipFold (text : List Char) : Option (List Char) :=
  (readNewline (skipBlanks text)).map skipLines
where
  /-- The text after blanks and line ends. -/
  skipLines : List Char → List Char
    | '\r' :: '\n' :: rest => skipLines rest
    | c :: rest => if isBlank c || c == '\n' then skipLines rest else c :: rest
    | [] => []

/-- The content of a multi-line string in double quotes, read from after its opening. A backslash at
the end of a line takes the line end and all space after it out. -/
def readQuotedBlock : Nat → List Char → Option (List Char × List Char)
  | 0, _ => none
  | _ + 1, [] => none
  | fuel + 1, c :: text =>
    let keep (d : Char) (rest : List Char) : Option (List Char × List Char) :=
      (readQuotedBlock fuel rest).map fun (content, rest) => (d :: content, rest)
    if startsBlock '"' (c :: text) then some (closingQuotes '"' (text.drop 2))
    else if c = '\\' then
      match skipFold text with
      | some rest => readQuotedBlock fuel rest
      | none =>
        match readEscape text with
        | none => none
        | some (d, rest) => keep d rest
    else
      match readNewline (c :: text) with
      | some rest => keep '\n' rest
      | none => if isPlain c then keep c text else none

/-- The content of a multi-line string in single quotes, read from after its opening. -/
def readLiteralBlock : Nat → List Char → Option (List Char × List Char)
  | 0, _ => none
  | _ + 1, [] => none
  | fuel + 1, c :: text =>
    let keep (d : Char) (rest : List Char) : Option (List Char × List Char) :=
      (readLiteralBlock fuel rest).map fun (content, rest) => (d :: content, rest)
    if startsBlock '\'' (c :: text) then some (closingQuotes '\'' (text.drop 2))
    else
      match readNewline (c :: text) with
      | some rest => keep '\n' rest
      | none => if isPlain c then keep c text else none

/-- The content of a multi-line string: a line end right after the opening does not count. -/
def blockContent (text : List Char) : List Char :=
  (readNewline text).getD text

/-- A string in any of the four notations. -/
def readString (text : List Char) : Option (String × List Char) :=
  let read := match text with
    | '"' :: rest =>
      if startsBlock '"' text then readQuotedBlock text.length (blockContent (rest.drop 2))
      else readQuoted rest
    | '\'' :: rest =>
      if startsBlock '\'' text then readLiteralBlock text.length (blockContent (rest.drop 2))
      else readLiteral rest
    | _ => none
  read.map fun (content, rest) => (String.ofList content, rest)

/-! ## Keys -/

/-- The characters of keys without quotes. -/
def isBare (c : Char) : Bool :=
  c.isAlphanum || c == '_' || c == '-'

/-- One part of a key. -/
def readKeyPart : List Char → Option (String × List Char)
  | '"' :: text => (readQuoted text).map fun (content, rest) => (String.ofList content, rest)
  | '\'' :: text => (readLiteral text).map fun (content, rest) => (String.ofList content, rest)
  | text =>
    let part := text.takeWhile isBare
    if part.isEmpty then none else some (String.ofList part, text.dropWhile isBare)

/-- The parts of a key, at most `limit` of them, and the text after the blanks that follow. -/
def readKeyParts : Nat → List Char → Option (List String × List Char)
  | 0, _ => none
  | limit + 1, text => do
    let (part, rest) ← readKeyPart (skipBlanks text)
    match skipBlanks rest with
    | '.' :: rest =>
      let (parts, rest) ← readKeyParts limit rest
      pure (part :: parts, rest)
    | rest => pure ([part], rest)

/-- One more than the number of parts that a key may have and of containers that may be nested. -/
def nestingLimit : Nat := 80

/-- A key, given as the list of its parts. -/
def readKey (text : List Char) : Option (List String × List Char) :=
  readKeyParts (nestingLimit - 1) text

end Ambient.Toml
