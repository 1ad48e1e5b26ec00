import Ambient.Json.Lexical
/-!
# Numbers and date-times of TOML text

## Main definitions

* `Toml.readInteger`: read an integer in base ten, sixteen, eight or two.
* `Toml.readDecimal`: read an integer or a float in base ten, or one of the special floats.
* `Toml.readDateTime`: read a date, a time of day, or both, perhaps with an offset.
* `Toml.readNumber`: read any of these.

## Design notes

A date-time is an object with one key that no table of a document is likely to have, and its text in
normal form as the value.
-/

namespace Ambient.Toml

/-! ## Numbers -/

/-- The digits after the first one. An underscore may stand between two digits. -/
def readMoreDigits (isDigit : Char → Bool) : List Char → Option (List Char × List Char)
  | [] => some ([], [])
  | '_' :: [] => none
  | '_' :: c :: text =>
    if isDigit c then (readMoreDigits isDigit text).map fun (digits, rest) => (c :: digits, rest)
    else none
  | c :: text =>
    if isDigit c then (readMoreDigits isDigit text).map fun (digits, rest) => (c :: digits, rest)
    else some ([], c :: text)

/-- Digits, at least one. -/
def readDigits (isDigit : Char → Bool) : List Char → Option (List Char × List Char)
  | c :: text =>
    if isDigit c then (readMoreDigits isDigit text).map fun (digits, rest) => (c :: digits, rest)
    else none
  | [] => none

/-- The value of digits in a base. -/
def digitsValue (base : Nat) (digits : List Char) : Nat :=
  digits.foldl (fun n c => n * base + (Json.hexValue? c).getD 0) 0

/-- An integer, if it fits 64 bits. -/
def integer? (n : Int) : Option Json :=
  if -(Nat.pow 2 63 : Int) ≤ n ∧ n < (Nat.pow 2 63 : Int) then some (.int n) else none

/-- A number in a base other than ten, read from after its mark. -/
def readInBase (base : Nat) (text : List Char) : Option (Json × List Char) := do
  let isDigit (c : Char) : Bool := match Json.hexValue? c with
    | some digit => digit < base
    | none => false
  let (digits, rest) ← readDigits isDigit text
  pure (← integer? (digitsValue base digits), rest)

/-- The sign of a number, and the text after it. -/
def readSign : List Char → Bool × List Char
  | '+' :: text => (false, text)
  | '-' :: text => (true, text)
  | text => (false, text)

/-- The integer digits of a number in base ten: a leading zero stands alone. -/
def readWhole : List Char → Option (List Char × List Char)
  | '0' :: text => some (['0'], text)
  | text => readDigits Char.isDigit text

/-- The exponent of a float; zero if there is none. -/
def readExponent : List Char → Option (Int × List Char)
  | c :: text =>
    if c = 'e' ∨ c = 'E' then do
      let (negative, text) := readSign text
      let (digits, rest) ← readDigits Char.isDigit text
      let n : Int := digitsValue 10 digits
      pure (if negative then -n else n, rest)
    else some (0, c :: text)
  | [] => some (0, [])

/-- The double next to `0.d₁d₂… * 10 ^ point` for some digits. There is none for positive values
beyond all doubles. -/
def double? (negative : Bool) (digits : List Char) (point : Int) : Option Binary64 :=
  let significand := digitsValue 10 digits
  let magnitude : Float :=
    if significand = 0 ∨ point < -400 then 0
    else if 400 < point then 1 / 0
    else
      let power := point - digits.length
      Float.ofScientific significand (power < 0) power.natAbs
  if magnitude.isInf && !negative then none
  else some (.ofFloat (if negative then -magnitude else magnitude))

/-- A float, read from after its integer digits. -/
def readFraction (negative : Bool) (whole : List Char) (text : List Char) :
    Option (Json × List Char) := do
  let (fraction, text) ← match text with
    | '.' :: text => readDigits Char.isDigit text
    | text => some ([], text)
  let (exponent, rest) ← readExponent text
  let digits := (whole ++ fraction).dropWhile (· == '0')
  let x ← double? negative digits (exponent + digits.length - fraction.length)
  pure (.float x, rest)

/-- An infinity or a number that is none, read from after its sign. -/
def readSpecial (negative : Bool) : List Char → Option (Json × List Char)
  | 'i' :: 'n' :: 'f' :: rest =>
    some (.float (.ofFloat (if negative then -(1 / 0) else 1 / 0)), rest)
  | 'n' :: 'a' :: 'n' :: rest => some (.float (.ofFloat (0 / 0)), rest)
  | _ => none

/-- A number in base ten, or a special float. -/
def readDecimal (text : List Char) : Option (Json × List Char) :=
  let (negative, text) := readSign text
  match readWhole text with
  | none => readSpecial negative text
  | some (whole, rest) =>
    match rest with
    | '.' :: _ => readFraction negative whole rest
    | 'e' :: _ => readFraction negative whole rest
    | 'E' :: _ => readFraction negative whole rest
    | rest => do
      let n : Int := digitsValue 10 whole
      pure (← integer? (if negative then -n else n), rest)

/-! ## Date-times -/

/-- Two digits with a value up to `most`. -/
def readTwoDigits (least most : Nat) : List Char → Option (List Char × Nat × List Char)
  | a :: b :: rest =>
    let n := digitsValue 10 [a, b]
    if a.isDigit && b.isDigit && least ≤ n && n ≤ most then some ([a, b], n, rest) else none
  | _ => none

/-- The number of days of a month. -/
def daysOfMonth (year month : Nat) : Nat :=
  if month = 2 then if year % 4 = 0 ∧ (year % 100 ≠ 0 ∨ year % 400 = 0) then 29 else 28
  else if month ∈ [4, 6, 9, 11] then 30 else 31

/-- The text after one given character. -/
def readMark (mark : Char) : List Char → Option (List Char)
  | c :: rest => if c = mark then some rest else none
  | [] => none

/-- A date. -/
def readDate (text : List Char) : Option (List Char × List Char) := do
  let yearDigits := text.take 4
  if yearDigits.length < 4 || !yearDigits.all Char.isDigit then none
  let (monthDigits, month, rest) ← readTwoDigits 1 12 (← readMark '-' (text.drop 4))
  let most := daysOfMonth (digitsValue 10 yearDigits) month
  let (dayDigits, _, rest) ← readTwoDigits 1 most (← readMark '-' rest)
  pure (yearDigits ++ '-' :: (monthDigits ++ '-' :: dayDigits), rest)

/-- The fraction of a second: nine digits count, and zeros at their end are left out. -/
def readSecondFraction : List Char → Option (List Char × List Char)
  | '.' :: text =>
    let digits := text.takeWhile Char.isDigit
    if digits.isEmpty then none
    else
      let kept := ((digits.take 9).reverse.dropWhile (· == '0')).reverse
      some (if kept.isEmpty then [] else '.' :: kept, text.dropWhile Char.isDigit)
  | text => some ([], text)

/-- A time of day; a leap second is the sixtieth. -/
def readTime (text : List Char) : Option (List Char × List Char) := do
  let (hour, _, rest) ← readTwoDigits 0 23 text
  let (minute, _, rest) ← readTwoDigits 0 59 (← readMark ':' rest)
  let (second, _, rest) ← readTwoDigits 0 60 (← readMark ':' rest)
  let (fraction, rest) ← readSecondFraction rest
  pure (hour ++ ':' :: (minute ++ ':' :: (second ++ fraction)), rest)

/-- The offset of a time. -/
def readOffset : List Char → Option (List Char × List Char)
  | c :: text =>
    if c = 'Z' ∨ c = 'z' then some (['Z'], text)
    else if c = '+' ∨ c = '-' then do
      let (hour, hours, rest) ← readTwoDigits 0 23 text
      let (minute, minutes, rest) ← readTwoDigits 0 59 (← readMark ':' rest)
      let sign := if hours + minutes = 0 then '+' else c
      pure (sign :: (hour ++ ':' :: minute), rest)
    else some ([], c :: text)
  | [] => some ([], [])

/-- A time of day after a date, with the mark between them. -/
def readTimeOfDate : List Char → Option (List Char × List Char)
  | c :: text =>
    if c = 'T' ∨ c = 't' ∨ c = ' ' then do
      let (time, rest) ← readTime text
      let (offset, rest) ← readOffset rest
      pure ('T' :: (time ++ offset), rest)
    else none
  | [] => none

/-- The key that marks a date-time. -/
def dateTimeKey : String := "$__toml_private_datetime"

/-- A date, a time of day, or both. -/
def readDateTime (text : List Char) : Option (Json × List Char) := do
  let (content, rest) ← match readDate text with
    | some (date, rest) =>
      match readTimeOfDate rest with
      | some (time, rest) => some (date ++ time, rest)
      | none => some (date, rest)
    | none => readTime text
  pure (.obj [(dateTimeKey, .str (String.ofList content))], rest)

/-- A number or a date-time. -/
def readNumber (text : List Char) : Option (Json × List Char) :=
  match text with
  | '0' :: 'x' :: rest => readInBase 16 rest
  | '0' :: 'o' :: rest => readInBase 8 rest
  | '0' :: 'b' :: rest => readInBase 2 rest
  | text => readDateTime text <|> readDecimal text

end Ambient.Toml
