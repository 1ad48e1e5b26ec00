import Ambient.Json.Value
/-!
# Words, strings and numbers of JSON text

Each reader takes the text that is still to be read and gives back what it read together with the
rest, or the kind of fault it met.

## Main definitions

* `Json.Fault`: the text ended early, or it is malformed.
* `Json.readWord`, `Json.readString`, `Json.readNumber`: read a literal.
* `Json.skipString`, `Json.skipNumber`: pass over a literal whose content does not matter. They take
  lone surrogates and numbers of any size.

## Main statements

* `Json.length_of_readEscape`: an escape takes at least one character.
-/

namespace Ambient.Json

/-- What is wrong with a text that is no JSON text. -/
inductive Fault
  /-- The text ended before the value did. -/
  | endOfText
  /-- Some character cannot stand where it stands. -/
  | malformed
  deriving DecidableEq, Repr

/-- The four characters that may stand between the tokens of a JSON text. -/
def isGap (c : Char) : Bool :=
  c == ' ' || c == '\n' || c == '\t' || c == '\r'

/-- The text from its next token on. -/
def skipGap (text : List Char) : List Char :=
  text.dropWhile isGap

/-- The text after the rest of a word that has begun. -/
def readWord : List Char → List Char → Except Fault (List Char)
  | [], text => .ok text
  | _ :: _, [] => .error .endOfText
  | w :: word, c :: text => if c = w then readWord word text else .error .malformed

/-- The value of a hexadecimal digit. -/
def hexValue? (c : Char) : Option Nat :=
  let n := c.toNat
  if 48 ≤ n ∧ n ≤ 57 then some (n - 48)
  else if 97 ≤ n ∧ n ≤ 102 then some (n - 87)
  else if 65 ≤ n ∧ n ≤ 70 then some (n - 55)
  else none

/-- The length of a text in UTF-8. -/
def byteLength (text : List Char) : Nat :=
  text.foldl (fun size c => size + c.utf8Size) 0

/-- Four hexadecimal digits. A text with less than four bytes left has ended early, whatever its
characters are. -/
def readHex : List Char → Except Fault (Nat × List Char)
  | a :: b :: c :: d :: rest =>
    match hexValue? a, hexValue? b, hexValue? c, hexValue? d with
    | some a, some b, some c, some d => .ok (((a * 16 + b) * 16 + c) * 16 + d, rest)
    | _, _, _, _ => .error .malformed
  | text => if byteLength text < 4 then .error .endOfText else .error .malformed

/-- The second half of a surrogate pair whose first half is `lead`. -/
def readTrail (lead : Nat) : List Char → Except Fault (Char × List Char)
  | [] => .error .endOfText
  | ['\\'] => .error .endOfText
  | '\\' :: 'u' :: text =>
    match readHex text with
    | .error fault => .error fault
    | .ok (trail, rest) =>
      if 0xDC00 ≤ trail ∧ trail ≤ 0xDFFF then
        .ok (Char.ofNat (0x10000 + (lead - 0xD800) * 0x400 + (trail - 0xDC00)), rest)
      else .error .malformed
  | _ => .error .malformed

/-- The character for an escape, read from after its backslash. -/
def readEscape : List Char → Except Fault (Char × List Char)
  | [] => .error .endOfText
  | 'u' :: text =>
    match readHex text with
    | .error fault => .error fault
    | .ok (unit, rest) =>
      if 0xDC00 ≤ unit ∧ unit ≤ 0xDFFF then .error .malformed
      else if 0xD800 ≤ unit ∧ unit ≤ 0xDBFF then readTrail unit rest
      else .ok (Char.ofNat unit, rest)
  | '"' :: text => .ok ('"', text)
  | '\\' :: text => .ok ('\\', text)
  | '/' :: text => .ok ('/', text)
  | 'b' :: text => .ok ('\x08', text)
  | 'f' :: text => .ok ('\x0c', text)
  | 'n' :: text => .ok ('\n', text)
  | 'r' :: text => .ok ('\r', text)
  | 't' :: text => .ok ('\t', text)
  | _ :: _ => .error .malformed

theorem length_of_readHex {text rest : List Char} {n : Nat} (h : readHex text = .ok (n, rest)) :
    rest.length < text.length := by
  unfold readHex at h
  split at h
  · split at h
    · simp only [Except.ok.injEq, Prod.mk.injEq] at h
      obtain ⟨_, rfl⟩ := h
      simp only [List.length_cons]; omega
    · simp at h
  · split at h <;> simp at h

theorem length_of_readTrail {lead : Nat} {text rest : List Char} {c : Char}
    (h : readTrail lead text = .ok (c, rest)) : rest.length < text.length := by
  unfold readTrail at h
  split at h
  · simp at h
  · simp at h
  · split at h
    · simp at h
    · rename_i read
      have shorter := length_of_readHex read
      split at h
      · simp only [Except.ok.injEq, Prod.mk.injEq] at h
        obtain ⟨_, rfl⟩ := h
        simp only [List.length_cons]; omega
      · simp at h
  · simp at h

/-- An escape takes at least one character. -/
theorem length_of_readEscape {text rest : List Char} {c : Char}
    (h : readEscape text = .ok (c, rest)) : rest.length < text.length := by
  unfold readEscape at h
  split at h
  case h_2 =>
    split at h
    · simp at h
    · rename_i read
      have shorter := length_of_readHex read
      split at h
      · simp at h
      · split at h
        · have shorter' := length_of_readTrail h
          simp only [List.length_cons]; omega
        · simp only [Except.ok.injEq, Prod.mk.injEq] at h
          obtain ⟨_, rfl⟩ := h
          simp only [List.length_cons]; omega
  all_goals first
    | (simp at h; done)
    | (simp only [Except.ok.injEq, Prod.mk.injEq] at h
       obtain ⟨_, rfl⟩ := h
       simp)

/-- The content of a string, read from after its opening quote. -/
def readString : List Char → Except Fault (List Char × List Char)
  | [] => .error .endOfText
  | c :: text =>
    if c = '"' then .ok ([], text)
    else if c = '\\' then
      match _read : readEscape text with
      | .error fault => .error fault
      | .ok (d, rest) =>
        match readString rest with
        | .error fault => .error fault
        | .ok (content, rest) => .ok (d :: content, rest)
    else if c.toNat < 32 then .error .malformed
    else
      match readString text with
      | .error fault => .error fault
      | .ok (content, rest) => .ok (c :: content, rest)
termination_by text => text.length
decreasing_by
  · have shorter := length_of_readEscape _read
    simp only [List.length_cons]; omega
  · simp

/-- The text after a string whose content does not matter, read from after its opening quote. -/
def skipString : List Char → Except Fault (List Char)
  | [] => .error .endOfText
  | c :: text =>
    if c = '"' then .ok text
    else if c = '\\' then
      match text with
      | [] => .error .endOfText
      | 'u' :: text =>
        match _read : readHex text with
        | .error fault => .error fault
        | .ok (_, rest) => skipString rest
      | d :: text =>
        if d ∈ ['"', '\\', '/', 'b', 'f', 'n', 'r', 't'] then skipString text
        else .error .malformed
    else if c.toNat < 32 then .error .malformed
    else skipString text
termination_by text => text.length
decreasing_by
  · have shorter := length_of_readHex _read
    simp only [List.length_cons]; omega
  · simp only [List.length_cons]; omega
  · simp

/-! ## Numbers -/

/-- The largest significand that is read digit by digit. -/
def maxSignificand : Nat := Nat.pow 2 64 - 1

/-- The digit value of a decimal digit. -/
def digitValue (c : Char) : Nat := c.toNat - 48

/-- The decimal digits at the start of a text, and the text after them. -/
def spanDigits (text : List Char) : List Char × List Char :=
  (text.takeWhile Char.isDigit, text.dropWhile Char.isDigit)

/-- A significand and the number of further integer digits, which no longer fit into it. -/
def integerDigits (digits : List Char) : Nat × Nat :=
  digits.foldl (fun (significand, dropped) c =>
    let next := significand * 10 + digitValue c
    if dropped = 0 ∧ next ≤ maxSignificand then (next, 0)
    else (significand, dropped + 1)) (0, 0)

/-- A significand and a power of ten after the digits of a fraction. From the first digit that does
not fit on, the rest of the fraction has no effect. -/
def fractionDigits : Nat → Int → List Char → Nat × Int
  | significand, power, [] => (significand, power)
  | significand, power, c :: digits =>
    let next := significand * 10 + digitValue c
    if next ≤ maxSignificand then fractionDigits next (power - 1) digits else (significand, power)

/-- The double for a significand and a power of ten, as a number read up to `rest`. -/
def readScaled (negative : Bool) (significand : Nat) (power : Int) (rest : List Char) :
    Except Fault (Json × List Char) :=
  match Binary64.ofDecimal? negative significand power with
  | some x => .ok (.float x, rest)
  | none => .error .malformed

/-- The value of an exponent's digits; none beyond the range of 32-bit integers. -/
def exponentValue? (digits : List Char) : Option Nat :=
  let n := digits.foldl (fun n c => n * 10 + digitValue c) 0
  if n ≤ Nat.pow 2 31 - 1 then some n else none

/-- The exponent of a number and its end, read from after the exponent mark. -/
def readExponent (negative : Bool) (significand : Nat) (power : Int) (text : List Char) :
    Except Fault (Json × List Char) :=
  let (down, text) := match text with
    | '+' :: text => (false, text)
    | '-' :: text => (true, text)
    | text => (false, text)
  let (digits, rest) := spanDigits text
  if digits.isEmpty then .error (if text.isEmpty then .endOfText else .malformed)
  else
    match exponentValue? digits with
    | some n => readScaled negative significand (if down then power - n else power + n) rest
    | none =>
      if significand ≠ 0 ∧ !down then .error .malformed
      else readScaled negative 0 0 rest

/-- The end of a number after its integer and fraction digits. -/
def readScale (negative : Bool) (significand : Nat) (power : Int) :
    List Char → Except Fault (Json × List Char)
  | 'e' :: text => readExponent negative significand power text
  | 'E' :: text => readExponent negative significand power text
  | text => readScaled negative significand power text

/-- A number without fraction and exponent. What does not fit 64 bits becomes a double. -/
def wholeNumber (negative : Bool) (significand dropped : Nat) (rest : List Char) :
    Except Fault (Json × List Char) :=
  if dropped = 0 ∧ !negative then .ok (.int significand, rest)
  else if dropped = 0 ∧ 0 < significand ∧ significand ≤ Nat.pow 2 63 then
    .ok (.int (-(significand : Int)), rest)
  else readScaled negative significand dropped rest

/-- A number, read from after its sign. -/
def readNumber (negative : Bool) (text : List Char) : Except Fault (Json × List Char) :=
  let (digits, rest) := spanDigits text
  match digits with
  | [] => .error (if text.isEmpty then .endOfText else .malformed)
  | '0' :: _ :: _ => .error .malformed
  | digits =>
    let (significand, dropped) := integerDigits digits
    match rest with
    | '.' :: rest =>
      let (fraction, rest') := spanDigits rest
      if fraction.isEmpty then .error (if rest.isEmpty then .endOfText else .malformed)
      else
        let (significand, power) := fractionDigits significand dropped fraction
        readScale negative significand power rest'
    | 'e' :: rest => readExponent negative significand dropped rest
    | 'E' :: rest => readExponent negative significand dropped rest
    | rest => wholeNumber negative significand dropped rest

/-- The text after an exponent whose value does not matter, read from after the exponent mark. -/
def skipExponent (text : List Char) : Except Fault (List Char) :=
  let text := match text with
    | '+' :: text => text
    | '-' :: text => text
    | text => text
  let (digits, rest) := spanDigits text
  if digits.isEmpty then .error .malformed else .ok rest

/-- The text after a number whose value does not matter, read from after its sign. -/
def skipNumber (text : List Char) : Except Fault (List Char) :=
  let (digits, rest) := spanDigits text
  match digits with
  | [] => .error .malformed
  | '0' :: _ :: _ => .error .malformed
  | _ =>
    match rest with
    | '.' :: rest =>
      let (fraction, rest') := spanDigits rest
      if fraction.isEmpty then .error .malformed
      else
        match rest' with
        | 'e' :: rest => skipExponent rest
        | 'E' :: rest => skipExponent rest
        | rest => .ok rest
    | 'e' :: rest => skipExponent rest
    | 'E' :: rest => skipExponent rest
    | rest => .ok rest

end Ambient.Json
