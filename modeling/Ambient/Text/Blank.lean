/-!
# Blank characters and trimming

The white-space class used everywhere in this library is the Unicode property `White_Space`.
Texts are handled as lists of characters; the `String` versions at the end wrap them.

## Main definitions

* `Text.isBlank`: the character has the property `White_Space`.
* `Text.trimStart`, `Text.trimEnd`, `Text.trim`: a text without its outer blanks.

## Main statements

* `Text.length_trim_le`: trimming never lengthens a text.
-/

namespace Ambient.Text

/-- A character with the Unicode property `White_Space`. -/
def isBlank (c : Char) : Bool :=
  let n := c.toNat
  (9 ≤ n && n ≤ 13) || n == 0x20 || n == 0x85 || n == 0xA0 || n == 0x1680 ||
    (0x2000 ≤ n && n ≤ 0x200A) || n == 0x2028 || n == 0x2029 || n == 0x202F ||
    n == 0x205F || n == 0x3000

/-- The text from its first character that is not blank. -/
def trimStart (s : List Char) : List Char :=
  s.dropWhile isBlank

/-- The text up to its last character that is not blank. -/
def trimEnd (s : List Char) : List Char :=
  (s.reverse.dropWhile isBlank).reverse

/-- The text without blanks at either end. -/
def trim (s : List Char) : List Char :=
  trimEnd (trimStart s)

theorem length_trimStart_le (s : List Char) : (trimStart s).length ≤ s.length :=
  (List.dropWhile_sublist isBlank).length_le

theorem length_trimEnd_le (s : List Char) : (trimEnd s).length ≤ s.length := by
  have h := (List.dropWhile_sublist (l := s.reverse) isBlank).length_le
  simpa [trimEnd] using h

/-- Trimming never lengthens a text. -/
theorem length_trim_le (s : List Char) : (trim s).length ≤ s.length :=
  Nat.le_trans (length_trimEnd_le _) (length_trimStart_le s)

/-- `trim` on strings. -/
def trimmed (s : String) : String :=
  String.ofList (trim s.toList)

/-- `trimEnd` on strings. -/
def trimmedEnd (s : String) : String :=
  String.ofList (trimEnd s.toList)

/-- A text of blanks only. -/
def isAllBlank (s : String) : Bool :=
  s.toList.all isBlank

end Ambient.Text
