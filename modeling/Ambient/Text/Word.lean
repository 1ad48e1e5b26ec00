import Ambient.Text.WordRanges
/-!
# Word characters and identifiers

## Main definitions

* `Text.isWord`: letters, marks, digits, connectors and join controls, of all scripts.
* `Text.isNameStart`, `Text.isNameChar`: the two classes of an identifier. Only ASCII letters, `_`
  and `$` may start one; word characters and `$` may follow.
* `Text.isIdentifier`: the text is an identifier.

## Main statements

* `Text.isWord_of_isAlphanum`: the letters and digits of the core library are word characters.
* `Text.isNameChar_of_isNameStart`: what may start an identifier may also stand inside one.
-/

namespace Ambient.Text

/-- A word character: alphabetic, mark, decimal digit, connector or join control. -/
def isWord (c : Char) : Bool :=
  if c.toNat < 128 then c.isAlphanum || c == '_'
  else wordRanges.any fun range => range.1 ≤ c.toNat && c.toNat ≤ range.2

/-- A word character or a dollar sign. -/
def isNameChar (c : Char) : Bool :=
  isWord c || c == '$'

/-- An ASCII letter, an underscore or a dollar sign. -/
def isNameStart (c : Char) : Bool :=
  c.isAlpha || c == '_' || c == '$'

/-- An identifier: a name start followed by name characters. -/
def isIdentifier : List Char → Bool
  | [] => false
  | c :: rest => isNameStart c && rest.all isNameChar

theorem toNat_lt_of_isAlphanum {c : Char} (h : c.isAlphanum = true) : c.toNat < 128 := by
  delta Char.isAlphanum Char.isAlpha Char.isUpper Char.isLower Char.isDigit at h
  simp only [Bool.or_eq_true, Bool.and_eq_true, decide_eq_true_eq] at h
  have toNat : c.toNat = c.val.toNat := rfl
  rcases h with (⟨_, h⟩ | ⟨_, h⟩) | ⟨_, h⟩ <;>
    · have bound := UInt32.le_iff_toNat_le.1 h
      rw [toNat]
      exact Nat.lt_of_le_of_lt bound (by decide)

/-- The letters and digits of the core library are word characters. -/
theorem isWord_of_isAlphanum {c : Char} (h : c.isAlphanum = true) : isWord c = true := by
  simp [isWord, toNat_lt_of_isAlphanum h, h]

/-- What may start an identifier may also stand inside one. -/
theorem isNameChar_of_isNameStart {c : Char} (h : isNameStart c = true) :
    isNameChar c = true := by
  simp only [isNameStart, Bool.or_eq_true, beq_iff_eq] at h
  rcases h with (h | rfl) | rfl
  · simp [isNameChar, isWord_of_isAlphanum (c := c) (by simp [Char.isAlphanum, h])]
  · rfl
  · rfl

end Ambient.Text
