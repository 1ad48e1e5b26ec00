/-!
# Searching and cutting texts

Texts are lists of characters. Each operation is a recursion on the text.

## Main definitions

* `Text.afterFirst?`: what follows the first occurrence of a pattern.
* `Text.aroundLast?`: the text before the last occurrence of a pattern, and the text from it on.
* `Text.replaceAll`: every occurrence of a pattern replaced, from left to right.
* `Text.splitOn`: the pieces between the characters of a class.
* `Text.lines`: the lines of a text, without their ends.
* `Text.joinWith`: strings with a separator between them.
-/

namespace Ambient.Text

/-- The text after a pattern that it starts with. -/
def dropStart? : List Char → List Char → Option (List Char)
  | [], text => some text
  | _ :: _, [] => none
  | p :: pattern, c :: text => if p = c then dropStart? pattern text else none

/-- The text before a pattern that it ends with. -/
def dropFinish? (pattern text : List Char) : Option (List Char) :=
  (dropStart? pattern.reverse text.reverse).map List.reverse

/-- The text after the first occurrence of a pattern. -/
def afterFirst? (pattern : List Char) : List Char → Option (List Char)
  | [] => dropStart? pattern []
  | c :: text =>
    match dropStart? pattern (c :: text) with
    | some rest => some rest
    | none => afterFirst? pattern text

/-- Whether a pattern occurs in a text. -/
def occursIn (pattern text : List Char) : Bool :=
  (afterFirst? pattern text).isSome

/-- The text before the last occurrence of a pattern, and the text from that occurrence on. -/
def aroundLast? (pattern : List Char) : List Char → Option (List Char × List Char)
  | [] => if pattern.isEmpty then some ([], []) else none
  | c :: text =>
    match aroundLast? pattern text with
    | some (before, found) => some (c :: before, found)
    | none => if (dropStart? pattern (c :: text)).isSome then some ([], c :: text) else none

/-- The text with every occurrence of a pattern replaced, found from left to right. -/
def replaceAll (pattern replacement : List Char) : List Char → List Char
  | [] => []
  | c :: text =>
    if (dropStart? pattern (c :: text)).isSome then
      replacement ++ replaceAll pattern replacement (text.drop (pattern.length - 1))
    else c :: replaceAll pattern replacement text
termination_by text => text.length
decreasing_by
  all_goals simp only [List.length_drop, List.length_cons]
  all_goals omega

/-- The pieces of a text between the characters of a class; there is always at least one. -/
def splitOn (isCut : Char → Bool) : List Char → List (List Char)
  | [] => [[]]
  | c :: text =>
    if isCut c then [] :: splitOn isCut text
    else match splitOn isCut text with
      | [] => [[c]]
      | piece :: pieces => (c :: piece) :: pieces

theorem splitOn_ne_nil (isCut : Char → Bool) (text : List Char) : splitOn isCut text ≠ [] := by
  cases text with
  | nil => simp [splitOn]
  | cons c text =>
    simp only [splitOn]
    split
    · simp
    · split <;> simp

/-- The lines of a text. A line ends at a line feed, a carriage return right before that line feed
belongs to the end too, and a final line end opens no further line. -/
def lines : List Char → List (List Char)
  | [] => []
  | '\n' :: text => [] :: lines text
  | '\r' :: '\n' :: text => [] :: lines text
  | c :: text =>
    match lines text with
    | [] => [[c]]
    | line :: rest => (c :: line) :: rest

/-- The strings with a separator between each two. -/
def joinWith (separator : String) : List String → String
  | [] => ""
  | [s] => s
  | s :: t :: rest => s ++ separator ++ joinWith separator (t :: rest)

/-- `lines` on strings. -/
def linesOf (s : String) : List String :=
  (lines s.toList).map String.ofList

/-- `occursIn` on strings. -/
def contains (pattern s : String) : Bool :=
  occursIn pattern.toList s.toList

/-- `replaceAll` on strings. -/
def replaced (pattern replacement s : String) : String :=
  String.ofList (replaceAll pattern.toList replacement.toList s.toList)

/-- The text after a pattern that a string starts with. -/
def afterStart? (pattern s : String) : Option String :=
  (dropStart? pattern.toList s.toList).map String.ofList

end Ambient.Text
