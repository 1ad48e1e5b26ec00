import Ambient.Text.Blank
/-!
# Brackets in type expressions

Type expressions nest with `<>`, `()`, `[]` and `{}`. Closing brackets are not matched by kind; only
the depth counts. The `>` of an arrow `=>` is no bracket.

## Main definitions

* `TypeExpr.Role`: whether a character opens a bracket, closes one or does neither.
* `TypeExpr.untilClose?`: the text up to the bracket that closes an open one.
* `TypeExpr.isBalanced`: every bracket is closed.
* `TypeExpr.cutOutside`, `TypeExpr.splitOutside`: the pieces between separators outside of all
  brackets, as they stand and trimmed without empty ones.

## Main statements

* `TypeExpr.length_untilClose?`: the two parts and the closing bracket make up the text.
* `TypeExpr.length_flatten_splitOutside_le`: the pieces together are no longer than the text.
-/

namespace Ambient.TypeExpr

/-- What a character does to the bracket depth. -/
inductive Role
  | opens
  | closes
  | plain
  deriving DecidableEq, Repr

/-- An opening bracket of any kind. -/
def isOpening (c : Char) : Bool :=
  c == '<' || c == '(' || c == '[' || c == '\x7b'

/-- A closing bracket of any kind. -/
def isClosing (c : Char) : Bool :=
  c == '>' || c == ')' || c == ']' || c == '\x7d'

/-- The role of a character after the one before it: the `>` of an arrow is plain. -/
def role (previous c : Char) : Role :=
  if isOpening c then .opens
  else if c = '>' ∧ previous = '=' then .plain
  else if isClosing c then .closes
  else .plain

/-- The text before the bracket that closes `depth + 1` open ones, and the text after it. -/
def untilClose? (depth : Nat) (previous : Char) : List Char → Option (List Char × List Char)
  | [] => none
  | c :: text =>
    let extend := fun (inside, after) => (c :: inside, after)
    match role previous c, depth with
    | .opens, depth => (untilClose? (depth + 1) c text).map extend
    | .closes, 0 => some ([], text)
    | .closes, depth + 1 => (untilClose? depth c text).map extend
    | .plain, depth => (untilClose? depth c text).map extend

/-- Whether the brackets of a text that starts inside `depth` open ones are all closed. -/
def isBalancedFrom (depth : Nat) (previous : Char) : List Char → Bool
  | [] => depth == 0
  | c :: text =>
    match role previous c, depth with
    | .opens, depth => isBalancedFrom (depth + 1) c text
    | .closes, 0 => false
    | .closes, depth + 1 => isBalancedFrom depth c text
    | .plain, depth => isBalancedFrom depth c text

/-- Whether every bracket of a text is closed, and none closes that was not open. -/
def isBalanced (text : List Char) : Bool :=
  isBalancedFrom 0 '\x00' text

/-- The depth after a character; it may fall below zero. -/
def depthAfter (depth : Int) : Role → Int
  | .opens => depth + 1
  | .closes => depth - 1
  | .plain => depth

/-- Whether a text is cut at a character: it is the separator, stands outside of all brackets and is
no bracket itself. -/
def cutsAt (separator : Char) (depth : Int) (c : Char) : Bool :=
  c == separator && depth == 0 && !isOpening c && !isClosing c

/-- The first piece of a text and the further ones, cut outside of all brackets. -/
def cutOutside (separator : Char) (depth : Int) (previous : Char) :
    List Char → List Char × List (List Char)
  | [] => ([], [])
  | c :: text =>
    let (piece, pieces) := cutOutside separator (depthAfter depth (role previous c)) c text
    if cutsAt separator depth c then ([], piece :: pieces) else (c :: piece, pieces)

/-- The pieces of a text between separators outside of all brackets, trimmed, without empty ones. -/
def splitOutside (separator : Char) (text : List Char) : List (List Char) :=
  let (piece, pieces) := cutOutside separator 0 '\x00' text
  ((piece :: pieces).map Text.trim).filter fun piece => !piece.isEmpty

/-! ## Lengths -/

/-- The two parts and the closing bracket make up the text. -/
theorem length_untilClose? {depth : Nat} {previous : Char} {text inside after : List Char}
    (h : untilClose? depth previous text = some (inside, after)) :
    inside.length + after.length + 1 = text.length := by
  induction text generalizing depth previous inside after with
  | nil => simp [untilClose?] at h
  | cons c text ih =>
    unfold untilClose? at h
    split at h
    case h_2 =>
      simp only [Option.some.injEq, Prod.mk.injEq] at h
      obtain ⟨rfl, rfl⟩ := h
      simp
    all_goals
      obtain ⟨⟨inner, rest⟩, found, same⟩ := Option.map_eq_some_iff.1 h
      simp only [Prod.mk.injEq] at same
      obtain ⟨rfl, rfl⟩ := same
      have shorter := ih found
      simp only [List.length_cons]
      omega

/-- The pieces and one character for each cut make up the text. -/
theorem length_cutOutside (separator : Char) (depth : Int) (previous : Char) (text : List Char) :
    (cutOutside separator depth previous text).1.length +
        (cutOutside separator depth previous text).2.flatten.length +
        (cutOutside separator depth previous text).2.length = text.length := by
  induction text generalizing depth previous with
  | nil => simp [cutOutside]
  | cons c text ih =>
    have rest := ih (depthAfter depth (role previous c)) c
    unfold cutOutside
    split
    rename_i piece pieces cut
    rw [cut] at rest
    simp only at rest
    split <;>
      simp only [List.flatten_cons, List.length_append, List.length_cons, List.length_nil] <;> omega

theorem length_flatten_filter_trim_le (pieces : List (List Char)) :
    ((pieces.map Text.trim).filter fun piece => !piece.isEmpty).flatten.length ≤
      pieces.flatten.length := by
  induction pieces with
  | nil => simp
  | cons piece pieces ih =>
    have shorter := Text.length_trim_le piece
    simp only [List.map_cons, List.filter_cons, List.flatten_cons, List.length_append]
    split
    · simp only [List.flatten_cons, List.length_append]; omega
    · omega

/-- The pieces together are no longer than the text. -/
theorem length_flatten_splitOutside_le (separator : Char) (text : List Char) :
    (splitOutside separator text).flatten.length ≤ text.length := by
  have whole := length_cutOutside separator 0 '\x00' text
  unfold splitOutside
  split
  rename_i piece pieces cut
  rw [cut] at whole
  refine Nat.le_trans (length_flatten_filter_trim_le _) ?_
  simp only [List.flatten_cons, List.length_append] at whole ⊢
  omega

theorem length_le_of_mem_flatten {pieces : List (List Char)} {piece : List Char}
    (h : piece ∈ pieces) : piece.length ≤ pieces.flatten.length :=
  (List.sublist_flatten_of_mem h).length_le

/-- No piece is longer than the text. -/
theorem length_le_of_mem_splitOutside {separator : Char} {text piece : List Char}
    (h : piece ∈ splitOutside separator text) : piece.length ≤ text.length :=
  Nat.le_trans (length_le_of_mem_flatten h) (length_flatten_splitOutside_le separator text)

/-- No piece is empty. -/
theorem length_pos_of_mem_splitOutside {separator : Char} {text piece : List Char}
    (h : piece ∈ splitOutside separator text) : 0 < piece.length := by
  unfold splitOutside at h
  split at h
  rw [List.mem_filter] at h
  cases piece with
  | nil => simp at h
  | cons c piece => simp

end Ambient.TypeExpr
