import Ambient.Finding
import Ambient.Doclet.Basic
import Ambient.TypeExpr.Signature
/-!
# Typedefs of function types

A typedef of a function type reaches this library as a record whose type is just `function`; its
arguments stand in its comment only. Here the signature is recovered from the comment, and the
record is expanded to one with parameters and a return value, like a documented function.

## Main definitions

* `FunctionTypedef.isFunctionShaped`: a typedef of a single type that is a function type.
* `FunctionTypedef.isMarked`: whether its comment says that its signature is known.
* `FunctionTypedef.annotation?`: the text in braces after `@typedef`, on one line.
* `FunctionTypedef.readSignature?`: parameters and return value of a function type.
* `FunctionTypedef.expand`: the expanded record, or the record as it was with a finding.
-/

namespace Ambient.FunctionTypedef

/-- The mark of a known signature in a comment. -/
def mark : String := "@callback"

/-- A signature in the form of parameters and return values. -/
structure Recovered where
  params : List Param
  returns : List Param

/-! ## Recognising function types -/

/-- Whether the record is a typedef of a single type that is a function type. -/
def isFunctionShaped (d : Doclet) : Bool :=
  d.kind = .typedef &&
    match d.alternatives with
    | [only] =>
      let bare := Text.trimmed only
      bare == "function" || (Text.afterStart? "function(" bare).isSome
    | _ => false

/-- Whether the comment has the mark of a known signature. -/
def isMarked (d : Doclet) : Bool :=
  Text.contains mark d.comment

/-! ## Reading the annotation -/

/-- A blank or a tab. -/
def isMarginBlank (c : Char) : Bool :=
  c == ' ' || c == '\t'

/-- The text after the margin of a comment line: blanks, perhaps one star, and blanks. -/
def dropMargin (text : List Char) : List Char :=
  match text.dropWhile isMarginBlank with
  | '*' :: rest => rest.dropWhile isMarginBlank
  | rest => rest

theorem length_dropMargin_le (text : List Char) : (dropMargin text).length ≤ text.length := by
  have outer : (text.dropWhile isMarginBlank).length ≤ text.length :=
    (List.dropWhile_sublist _).length_le
  unfold dropMargin
  split
  · rename_i rest found
    have inner : (rest.dropWhile isMarginBlank).length ≤ rest.length :=
      (List.dropWhile_sublist _).length_le
    rw [found] at outer
    simp only [List.length_cons] at outer
    omega
  · exact outer

/-- The text with each line end and the margin after it replaced by a blank. -/
def flatten : List Char → List Char
  | [] => []
  | '\n' :: rest => ' ' :: flatten (dropMargin rest)
  | '\r' :: '\n' :: rest => ' ' :: flatten (dropMargin rest)
  | c :: rest => c :: flatten rest
termination_by text => text.length
decreasing_by
  · have shorter := length_dropMargin_le rest
    simp only [List.length_cons]; omega
  · have shorter := length_dropMargin_le rest
    simp only [List.length_cons]; omega
  · simp

/-- The text before the brace that closes `depth + 1` open ones. -/
def untilBrace? (depth : Nat) : List Char → Option (List Char)
  | [] => none
  | c :: rest =>
    if c = '\x7b' then (untilBrace? (depth + 1) rest).map (c :: ·)
    else if c = '\x7d' then
      match depth with
      | 0 => some []
      | depth + 1 => (untilBrace? depth rest).map (c :: ·)
    else (untilBrace? depth rest).map (c :: ·)

/-- The text in braces after the first `@typedef` of a comment. -/
def annotation? (comment : String) : Option (List Char) := do
  let after ← Text.afterFirst? "@typedef".toList (flatten comment.toList)
  match Text.trimStart after with
  | '\x7b' :: rest => (untilBrace? 0 rest).map Text.trim
  | _ => none

/-! ## Reading the signature -/

/-- The return type in the text after a closing parenthesis. It may not span lines. -/
def returnText? (text : List Char) : Option (List Char) :=
  match Text.trimStart text with
  | ':' :: rest =>
    let type := Text.trimStart rest
    if type.isEmpty || type.contains '\n' then none else some type
  | _ => none

/-- The text up to the last closing parenthesis that a return type follows, and that type. The text
before the parenthesis may not span lines. -/
def cutReturn? : List Char → Option (List Char × List Char)
  | [] => none
  | c :: rest =>
    if c = '\n' then none
    else
      match cutReturn? rest with
      | some (args, type) => some (c :: args, type)
      | none => if c = ')' then (returnText? rest).map fun type => ([], type) else none

/-- The text before the closing parenthesis that ends a text, if it does not span lines. -/
def cutClosing? (text : List Char) : Option (List Char) :=
  let args := text.dropLast
  if text.getLast? = some ')' ∧ !args.contains '\n' then some args else none

/-- The arguments and the return type of a function type. If the arguments before a return type are
not balanced, the text is read as one without a return type. -/
def cutSignature? (source : List Char) : Option (List Char × Option (List Char)) := do
  let rest ← Text.dropStart? "function".toList source
  match Text.trimStart rest with
  | '(' :: rest =>
    let withReturn := (cutReturn? rest).filter fun (args, _) => TypeExpr.isBalanced args
    match withReturn with
    | some (args, type) => some (args, some type)
    | none => ((cutClosing? rest).filter TypeExpr.isBalanced).map fun args => (args, none)
  | _ => none

/-- The alternatives of an argument type, each without its mark of optionality. -/
def alternatives (type : List Char) : List String :=
  (TypeExpr.splitOutside '|' type).map fun member =>
    String.ofList (TypeExpr.withoutOptionalMark member).1

/-- The parameters for some arguments, named by position from `index` on. -/
def paramsFrom (index : Nat) : List (TypeExpr.Argument (List Char)) → List Param
  | [] => []
  | argument :: rest =>
    { type := some ⟨alternatives argument.type⟩
      name := some ("arg" ++ toString index)
      optionalMark := if argument.isOptional then some true else none
      restMark := if argument.isRest then some true else none } ::
    paramsFrom (index + 1) rest

/-- The parameters and the return value of a function type. -/
def readSignature? (source : String) : Option Recovered := do
  let (args, type) ← cutSignature? (Text.trim source.toList)
  pure {
    params := paramsFrom 0 (TypeExpr.readArguments args)
    returns := match type with
      | some type =>
        [Param.typed ((TypeExpr.splitOutside '|' (Text.trim type)).map String.ofList)]
      | none => [] }

/-! ## Expansion -/

/-- The comment with the mark of a known signature: before its end, or as its last word. -/
def withMark (comment : String) : String :=
  match Text.aroundLast? ['*', '/'] comment.toList with
  | some (before, ending) => String.ofList before ++ mark ++ " " ++ String.ofList ending
  | none => if comment.isEmpty then mark else comment ++ " " ++ mark

/-- The text that a signature is recovered from: the annotation in the comment, or else the type. -/
def source (d : Doclet) : String :=
  match annotation? d.comment with
  | some text => String.ofList text
  | none => Text.trimmed (d.alternatives.headD "")

/-- The finding that a signature could not be read. -/
def unmatched (d : Doclet) : Finding :=
  .about .info .callbackUnmatched d.longname
    ("unrecognised callback signature " ++ "\x60" ++ source d ++ "\x60")

/-- Expand a typedef of a function type to a record with parameters and return value. Other records
and those that are marked already stay as they are, and so do those whose type is the bare word
`function`. If no signature can be read, the record stays as it is and a finding is given. -/
def expand (d : Doclet) : Doclet × List Finding :=
  if !isFunctionShaped d || isMarked d then (d, [])
  else if source d == "function" then (d, [])
  else
    match readSignature? (source d) with
    | some signature =>
      ({ d with
          params := signature.params
          returns := signature.returns
          comment := withMark d.comment }, [])
    | none => (d, [unmatched d])

end Ambient.FunctionTypedef
