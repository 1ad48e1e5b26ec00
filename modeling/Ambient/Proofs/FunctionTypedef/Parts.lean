import Ambient.Proofs.FunctionTypedef.Readers
import Ambient.Proofs.TypeExpr.Alternatives
/-!
# Function types with unions as arguments

The arguments and the return type of these function types are unions of names and of generic
applications, with any marks. Both readers of function types find the same arguments in them.

## Main definitions

* `FunctionTypedef.IsArgument`: a union as an argument, which may take all further arguments.
* `FunctionTypedef.IsReturns`: what stands behind the parentheses.
* `FunctionTypedef.HasParts`, `FunctionTypedef.IsCall`: such a function type, with its parts.

## Main statements

* `FunctionTypedef.HasParts.translation_eq`: what it is translated to inside of a type expression.
* `FunctionTypedef.HasParts.readSignature?_eq`: what it is expanded to as the type of a typedef.
-/

namespace Ambient.FunctionTypedef

open TypeExpr

variable {c : Config} {s inside tail : List Char} {returns : Option (List Char)}

/-! ## Calls -/

/-- An argument: a union of alternatives, which may take all further arguments. -/
inductive IsArgument : List Char → Prop
  | plain {pieces : List (List Char)} {s : List Char} (union : IsUnion pieces s) : IsArgument s
  | rest {pieces : List (List Char)} {s : List Char} (union : IsUnion pieces s) :
      IsArgument (['.', '.', '.'] ++ s)

/-- What stands behind the parentheses: nothing, or a colon and a union of alternatives. -/
inductive IsReturns : Option (List Char) → List Char → Prop
  | absent : IsReturns none []
  | present {pieces : List (List Char)} {s : List Char} (before after : Nat)
      (union : IsUnion pieces s) :
      IsReturns (some s) (Text.pad before ++ ':' :: (Text.pad after ++ s))

/-- The parts of a function type. -/
structure HasParts (inside tail : List Char) (returns : Option (List Char)) : Prop where
  arguments : ∃ entries, (∀ entry ∈ entries, IsArgument entry) ∧ DocType.Listed entries inside
  returns : IsReturns returns tail

/-- A function type with arguments of that kind and perhaps a return type. -/
inductive IsCall : List Char → Prop
  | mk {inside tail : List Char} {returns : Option (List Char)}
      (parts : HasParts inside tail returns) :
      IsCall ("function".toList ++ '(' :: (inside ++ ')' :: tail))

namespace IsArgument

theorem tight (h : IsArgument s) : Text.Tight s := by
  cases h with
  | plain union => exact union.tight
  | rest union => exact Text.Tight.append ⟨⟨'.', rfl, rfl⟩, ⟨'.', rfl, rfl⟩⟩ union.tight

theorem nested (h : IsArgument s) : Nested (· ≠ ',') s := by
  cases h with
  | plain union => exact union.nested_comma
  | rest union =>
    have dot : ∀ {rest : List Char}, Nested (· ≠ ',') rest → Nested (· ≠ ',') ('.' :: rest) :=
      .plain rfl rfl (by decide)
    exact dot (dot (dot union.nested_comma))

/-- The type of an argument is a union again. -/
theorem read_type (h : IsArgument s) :
    ∃ pieces, IsUnion pieces (TypeExpr.Argument.read s).type := by
  cases h with
  | plain union =>
    have noDots : s.head? ≠ some '.' := by
      obtain ⟨c, first, -, noDot⟩ := union.head?
      rintro start
      cases first.symm.trans start
      exact noDot rfl
    simp only [TypeExpr.Argument.read, withoutRestMark_eq_self union.tight noDots]
    exact union.withoutOptionalMark_fst
  | rest union =>
    simp only [TypeExpr.Argument.read, withoutRestMark_dots union.tight]
    exact union.withoutOptionalMark_fst

end IsArgument

namespace IsReturns

theorem readReturns?_eq (h : IsReturns returns tail) : readReturns? tail = some returns := by
  cases h with
  | absent => rfl
  | present before after union => exact readReturns?_colon union.tight before after

end IsReturns

namespace HasParts

theorem nested (h : HasParts inside tail returns) : Nested (fun _ => True) inside := by
  obtain ⟨entries, arguments, listed⟩ := h.arguments
  exact listed.nested fun entry mem => (arguments entry mem).nested

/-- The types of the arguments are unions. -/
theorem exists_union (h : HasParts inside tail returns) :
    ∀ argument ∈ readArguments inside, ∃ pieces, IsUnion pieces argument.type := by
  obtain ⟨entries, arguments, listed⟩ := h.arguments
  have split := listed.splitOutside_eq (fun entry mem => (arguments entry mem).nested)
    fun entry mem => (arguments entry mem).tight
  intro argument mem
  rw [readArguments, split] at mem
  obtain ⟨entry, kept, rfl⟩ := List.mem_map.1 mem
  exact (arguments entry (List.mem_filter.1 kept).1).read_type

/-- How the text of a function type ends. -/
theorem getLast? (h : HasParts inside tail returns) :
    ∃ d, ("function".toList ++ '(' :: (inside ++ ')' :: tail)).getLast? = some d ∧
      Text.isBlank d = false ∧ d ≠ ']' := by
  cases h.returns with
  | absent => exact ⟨')', getLast?_wrapped _ _ _ _, rfl, by decide⟩
  | present before after union =>
    obtain ⟨d, last, solid, noBracket⟩ := union.getLast?
    exact ⟨d, (DocType.getLast?_returns inside before after union.tight).trans last, solid,
      noBracket⟩

theorem tight (h : HasParts inside tail returns) :
    Text.Tight ("function".toList ++ '(' :: (inside ++ ')' :: tail)) := by
  obtain ⟨d, last, solid, -⟩ := h.getLast?
  exact ⟨⟨'f', rfl, rfl⟩, ⟨d, last, solid⟩⟩

/-- What the expression is read as. -/
theorem read?_eq (h : HasParts inside tail returns) :
    Signature.read? ("function".toList ++ '(' :: (inside ++ ')' :: tail)) =
      some ⟨readArguments inside, returns⟩ := by
  rw [Signature.read?_function h.nested, h.returns.readReturns?_eq, Option.map_some]

/-- What the expression is translated to. -/
theorem translation_eq (h : HasParts inside tail returns)
    (names : ∀ key ∈ c.typeReplacements.keys, IsPath key.toList) :
    c.translation ("function".toList ++ '(' :: (inside ++ ')' :: tail)) =
      Signature.print ⟨(readArguments inside).map (TypeExpr.Argument.map c.translation),
        returns.map c.translation⟩ c.defaultReturnType := by
  obtain ⟨d, last, -, noBracket⟩ := h.getLast?
  refine DocType.translation_signature names h.nested h.returns.readReturns?_eq h.tight.trim_eq ?_
  rw [last]
  rintro same
  cases same
  exact noBracket rfl

/-- What the typedef is expanded to, if its annotation is cut at all. -/
theorem readSignature?_eq (h : HasParts inside tail returns) {signature : Recovered}
    (found : readSignature? (String.ofList ("function".toList ++ '(' :: (inside ++ ')' :: tail))) =
      some signature) :
    signature = ⟨paramsFrom 0 (readArguments inside), returnParams returns⟩ := by
  obtain ⟨signature', read, rfl⟩ := readSignature?_eq_some found
  rw [String.toList_ofList, h.tight.trim_eq, h.read?_eq] at read
  cases read
  rfl

end HasParts

/-! ## Typedefs of function types -/

namespace IsCall

theorem tight (call : IsCall s) : Text.Tight s := by
  obtain @⟨inside, tail, returns, parts⟩ := call
  exact parts.tight

/-- A typedef of such a type is one of a function type. -/
theorem isFunctionShaped_eq (call : IsCall s) {d : Doclet} (kind : d.kind = .typedef)
    (only : d.alternatives = [String.ofList s]) : isFunctionShaped d = true := by
  have bare := call.tight.trim_eq
  have called : (Text.afterStart? "function(" (String.ofList s)).isSome = true := by
    have text : (String.ofList s).toList = s := String.toList_ofList
    unfold Text.afterStart?
    rw [text]
    obtain @⟨inside, tail, returns, parts⟩ := call
    have start : "function".toList ++ '(' :: (inside ++ ')' :: tail) =
        "function(".toList ++ (inside ++ ')' :: tail) := rfl
    rw [start, Text.dropStart?_append]
    rfl
  unfold isFunctionShaped
  simp only [kind, only, Text.trimmed, String.toList_ofList, bare, called, Bool.or_true,
    decide_true, Bool.and_self]

/-- Without an annotation in its comment, the type of a typedef is read. -/
theorem source_eq (call : IsCall s) {d : Doclet} (only : d.alternatives = [String.ofList s])
    (unannotated : annotation? d.comment = none) : source d = String.ofList s := by
  unfold source
  rw [unannotated, only]
  show Text.trimmed (String.ofList s) = String.ofList s
  rw [Text.trimmed, String.toList_ofList, call.tight.trim_eq]

end IsCall

end Ambient.FunctionTypedef
