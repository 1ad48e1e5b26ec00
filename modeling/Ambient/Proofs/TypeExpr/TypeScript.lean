import Ambient.Proofs.TypeExpr.Names
import Ambient.TypeExpr.Signature
import Ambient.Proofs.Text
import Mathlib.Data.List.Chain
/-!
# The grammar of printed types

The TypeScript types that are printed, as a grammar of texts. It knows nothing of the expressions that
are translated, nor of the patterns that take them apart.

## Main definitions

* `TypeExpr.Parameter`: an argument of a printed function type, declared by its position.
* `TypeExpr.IsTypeScript`: the grammar.
* `TypeExpr.Spaced`: an outline of all texts of the grammar, to tell others from them.

## Main statements

* `TypeExpr.exists_parameters`: the arguments of a function type are printed as parameters.
* `TypeExpr.IsTypeScript.spaced`: blanks follow commas, and names stand in front of angle brackets.
-/

namespace Ambient.TypeExpr

/-! ## The grammar -/

/-- An argument of a printed function type. -/
inductive Parameter
  | required (type : String)
  | optional (type : String)
  | rest (type : String)
  deriving DecidableEq, Repr

namespace Parameter

/-- The type that is written behind the colon, without the brackets of a rest argument. -/
def type : Parameter → String
  | .required type | .optional type | .rest type => type

/-- The declaration of the argument at a position. -/
def declared (index : Nat) : Parameter → String
  | .required type => "arg" ++ toString index ++ ": " ++ type
  | .optional type => "arg" ++ toString index ++ "?: " ++ type
  | .rest type => "...arg" ++ toString index ++ ": " ++ type ++ "[]"

/-- The declarations of the arguments from a position on. -/
def declaredFrom (index : Nat) : List Parameter → List String
  | [] => []
  | param :: params => param.declared index :: declaredFrom (index + 1) params

end Parameter

/-- The texts of TypeScript types. -/
inductive IsTypeScript : String → Prop
  | name {s : String} (path : IsPath s.toList) : IsTypeScript s
  | array {s : String} (element : IsTypeScript s) : IsTypeScript (s ++ "[]")
  | generic {base : String} {args : List String} (path : IsPath base.toList) (filled : args ≠ [])
      (each : ∀ arg ∈ args, IsTypeScript arg) :
      IsTypeScript (base ++ "<" ++ Text.joinWith ", " args ++ ">")
  | function {params : List Parameter} {returns : String}
      (each : ∀ param ∈ params, IsTypeScript param.type) (result : IsTypeScript returns) :
      IsTypeScript ("(" ++ Text.joinWith ", " (Parameter.declaredFrom 0 params) ++ ") => " ++ returns)
  | union {s t : String} (left : IsTypeScript s) (right : IsTypeScript t) :
      IsTypeScript (s ++ "|" ++ t)
  | group {s : String} (inner : IsTypeScript s) : IsTypeScript ("(" ++ s ++ ")")
  | dictionary {key value : String} (index : IsTypeScript key) (entries : IsTypeScript value) :
      IsTypeScript ("\x7b [key: " ++ key ++ "]: " ++ value ++ "; \x7d")
  | record {fields : List (String × String)} (filled : fields ≠ [])
      (keys : ∀ field ∈ fields, IsAsciiIdentifier field.1.toList)
      (each : ∀ field ∈ fields, IsTypeScript field.2) :
      IsTypeScript ("\x7b " ++ Text.joinWith " " (fields.map fun field =>
        field.1 ++ ": " ++ field.2 ++ ";") ++ " \x7d")
  | empty : IsTypeScript "\x7b\x7d"

/-- Some types with bars between them. -/
theorem IsTypeScript.joinWith {members : List String} (filled : members ≠ [])
    (each : ∀ member ∈ members, IsTypeScript member) :
    IsTypeScript (Text.joinWith "|" members) := by
  induction members with
  | nil => exact absurd rfl filled
  | cons member rest ih =>
    rw [List.forall_mem_cons] at each
    by_cases empty : rest = []
    · rw [empty]
      exact each.1
    · rw [Text.joinWith_cons "|" member empty]
      exact .union each.1 (ih empty each.2)

/-- The arguments of a function type are printed as parameters of their types. -/
theorem exists_parameters (index : Nat) (afterOptional : Bool)
    (arguments : List (Argument String)) : ∃ params : List Parameter,
      printArguments index afterOptional arguments = Parameter.declaredFrom index params ∧
      params.map Parameter.type = arguments.map Argument.type := by
  induction arguments generalizing index afterOptional with
  | nil => exact ⟨[], rfl, rfl⟩
  | cons argument rest ih =>
    rw [printArguments]
    split
    · obtain ⟨params, printed, types⟩ := ih (index + 1) afterOptional
      have dots : "..." ++ ("arg" ++ toString index) = "...arg" ++ toString index := by
        rw [← String.append_assoc]
        rfl
      refine ⟨.rest argument.type :: params, ?_, by rw [List.map_cons, types]; rfl⟩
      rw [printed, Parameter.declaredFrom, Parameter.declared, dots]
    · obtain ⟨params, printed, types⟩ := ih (index + 1) (afterOptional || argument.isOptional)
      cases marked : afterOptional || argument.isOptional with
      | false =>
        rw [marked] at printed
        refine ⟨.required argument.type :: params, ?_, by rw [List.map_cons, types]; rfl⟩
        simp only [printed, Parameter.declaredFrom, Parameter.declared, Bool.false_eq_true, if_false,
          String.append_empty]
      | true =>
        rw [marked] at printed
        have mark : "arg" ++ toString index ++ "?" ++ ": " = "arg" ++ toString index ++ "?: " :=
          String.append_assoc
        refine ⟨.optional argument.type :: params, ?_, by rw [List.map_cons, types]; rfl⟩
        simp only [printed, Parameter.declaredFrom, Parameter.declared, if_true, mark]

/-- A function type is printed as one if its types are types. -/
theorem IsTypeScript.signature {signature : Signature String} {defaultReturn : String}
    (arguments : ∀ argument ∈ signature.arguments, IsTypeScript argument.type)
    (returns : IsTypeScript (signature.returns.getD defaultReturn)) :
    IsTypeScript (signature.print defaultReturn) := by
  obtain ⟨params, printed, types⟩ := exists_parameters 0 false signature.arguments
  unfold Signature.print
  rw [printed]
  refine .function (fun param mem => ?_) returns
  have inTypes : param.type ∈ signature.arguments.map Argument.type := by
    rw [← types]
    exact List.mem_map_of_mem mem
  obtain ⟨argument, mem', same⟩ := List.mem_map.1 inTypes
  rw [← same]
  exact arguments argument mem'

/-! ## An outline -/

/-- Which characters may follow each other in a type: a blank comes behind a comma, and an angle
bracket comes behind a name. -/
def Follows (c d : Char) : Prop :=
  (c = ',' → d = ' ') ∧ (d = '<' → isPathChar c = true)

instance (c d : Char) : Decidable (Follows c d) :=
  inferInstanceAs (Decidable (_ ∧ _))

/-- A text in which characters follow each other as in a type, in whatever context it stands. -/
structure Spaced (s : List Char) : Prop where
  chain : s.IsChain Follows
  first : s.head? ≠ some '<'
  last : s.getLast? ≠ some ','

instance (s : List Char) : Decidable (Spaced s) :=
  decidable_of_iff (s.IsChain Follows ∧ s.head? ≠ some '<' ∧ s.getLast? ≠ some ',')
    ⟨fun h => ⟨h.1, h.2.1, h.2.2⟩, fun h => ⟨h.chain, h.first, h.last⟩⟩

namespace Spaced

variable {s t : List Char}

theorem append (h : Spaced s) (h' : Spaced t) : Spaced (s ++ t) where
  chain := by
    refine h.chain.append h'.chain fun c last d first => ⟨?_, ?_⟩
    · rintro rfl
      exact absurd last h.last
    · rintro rfl
      exact absurd first h'.first
  first := by
    cases s with
    | nil => exact h'.first
    | cons c s => exact h.first
  last := by
    rw [List.getLast?_append]
    cases last : t.getLast? with
    | none => exact h.last
    | some c => exact fun comma => h'.last (last.trans comma)

theorem concat {a b : String} (h : Spaced a.toList) (h' : Spaced b.toList) :
    Spaced (a ++ b).toList := by
  rw [String.toList_append]
  exact h.append h'

theorem joinWith (separator : String) (h : Spaced separator.toList) {texts : List String}
    (each : ∀ text ∈ texts, Spaced text.toList) : Spaced (Text.joinWith separator texts).toList := by
  induction texts with
  | nil => exact ⟨List.isChain_nil, (fun first => nomatch first), fun last => nomatch last⟩
  | cons text rest ih =>
    rw [List.forall_mem_cons] at each
    by_cases empty : rest = []
    · rw [empty]
      exact each.1
    · rw [Text.joinWith_cons separator text empty]
      exact (each.1.concat h).concat (ih each.2)

/-- A text of characters of paths. -/
theorem of_isPathChar (chars : ∀ c ∈ s, isPathChar c = true) : Spaced s where
  chain := by
    induction s with
    | nil => exact List.isChain_nil
    | cons c s ih =>
      rw [List.forall_mem_cons] at chars
      cases s with
      | nil => exact List.isChain_singleton c
      | cons d s =>
        have path := chars.2 d List.mem_cons_self
        refine List.isChain_cons_cons.2 ⟨⟨fun comma => ?_, fun _ => chars.1⟩, ih chars.2⟩
        exact absurd comma (ne_of_isPathChar chars.1 rfl)
  first := fun first => absurd (chars _ (List.mem_of_head? first)) (by decide)
  last := fun last => absurd (chars _ (List.mem_of_getLast? last)) (by decide)

/-- A text behind an angle bracket behind a name. -/
theorem angle {base : List Char} (path : IsPath base) (h : Spaced s) :
    Spaced (base ++ '<' :: s) where
  chain := by
    have front := (of_isPathChar path.isPathChar_of_mem).chain
    have behind : ('<' :: s).IsChain Follows := by
      cases s with
      | nil => exact List.isChain_singleton '<'
      | cons d s =>
        refine List.isChain_cons_cons.2 ⟨⟨fun comma => absurd comma (by decide), ?_⟩, h.chain⟩
        rintro rfl
        exact absurd rfl h.first
    refine front.append behind fun c last d first => ⟨?_, fun _ => ?_⟩
    · rintro rfl
      exact absurd (List.mem_of_getLast? last) (path.not_mem (by decide))
    · exact path.isPathChar_of_mem c (List.mem_of_getLast? last)
  first := by
    rw [path.tight.head?_append]
    intro first
    exact path.not_mem (by decide) (List.mem_of_head? first)
  last := by
    rw [List.getLast?_append_of_ne_nil base (List.cons_ne_nil '<' s), List.getLast?_cons]
    cases last : s.getLast? with
    | none => decide
    | some c => exact fun comma => h.last (last.trans comma)

end Spaced

theorem spaced_declaredFrom (index : Nat) {params : List Parameter}
    (each : ∀ param ∈ params, Spaced param.type.toList) :
    ∀ text ∈ Parameter.declaredFrom index params, Spaced text.toList := by
  induction params generalizing index with
  | nil => exact fun text mem => absurd mem List.not_mem_nil
  | cons param params ih =>
    rw [List.forall_mem_cons] at each
    have position : Spaced ("arg" ++ toString index).toList := .of_isPathChar fun c mem =>
      isPathChar_of_isWordChar (isWordChar_of_mem_position index c mem)
    have dots : "...arg" ++ toString index = "..." ++ ("arg" ++ toString index) := by
      rw [← String.append_assoc]
      rfl
    rw [Parameter.declaredFrom, List.forall_mem_cons]
    refine ⟨?_, ih (index + 1) each.2⟩
    cases param with
    | required type => exact (position.concat (b := ": ") (by decide)).concat each.1
    | optional type => exact (position.concat (b := "?: ") (by decide)).concat each.1
    | rest type =>
      rw [Parameter.declared, dots]
      have front := Spaced.concat (a := "...") (by decide) position
      exact ((front.concat (b := ": ") (by decide)).concat each.1).concat (by decide)

/-- **Blanks follow commas in a type, and names stand in front of angle brackets.** -/
theorem IsTypeScript.spaced {s : String} (h : IsTypeScript s) : Spaced s.toList := by
  induction h with
  | name path => exact .of_isPathChar path.isPathChar_of_mem
  | array element ih => exact ih.concat (b := "[]") (by decide)
  | @generic base args path filled each ih =>
    have inside := Spaced.joinWith ", " (by decide) ih
    have whole := (Spaced.angle path inside).append (t := ">".toList) (by decide)
    simpa using whole
  | @function params returns each result ihEach ih =>
    have inside := Spaced.joinWith ", " (by decide) (spaced_declaredFrom 0 ihEach)
    have front := Spaced.concat (a := "(") (by decide) inside
    exact (front.concat (b := ") => ") (by decide)).concat ih
  | union left right ihLeft ihRight =>
    exact (ihLeft.concat (b := "|") (by decide)).concat ihRight
  | group inner ih =>
    exact (Spaced.concat (a := "(") (by decide) ih).concat (by decide)
  | dictionary index entries ihKey ihValue =>
    have front := Spaced.concat (a := "\x7b [key: ") (by decide) ihKey
    exact ((front.concat (b := "]: ") (by decide)).concat ihValue).concat
      (by decide)
  | @record fields filled keys each ih =>
    have entries : ∀ text ∈ fields.map fun field => field.1 ++ ": " ++ field.2 ++ ";",
        Spaced text.toList := by
      intro text mem
      obtain ⟨field, inside, rfl⟩ := List.mem_map.1 mem
      have key : Spaced field.1.toList := .of_isPathChar fun c mem =>
        isPathChar_of_isWordChar ((keys field inside).isWordChar_of_mem c mem)
      exact ((key.concat (b := ": ") (by decide)).concat (ih field inside)).concat
        (by decide)
    have inside := Spaced.joinWith " " (by decide) entries
    exact (Spaced.concat (a := "\x7b ") (by decide) inside).concat (by decide)
  | empty => decide

end Ambient.TypeExpr
