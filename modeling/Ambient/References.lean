import Ambient.Text.Blank
import Ambient.Text.Word
import Ambient.Text.Search
/-!
# Sets of referenced names

The type names that declarations mention, collected in the order in which they are first met. Only
names that could stand for a documented declaration are collected: built-in type names and texts
that are no reference are left out.

## Main definitions

* `References`: a list of names without repetition.
* `References.isReference`: the shape of a reference, identifiers joined by `.`, `/`, `~` or `#`
  after an optional `module:`.
* `References.accepts`: a reference that is no built-in type.
* `References.add`: collect a name if it is accepted.
* `References.insertFree`: collect the names of another set, placeholders left out.
-/

namespace Ambient

/-- Names in the order in which they came in, without repetition. -/
structure References where
  /-- The names, oldest first. -/
  names : List String
  /-- No name occurs twice. -/
  nodup : names.Nodup
  deriving DecidableEq

namespace References

@[ext] theorem ext {r s : References} (h : r.names = s.names) : r = s := by
  cases r; cases s; cases h; rfl

/-- The set without names. -/
def empty : References := ⟨[], List.nodup_nil⟩

instance : EmptyCollection References := ⟨empty⟩

instance : Inhabited References := ⟨empty⟩

/-- Type names that never stand for a documented declaration. -/
def builtins : List String := [
  "any", "unknown", "never", "void", "null", "undefined", "string", "number", "boolean",
  "bigint", "symbol", "object", "this", "true", "false", "String", "Number", "Boolean",
  "Symbol", "BigInt", "Object", "Function", "Array", "Date", "RegExp", "Error", "TypeError",
  "RangeError", "Promise", "PromiseLike", "Map", "Set", "WeakMap", "WeakSet", "Iterable",
  "Iterator", "ArrayLike", "ArrayBuffer", "DataView", "Int8Array", "Uint8Array",
  "Uint8ClampedArray", "Int16Array", "Uint16Array", "Int32Array", "Uint32Array",
  "Float32Array", "Float64Array", "JSON", "Math", "Event", "Element", "HTMLElement",
  "HTMLCanvasElement", "HTMLImageElement", "HTMLVideoElement", "Node", "Document", "Window",
  "CanvasRenderingContext2D", "WebGLRenderingContext", "Image", "XMLHttpRequest"]

/-- The characters that join the segments of a reference. -/
def isJoint (c : Char) : Bool :=
  c == '.' || c == '/' || c == '~' || c == '#'

/-- One segment of a reference: a name start, then word characters, dollar signs and dashes. -/
def isSegment : List Char → Bool
  | [] => false
  | c :: rest => Text.isNameStart c && rest.all fun d => Text.isNameChar d || d == '-'

/-- Segments joined by `.`, `/`, `~` or `#`, after an optional `module:`. -/
def isReference (name : String) : Bool :=
  let path := (Text.dropStart? "module:".toList name.toList).getD name.toList
  (Text.splitOn isJoint path).all isSegment

/-- A reference that is no built-in type. -/
def accepts (name : String) : Bool :=
  !builtins.contains name && isReference name

/-- Put a name into the set, whatever it looks like. -/
def insert (r : References) (name : String) : References :=
  if h : name ∈ r.names then r
  else
    { names := r.names ++ [name]
      nodup := by
        rw [List.nodup_append]
        refine ⟨r.nodup, by simp, ?_⟩
        intro a ha b hb e
        simp only [List.mem_singleton] at hb
        exact h (hb ▸ e ▸ ha) }

/-- Collect a name without its outer blanks, if it is accepted. -/
def add (r : References) (name : String) : References :=
  let bare := Text.trimmed name
  if accepts bare then r.insert bare else r

/-- Whether `add` collects a name that was not there yet. -/
def addsNew (r : References) (name : String) : Bool :=
  let bare := Text.trimmed name
  accepts bare && !r.names.contains bare

/-- Whether the name is in the set. -/
def contains (r : References) (name : String) : Bool :=
  r.names.contains name

/-- Take a name out of the set. -/
def remove (r : References) (name : String) : References where
  names := r.names.filter fun other => other != name
  nodup := r.nodup.sublist List.filter_sublist

/-- The number of names. -/
def size (r : References) : Nat := r.names.length

/-- Whether no name is in the set. -/
def isEmpty (r : References) : Bool := r.names.isEmpty

/-- Put the names of a list into the set, one by one. -/
def insertAll (r : References) (names : List String) : References :=
  names.foldl insert r

/-- Collect the names of a list, one by one. -/
def addAll (r : References) (names : List String) : References :=
  names.foldl add r

/-- Put the names of an inner set into the set, except those that are placeholders there. -/
def insertFree (r inner : References) (placeholders : List String) : References :=
  r.insertAll (inner.names.filter fun name => !placeholders.contains name)

@[simp] theorem mem_insert {r : References} {name other : String} :
    other ∈ (r.insert name).names ↔ other ∈ r.names ∨ other = name := by
  unfold insert
  split <;> simp_all

/-- Inserting only appends. -/
theorem names_isPrefixOf_insert (r : References) (name : String) :
    r.names <+: (r.insert name).names := by
  unfold insert
  split
  · exact List.prefix_refl _
  · exact List.prefix_append _ _

end References

end Ambient
