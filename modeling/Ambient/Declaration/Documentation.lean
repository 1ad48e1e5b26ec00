import Ambient.Declaration.Mentions
import Ambient.Doclet.Codec
import Ambient.Json.Printer
import Ambient.Rendering
/-!
# Documentation comments

## Main definitions

* `tagLines`: the comment lines for documented parameters and return values.
* `docLines`: the lines of a documentation comment.
* `docs`: the documentation comment of a declaration.
-/

namespace Ambient

/-- The comment lines for documented parameters and return values. -/
def tagLines (params returns : List Param) : List String :=
  ((plainParams params).filterMap fun p =>
      match p.name, p.description with
      | some name, some description =>
        some ("@param " ++ name ++ " " ++ Text.trimmed description)
      | _, _ => none) ++
    returns.filterMap fun r => r.description.map fun text => "@returns " ++ Text.trimmed text

/-- The lines of a description; none if there is no description or it is blank. -/
def descriptionLines (description : Option String) : List String :=
  match description with
  | some text => (Text.linesOf (Text.trimmed text)).map Text.trimmedEnd
  | none => []

/-- Whether a declaration has no description although one is asked for. -/
def lacksDocs (c : Config) (description : Option String) : Bool :=
  c.fillUndocumentedDoclets && (descriptionLines description).isEmpty

/-- The lines of a documentation comment: the description, or a note that there is none if that is
asked for, and the lines of the tags after an empty line. -/
def docLines (c : Config) (description : Option String) (label : String) (tags : List String) :
    List String :=
  let text :=
    if lacksDocs c description then ["TODO: This " ++ label ++ " is undocumented."]
    else descriptionLines description
  if tags.isEmpty then text
  else if text.isEmpty then tags
  else text ++ "" :: tags

/-- The record of a declaration as comment lines. -/
def docletLines (d : Doclet) : List Page.Step :=
  (Text.linesOf d.toJson.pretty).map fun l => .line ("// " ++ l)

/-- The hint that a declaration has no description. -/
def undocumentedHint (d : Doclet) (label : String) : Finding :=
  .about .hint .missingDocs d.longname ("undocumented " ++ label)

/-- The documentation comment of a declaration, after the record itself if that is asked for. -/
def docs (c : Config) (d : Doclet) (description : Option String) (label : String)
    (tags : List String) : Rendering :=
  (if lacksDocs c description then .finding (undocumentedHint d label) else {}) ++
    .ofSteps ((if c.outputDocletDefs then docletLines d else []) ++
      Page.Step.commentBlock (docLines c description label tags))

end Ambient
