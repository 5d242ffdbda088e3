/-
# Parameters in addresses

The names in an address such as `/users/:id` should be documented as
parameters, and parameters that are not optional should be names in the
address. What is missing is reported.

Key definitions: `Source.pathNames`, `Source.parameterFields`,
`Source.urlRemarks`.
-/
import Docblock.Block
import Docblock.Text.Cut

namespace Docblock
namespace Source

/-- The path of an address: without scheme and host, query and fragment. -/
def urlPath (url : String) : String :=
  let path := Text.upTo (fun c => c == '?' || c == '#') url
  match Text.cutOnce? "://" path with
  | none => path
  | some (_, rest) => String.ofList (rest.toList.dropWhile (· != '/'))

/-- The names in the path of an address, each behind a slash and a colon. -/
def pathNames (url : String) : List String :=
  (Text.split '/' (urlPath url)).filterMap (Text.strip? ":")

/-- The parameters of a block, of all groups. -/
def parameterFields (own : Fields) : List Json :=
  ((((own.get? "parameter").bind (Json.get? "fields")).bind Json.obj?).getD []).flatMap
    fun (_, group) => group.arr?.getD []

/-- Whether a parameter of this name is among the fields. -/
def documents (fields : List Json) (name : String) : Bool :=
  fields.any fun f => f.getStr? "field" == some name

/-- The name under which a block shares data. -/
def sharedName? (b : Block) : Option String :=
  ((b.shared.get? "define").bind (Json.get? "name")).bind Json.str?

/-- The names of the definitions that a block uses. -/
def usedNames (b : Block) : List String :=
  (((b.own.get? "use").bind Json.arr?).getD []).filterMap fun u => u.getStr? "name"

/-- The parameters that a block takes over from definitions of its file. A
later definition of a name takes the place of earlier ones. -/
def inheritedFields (blocks : List Block) (b : Block) : List Json :=
  (usedNames b).flatMap fun name =>
    match blocks.reverse.find? fun other => sharedName? other == some name with
    | some other => parameterFields other.own
    | none => []

/-- What is missing in one block. -/
def blockRemarks (blocks : List Block) (file : String) (b : Block) : List String :=
  let fields := parameterFields b.own
  let title := ((b.own.get? "title").bind Json.str?).getD "undefined"
  let names := (((b.own.get? "url").bind Json.str?).map pathNames).getD []
  let place := " @api '" ++ title ++ "' in file: '" ++ file ++ "'"
  let undocumented := names.filter fun name =>
    !documents fields name && !documents (inheritedFields blocks b) name
  let unused := if b.shared.contains "define" then [] else
    fields.filterMap fun field =>
      let name := (field.getStr? "field").getD ""
      if (field.getTruthy? "optional").isSome || names.contains name then none else some name
  undocumented.map (fun name =>
    "URL contains a parameter ':" ++ name ++ "' that is not documented as @apiParam in" ++ place) ++
  unused.map (fun name =>
    "@apiParam '" ++ name ++ "' was defined but does not appear in URL of" ++ place)

/-- What is missing in the blocks of a file. -/
def urlRemarks (blocks : List Block) (file : String) : List String :=
  blocks.flatMap (blockRemarks blocks file)

end Source
end Docblock
