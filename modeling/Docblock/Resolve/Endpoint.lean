/-
# Completing endpoints

An endpoint without type, address, version, file, name or group gets one.
Permissions become their definitions, and sample requests get the address of
the project in front.

Key definitions: `Resolve.withDefaults`, `Resolve.permissions`,
`Resolve.sampleRequests`, `Resolve.defaultName`, `Resolve.group`.
-/
import Docblock.Resolve.Basic
import Docblock.Text.Case
import Docblock.Text.Word

namespace Docblock
namespace Resolve

/-! ### Defaults -/

/-- Stores a text under a key, unless a value is there. -/
def fillIn (key text : String) (own : Fields) : Fields :=
  if ((own.get? key).getD .null).isFalsy then own.set key (.str text) else own

/-- The name of the file with slashes in it. -/
def slashFilename (own : Fields) : Fields :=
  match (own.get? "filename").bind Json.str? with
  | some filename => own.set "filename" (.str (Text.replaceChar '\\' '/' filename))
  | none => own

/-- An endpoint with type, address, version and file. -/
def withDefaults (defaultVersion filename : String) (b : Block) : Block :=
  if b.isEndpoint then
    { b with own := slashFilename (fillIn "filename" filename (fillIn "version" defaultVersion
        (fillIn "url" "" (fillIn "type" "" b.own)))) }
  else b

/-! ### Permissions -/

/-- The definition of a permission, or the permission as it is. -/
def permission (c : Context) (b : Block) (p : Json) : Except Cause Json := do
  match ← c.find b ((p.getStr? "name").getD "") with
  | some d => return d.define
  | none => return p

/-- Puts definitions in the place of permissions. -/
def permissions (c : Context) (b : Block) : Result :=
  match b.own.get? "permission" with
  | some (.arr ps) => withOwn b do
      return b.own.set "permission" (.arr (← ps.mapM (permission c b)))
  | _ => (b, none)

/-! ### Sample requests -/

/-- An address with that of the project in front, unless it is complete. -/
def completeUrl (sampleUrl : Option String) (url : String) : String :=
  match sampleUrl with
  | some base =>
    if Text.startsWith (String.ofList (url.toList.map Char.toLower)) "http" then url
    else base ++ url
  | none => url

/-- The kind of a value. -/
def kindOf : Json → String
  | .null => "null"
  | .bool _ => "boolean"
  | .num _ => "number"
  | .str _ => "string"
  | .arr _ => "array"
  | .obj _ => "object"

/-- A sample request with its complete address; nothing if it is turned off. -/
def sampleRequest (sampleUrl : Option String) (entry : Json) : Except Cause (Option Json) :=
  let url := (entry.getStr? "url").getD ""
  if url == "off" then .ok none
  else
    let url := Json.str (completeUrl sampleUrl url)
    match entry with
    | .obj fields => .ok (some (.obj (Fields.set "url" url fields)))
    | .null => .ok (some (.obj [("url", url)]))
    | entry => .error (.keyless (kindOf entry))

/-- Completes the sample requests; without any there is one for the address of
the endpoint, if the project has an address. -/
def sampleRequests (c : Context) (b : Block) : Result :=
  match (b.own.get? "sampleRequest").bind Json.arr? with
  | some entries => withOwn b do
      match (← entries.mapM (sampleRequest c.sampleUrl)).filterMap id with
      | [] => return b.own.swapErase "sampleRequest"
      | kept => return b.own.set "sampleRequest" (.arr kept)
  | none =>
    let url := ((b.own.get? "url").bind Json.str?).getD ""
    let entry := Json.obj [("url", .str (completeUrl c.sampleUrl url))]
    if c.sampleUrl.isSome && !url.isEmpty then
      ({ b with own := b.own.set "sampleRequest" (.arr [entry]) }, none)
    else (b, none)

/-! ### Names and groups -/

/-- The words of a text, of letters, digits and underscores. -/
def asciiWords (s : String) : List String :=
  (Text.splitBy (fun c => !Text.isAsciiWord c) s).filter fun word => !word.isEmpty

/-- The name of an endpoint after its type and address: `GetUserId` for
`get /user/:id`. -/
def nameFrom (kind url : String) : String :=
  String.join ((asciiWords (kind ++ url)).map Text.capitalize)

/-- An endpoint with a name. -/
def defaultName (b : Block) : Block :=
  if !b.isEndpoint || ((b.own.get? "name").getD .null).isTruthy then b
  else
    let text := fun key => ((b.own.get? key).bind Json.str?).getD ""
    match nameFrom (text "type") (text "url") with
    | "" => b
    | name => { b with own := b.own.set "name" (.str name) }

/-- The name of a file without its folders and without its ending. -/
def fileStem (filename : String) : String :=
  let base := ((Text.splitBy (fun c => c == '/' || c == '\\') filename).getLast?).getD filename
  match Text.cutLast? '.' base with
  | some (stem, _) => if stem.isEmpty then base else stem
  | none => base

/-- A name with underscores for everything but letters and digits. -/
def safeName (s : String) : String :=
  String.ofList (s.toList.map fun c => if Text.isAsciiWord c then c else '_')

/-- The group of an endpoint: its own, or the name of its file. -/
def groupName (filename : String) (own : Fields) : String :=
  safeName ((((own.get? "group").bind Json.str?).filter fun g => !g.isEmpty).getD
    (fileStem filename))

/-- An endpoint with the title and description of its group. -/
def group (c : Context) (filename : String) (b : Block) : Result :=
  if !b.isEndpoint then (b, none)
  else
    let name := groupName filename b.own
    withOwn b do
      let d ← c.find b name
      let title := (d.map fun d => d.title name).getD name
      return ((b.own.set "group" (.str name)).set "groupTitle" (.str title)).set? "groupDescription"
        (d.bind Definition.description?)

end Resolve
end Docblock
