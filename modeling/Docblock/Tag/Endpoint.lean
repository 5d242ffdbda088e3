/-
# Endpoints and definitions

`@api {method} url title` opens an endpoint; `@apiDefine name title` opens a
definition that endpoints refer to with `@apiUse`. The other tags here give
an endpoint its version, group, name, description, permissions and language.

Key definitions: `endpointPattern`, `readEndpoint`, `definitionPattern`,
`readDefinition`, `endpointTags`.
-/
import Docblock.Tag.Basic
import Docblock.Text.Case
import Docblock.Text.Indent
import Docblock.Version

namespace Docblock
namespace Tag

open Pattern

/-- A method in braces, a url up to a blank and a title up to the end. -/
def endpointPattern : Pattern :=
  all [.textStart,
    opt (all [opt (all [lit "\x7b", .group 1 (charsLazy1 notNewline), lit "\x7d"]), blanks]),
    .group 2 (charsLazy1 notNewline),
    opt (all [blanks1, .group 3 (charsLazy1 notNewline)]), .textEnd]

/-- Reads `{method} url title`. -/
def readEndpoint (content : String) : Option Json :=
  (endpointPattern.find? (Text.trim content)).map fun m => Json.ofPresent [
    ("type", (m.group? 1).map .str),
    ("url", Json.str (m.group 2)),
    ("title", Json.str (m.group 3))]

/-- A line of a definition: a name, what follows it without a blank, and the
rest. -/
def definitionPattern : Pattern :=
  all [.lineStart, .group 1 (.chars (alnumOr "_:")), .group 2 (.charsLazy notNewline),
    any [blanks1, .lineEnd], .group 3 (.chars notNewline), .lineEnd]

/-- Reads a name with a title, and the description on the lines below. -/
def readDefinition (content : String) : Except Fault (Option Json) :=
  match definitionPattern.findAll (Text.trim content) with
  | [] => .ok none
  | first :: others =>
    if first.text.isEmpty then .error .definitionMissing
    else if !(first.group 2).isEmpty then .error .definitionName
    else .ok (some (.obj [
      ("name", .str (first.group 1)),
      ("title", .str (first.group 3)),
      ("description", .str (Text.unindent (String.join (others.map fun m => m.text ++ "\n"))))]))

/-- Reads a version, which must have three numbers. -/
def readVersion (content : String) : Except Fault (Option Json) :=
  match Text.nonBlank? content with
  | none => .ok none
  | some text =>
    if Version.isValid text then .ok (some (.obj [("version", .str text)]))
    else .error .versionFormat

/-- Reads a description. -/
def readDescription (content : String) : Option Json :=
  (Text.nonBlank? content).map fun text => .obj [("description", .str (Text.unindent text))]

/-- Reads a deprecation: with its reason, or bare. -/
def readDeprecation (content : String) : Option Json :=
  match Text.nonBlank? content with
  | some text => some (.obj [("deprecated", .obj [("content", .str (Text.unindent text))])])
  | none => some (.obj [("deprecated", .bool true)])

/-- Reads a permission; its title and description come from its definition. -/
def readPermission (content : String) : Option Json :=
  (Text.nonBlank? content).map fun name =>
    .obj [("name", .str name), ("title", .str ""), ("description", .str "")]

/-! ### Languages -/

/-- The two-letter codes of languages. -/
def languageCodes : List String :=
  Text.words ("aa ab ae af ak am an ar as av ay az ba be bg bh bi bm bn bo br bs ca ce ch co cr cs cu " ++
    "cv cy da de dv dz ee el en eo es et eu fa ff fi fj fo fr fy ga gd gl gn gu gv ha he hi ho hr " ++
    "ht hu hy hz ia id ie ig ii ik io is it iu ja jv ka kg ki kj kk kl km kn ko kr ks ku kv kw ky " ++
    "la lb lg li ln lo lt lu lv mg mh mi mk ml mn mr ms mt my na nb nd ne ng nl nn no nr nv ny oc " ++
    "oj om or os pa pi pl ps pt qu rm rn ro ru rw sa sc sd se sg si sk sl sm sn so sq sr ss st su " ++
    "sv sw ta te tg th ti tk tl tn to tr ts tt tw ty ug uk ur uz ve vi vo wa wo xh yi yo za zh zu")

/-- Reads the code of a language. -/
def readLanguage (content : String) : Except Fault (Option Json) :=
  let code := Text.lower (Text.trim content)
  if code.isEmpty then .ok none
  else if code.length != 2 then .error .languageLength
  else if !languageCodes.contains code then .error (.unknownLanguage code)
  else .ok (some (.obj [("lang", .str code)]))

/-! ### The tags -/

/-- A tag that refers to a definition by its name. -/
def reference (path : String) : Tag :=
  { pushed path (Reader.keyed "name") with preventGlobal := true }

/-- An old tag that refers to a definition. -/
def oldReference (path : String) : Tag :=
  { reference path with deprecated := true, alternative := some "@apiUse" }

/-- The tags of endpoints and definitions. -/
def endpointTags : List (String × Tag) := [
  ("api", inserted "local" (.ofContent readEndpoint)),
  ("apiDefine", { inserted "global.define" (.checked readDefinition) with
    markdownFields := ["description"] }),
  ("apiUse", reference "local.use"),
  ("apiVersion", { inserted "local" (.checked readVersion) with extendRoot := true }),
  ("apiGroup", inserted "local" (.underscoredAs "group")),
  ("apiName", inserted "local" (.underscoredAs "name")),
  ("apiDescription", { inserted "local" (.ofContent readDescription) with
    markdownFields := ["description"] }),
  ("apiPrivate", inserted "local" (.ofContent fun _ => some (.obj [("private", .bool true)]))),
  ("apiDeprecated", { inserted "local" (.ofContent readDeprecation) with
    markdownFields := ["deprecated.content"], removePTags := ["deprecated.content"] }),
  ("apiPermission", pushed "local.permission" (.ofContent readPermission)),
  ("apiSampleRequest", pushed "local.sampleRequest" (.keyed "url")),
  ("apiStructure", oldReference "local.structure"),
  ("apiSuccessStructure", oldReference "local.successStructure"),
  ("apiErrorStructure", oldReference "local.errorStructure"),
  ("apiHeaderStructure", oldReference "local.headerStructure"),
  ("apiLang", { inserted "local" (.checked readLanguage) with extendRoot := true })]

end Tag
end Docblock
