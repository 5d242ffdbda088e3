/-
# TSDoc

The tags that TypeScript comments use for parameters, results, remarks,
examples and the stage of a release. Their data have keys of their own and
never meet the data of endpoints.

Key definitions: `readTsdocParam`, `readTsdocExample`, `tsdocTags`.
-/
import Docblock.Tag.Basic

namespace Docblock
namespace Tag

open Pattern

/-- A name that may end in a question mark, a dash and a description. -/
def tsdocParamPattern : Pattern :=
  all [.textStart,
    .group 1 (.seq (.one fun c => c.isAlpha || c == '_' || c == '$') (.chars (alnumOr "_$"))),
    opt (lit "?"), opt (all [blanks, lit "-", blanks]), .group 2 (.chars fun _ => true), .textEnd]

/-- Reads `name - description`; a `name?` in the text makes the parameter
optional. -/
def readTsdocParam (content : String) : Option Json := do
  let content ← Text.nonBlank? content
  let m ← tsdocParamPattern.find? content
  let name := m.group 1
  return Json.ofPresent [("name", Json.str name), ("description", Json.str (Text.trim (m.group 2))),
    ("optional", if Text.contains content (name ++ "?") then Json.bool true else none)]

/-- What a first line of code starts with. -/
def codeStartPattern : Pattern :=
  any ([all [.textStart, lit "\x60\x60\x60"], all [.textStart, lit "//"], all [.textStart, lit "#"]] ++
    ["*", "const", "let", "var", "function", "class", "interface", "type"].map fun word =>
      all [.textStart, blanks, lit word])

/-- Reads an example; a first line that does not look like code is its title. -/
def readTsdocExample (content : String) : Option Json :=
  match Text.nonBlank? content with
  | none => none
  | some whole =>
    let lines := Text.lines content
    let first := Text.trim (lines.head?.getD "")
    if lines.length == 1 || codeStartPattern.occursIn first then some (.obj [("code", .str whole)])
    else
      match Text.nonBlank? (Text.join "\n" (lines.drop 1)) with
      | none => some (.obj [("code", .str first)])
      | some code => some (.obj [("title", .str first), ("code", .str code)])

/-- A tag without content that stands for a fixed value. -/
def marker (path : String) (value : Fields) : Tag :=
  inserted path (.ofContent fun _ => some (.obj value))

/-- The tags of TSDoc. -/
def tsdocTags : List (String × Tag) := [
  ("param", pushed "local.tsdocParams" (.ofContent readTsdocParam)),
  ("returns", inserted "local.tsdocReturns" (.keyed "description")),
  ("remarks", inserted "local.tsdocRemarks" (.keyed "description")),
  ("example", pushed "local.tsdocExamples" (.ofContent readTsdocExample)),
  ("public", marker "local.tsdocVisibility" [("visibility", .str "public"), ("stable", .bool true)]),
  ("internal", marker "local.tsdocVisibility"
    [("visibility", .str "internal"), ("publishable", .bool false)]),
  ("alpha", marker "local.tsdocReleaseStage"
    [("releaseStage", .str "alpha"), ("released", .bool false), ("hideInPublic", .bool true)]),
  ("beta", marker "local.tsdocReleaseStage"
    [("releaseStage", .str "beta"), ("experimental", .bool true), ("productionReady", .bool false)])]

end Tag
end Docblock
