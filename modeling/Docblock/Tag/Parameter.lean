/-
# Parameters

`@apiParam (group) {type{size}=allowed,values} [field.name=default] description`
and the tags with the same grammar for results, errors, headers, bodies and
queries. The group of the last one decides where it is stored. A field with
an object type becomes the parent of the fields below it: `user.name` has
the parent `user`.

Key definitions: `parameterPattern`, `readParameter`, `parentNode?`,
`parameterTags`.
-/
import Docblock.Tag.Grammar
import Docblock.Text.Indent
import Docblock.Text.Case

namespace Docblock
namespace Tag

open Pattern

/-- The characters of a type. -/
def isTypeChar : Char → Bool := alnumOr "()#:./\\[]_|-"

/-- A letter, a digit, or a Latin letter with a mark. -/
def isLatin (c : Char) : Bool :=
  c.isAlphanum || (0xC0 ≤ c.toNat && c.toNat ≤ 0x17F)

/-- The characters of a field name. -/
def isFieldChar (c : Char) : Bool := isLatin c || among "#@$:./\\_-" c

/-- The characters of an index behind a field name. -/
def isIndexChar (c : Char) : Bool := isLatin c || among "./\\_-" c

/-- Group, type, size and allowed values in braces. -/
def parameterTypePart : Pattern :=
  opt (all [lit "\x7b", blanks, .group 2 (chars1 isTypeChar), blanks, sizePart 3, blanks,
    opt (all [lit "=", blanks, .group 4 (charsLazy1 notNewline)]), blanks, lit "\x7d", blanks])

/-- The field with its default, in brackets when it is optional. -/
def parameterFieldPart : Pattern :=
  .group 5 (all [opt (lit "["), blanks,
    .group 6 (all [chars1 isFieldChar, opt (all [lit "[", .chars isIndexChar, lit "]"])]),
    defaultPart 7 8 9, blanks, opt (lit "]"), blanks])

/-- A parameter, or else any `@`. -/
def parameterPattern : Pattern :=
  any [all [.textStart, groupPart 1, blanks, parameterTypePart, parameterFieldPart, restPart 10,
    .textEnd], lit "@"]

/-- The parts of a dotted name that end before a dot, the longest first. -/
def dottedPrefixes (field : String) : List String :=
  let chars := field.toList
  ((List.range chars.length).reverse.filter fun i => chars[i]? == some '.').map fun i =>
    String.ofList (chars.take i)

/-- The nearest field above this one that has an object type, with its path. -/
def parentNode? (parents : Fields) (field : String) : Option Json :=
  (dottedPrefixes field).findSome? fun path =>
    match parents.get? path with
    | some (.obj parent) => some (.obj (Fields.setAll [("path", .str path)] parent))
    | _ => none

/-- Reads one parameter; without a group of its own it belongs to
`defaultGroup`. -/
def readParameter (defaultGroup content : String) (memory : Memory) : Option Json × Memory :=
  match parameterPattern.find? (oneLine content) with
  | none => (none, memory)
  | some m =>
    let group := (restoredNonEmpty m 1).getD defaultGroup
    let kind := restored m 2
    let field := restored m 6
    let isArray := kind.any fun t => Text.contains t "[]"
    let parent := field.bind (parentNode? memory.parents)
    let parents := match kind, field with
      | some t, some f =>
        if Text.contains t "Object" then
          memory.parents.set f (Json.ofPresent [("parentNode", parent), ("field", Json.str f),
            ("type", Json.str t), ("isArray", Json.bool isArray)])
        else memory.parents
      | _, _ => memory.parents
    let value := Json.ofPresent [
      ("group", Json.str group),
      ("type", kind.map .str),
      ("size", (restored m 3).map .str),
      ("allowedValues", (restored m 4).map fun v => Json.texts (splitAllowedValues v)),
      ("optional", Json.bool ((restored m 5).any fun t => Text.startsWith t "[")),
      ("parentNode", parent),
      ("field", field.map .str),
      ("isArray", Json.bool isArray),
      ("defaultValue", ([7, 8, 9].findSome? (restoredNonEmpty m)).map .str),
      ("description", Json.str (Text.unindent ((restored m 10).getD "")))]
    (some value, { memory with paramGroup := group, parents })

/-- The reader of parameters with a default group. -/
def parameterReader (defaultGroup : String) : Reader := fun content _ memory =>
  let (value, memory) := readParameter defaultGroup content memory
  { result := .ok value, memory }

/-- A body field of boolean type says whether it is checked: it is if it has a
default. -/
def withChecked (value : Json) : Json :=
  match value with
  | .obj fields =>
    if (value.getStr? "type").any (Text.sameIgnoringCase · "boolean") then
      .obj (Fields.set "checked"
        (.bool ((value.getStr? "defaultValue").any fun d => !d.isEmpty)) fields)
    else value
  | _ => value

/-- The reader of body fields. -/
def bodyReader : Reader := fun content _ memory =>
  let (value, memory) := readParameter "Body" content memory
  { result := .ok (value.map withChecked), memory }

/-- The place of a field of a section: under its group. -/
def groupedIn (part : String) : Memory → Option String :=
  fun memory => some ("local." ++ part ++ ".fields." ++ memory.paramGroup)

/-- The tags with the grammar of parameters. -/
def parameterTags : List (String × Tag) := [
  ("apiParam", {
    read := parameterReader "Parameter"
    path := groupedIn "parameter"
    markdownFields := ["description", "type"]
    removePTags := ["type"] }),
  ("apiSuccess", {
    read := parameterReader "Success 200"
    path := groupedIn "success"
    markdownFields := ["description", "type"]
    removePTags := ["type"] }),
  ("apiError", {
    read := parameterReader "Error 4xx"
    path := groupedIn "error"
    markdownFields := ["description", "type"]
    removePTags := ["type"] }),
  ("apiHeader", {
    read := parameterReader "Header"
    path := groupedIn "header"
    markdownFields := ["description"] }),
  ("apiBody", { pushed "local.body" bodyReader with markdownFields := ["description"] }),
  ("apiQuery", { pushed "local.query" (parameterReader "Query") with
    markdownFields := ["description"] })]

end Tag
end Docblock
