/-
# Device interfaces

`@iot {kind} Name title` opens the description of a function, macro or type of
a device; the other tags give its parameters, return value, errors, examples
and platforms. The group of the last parameter, return value or error
decides where it is stored.

Key definitions: `iotParameterPattern`, `readIotParameter`, `readIotReturn`,
`readIotError`, `iotTags`.
-/
import Docblock.Tag.Grammar
import Docblock.Text.Indent

namespace Docblock
namespace Tag

open Pattern

/-- The kinds of things that can be described. -/
def iotKinds : List String :=
  ["function", "macro", "struct", "enum", "typedef", "callback", "isr", "define", "const",
    "variable", "class"]

/-- A kind in braces, a name and a title. -/
def iotPattern : Pattern :=
  all [.textStart, lit "\x7b", .group 1 (any (iotKinds.map lit)), lit "\x7d", blanks1,
    .group 2 (chars1 Text.isAsciiWord), opt (all [blanks1, .group 3 (charsLazy1 notNewline)]), .textEnd]

/-- Reads `{kind} Name title`. -/
def readIot (content : String) : Option Json :=
  (iotPattern.find? (firstLine (Text.trim content))).map fun m =>
    .obj [("type", .str (m.group 1)), ("name", .str (m.group 2)), ("title", .str (m.group 3))]

/-- The characters of a type. -/
def isIotTypeChar (c : Char) : Bool := alnumOr "_*[]" c || Text.isBlank c

/-- The characters of a field. -/
def isIotFieldChar : Char → Bool := alnumOr "_.->"

/-- A group, a type with size and values, a field with its default and a
description, or else any `@`. -/
def iotParameterPattern : Pattern :=
  any [all [.textStart, groupPart 1, blanks,
    opt (all [lit "\x7b", blanks, .group 2 (chars1 isIotTypeChar), blanks, sizePart 3, blanks,
      opt (all [lit "=", blanks, .group 4 (charsLazy1 notNewline)]), blanks, lit "\x7d", blanks]),
    .group 5 (all [opt (lit "["), blanks,
      .group 6 (all [chars1 isIotFieldChar, opt (all [lit "[", .chars Text.isAsciiWord, lit "]"])]),
      defaultPart 7 8 9, blanks, opt (lit "]"), blanks]),
    restPart 10, .textEnd], lit "@"]

/-- Reads `(group) {type{size}=values} [field=default] description`. -/
def readIotParameter : Reader := fun content _ memory =>
  match iotParameterPattern.find? (oneLine content) with
  | none => { result := .ok none, memory }
  | some m =>
    let group := (restoredNonEmpty m 1).getD "Parameter"
    let kind := Text.trim ((restoredNonEmpty m 2).getD "")
    let value := Json.ofPresent [
      ("group", Json.str group),
      ("type", Json.str kind),
      ("size", (restoredNonEmpty m 3).map .str),
      ("allowedValues", (restoredNonEmpty m 4).map fun v => Json.texts (splitAllowedValues v)),
      ("optional", Json.bool (Text.startsWith (m.group 5) "[")),
      ("field", (restoredNonEmpty m 6).map .str),
      ("isPointer", Json.bool (Text.contains kind "*")),
      ("isArray", Json.bool (Text.contains kind "[")),
      ("defaultValue", ([7, 8, 9].findSome? (restoredNonEmpty m)).map .str),
      ("description", Json.str (Text.unindent ((restoredNonEmpty m 10).getD "")))]
    { result := .ok (some value), memory := { memory with iotGroup := group } }

/-- A group, a type, a field and a description, or else any `@`. -/
def iotReturnPattern : Pattern :=
  any [all [.textStart, groupPart 1, blanks,
    opt (all [lit "\x7b", blanks, .group 2 (chars1 isIotTypeChar), blanks, lit "\x7d", blanks]),
    blanks, .group 3 (.chars isIotFieldChar), blanks, restPart 4, .textEnd], lit "@"]

/-- Reads `(group) {type} field description`. -/
def readIotReturn : Reader := fun content _ memory =>
  match iotReturnPattern.find? (oneLine content) with
  | none => { result := .ok none, memory }
  | some m =>
    let group := (restoredNonEmpty m 1).getD "Return"
    let kind := ((restoredNonEmpty m 2).map Text.trim).getD "void"
    { result := .ok (some (.obj [
        ("group", .str group),
        ("type", .str kind),
        ("field", .str ((restoredNonEmpty m 3).getD "")),
        ("isPointer", .bool (Text.contains kind "*")),
        ("isArray", .bool (Text.contains kind "[")),
        ("description", .str (Text.unindent ((restoredNonEmpty m 4).getD "")))])),
      memory := { memory with iotGroup := group } }

/-- A group, a code, a name and a description, or else any `@`. -/
def iotErrorPattern : Pattern :=
  any [all [.textStart, groupPart 1, blanks,
    opt (all [lit "\x7b", blanks, .group 2 (chars1 fun c => isIotTypeChar c || c == '-'), blanks,
      lit "\x7d", blanks]),
    blanks, .group 3 (chars1 Text.isAsciiWord), blanks, restPart 4, .textEnd], lit "@"]

/-- Reads `(group) {code} name description`. -/
def readIotError : Reader := fun content _ memory =>
  match iotErrorPattern.find? (oneLine content) with
  | none => { result := .ok none, memory }
  | some m =>
    let group := (restoredNonEmpty m 1).getD "Error"
    { result := .ok (some (.obj [
        ("group", .str group),
        ("type", .str (Text.trim ((restoredNonEmpty m 2).getD ""))),
        ("field", .str ((restoredNonEmpty m 3).getD "")),
        ("description", .str (Text.unindent ((restoredNonEmpty m 4).getD "")))])),
      memory := { memory with iotGroup := group } }

/-- A language in braces, a title, and the code on the lines below. -/
def iotExamplePattern : Pattern :=
  all [.textStart, opt (all [lit "\x7b", .group 1 (chars1 (alnumOr "_+-")), lit "\x7d", blanks]),
    .group 2 (charsLazy1 notNewline),
    opt (all [.one (· == Text.lineMark), .group 3 (.chars notNewline)]), .textEnd]

/-- Reads `{lang} title` with code below. A single line that looks like code
is the code. -/
def readIotExample (content : String) : Option Json :=
  ((Text.nonBlank? content).bind fun text => iotExamplePattern.find? (oneLine text)).map fun m =>
    let title := Text.trim (m.group 2)
    let code := Text.trim ((restoredNonEmpty m 3).getD "")
    let (title, code) :=
      if code.isEmpty && title.toList.any (among "=;(") then ("", title) else (title, code)
    .obj [("type", .str ((m.group? 1).getD "c")), ("title", .str title), ("content", .str code)]

/-- Platforms in braces and a description. -/
def platformsPattern : Pattern :=
  all [.textStart, lit "\x7b", .group 1 (chars1 (· != '}')), lit "\x7d", blanks,
    .group 2 (.chars notNewline), .textEnd]

/-- Reads `{ESP32, STM32} description`, or one platform as the first word. -/
def readPlatforms (content : String) : Option Json :=
  match Text.nonBlank? content with
  | none => none
  | some content =>
    let (platforms, description) := match platformsPattern.find? content with
      | some m => ((Text.split ',' (m.group 1)).filterMap Text.nonBlank?, Text.trim (m.group 2))
      | none =>
        let words := Text.words content
        (words.take 1, Text.join " " (words.drop 1))
    if platforms.isEmpty then none
    else some (.obj [("platforms", Json.texts platforms), ("description", .str description)])

/-- Reads a deprecation with its message. -/
def readIotDeprecation (content : String) : Option Json :=
  some (.obj [("deprecated", .bool true), ("message", .str (Text.trim content))])

/-- The place of a field of a section: under its group. -/
def iotGroupedIn (part : String) : Memory → Option String :=
  fun memory => some ("local." ++ part ++ ".fields." ++ memory.iotGroup)

/-- The tags of device interfaces. -/
def iotTags : List (String × Tag) := [
  ("iot", inserted "local" (.ofContent readIot)),
  ("iotParam", {
    read := readIotParameter
    path := iotGroupedIn "parameter"
    markdownFields := ["description", "type"]
    removePTags := ["type"] }),
  ("iotReturn", {
    read := readIotReturn
    path := iotGroupedIn "return"
    markdownFields := ["description", "type"]
    removePTags := ["type"] }),
  ("iotError", {
    read := readIotError
    path := iotGroupedIn "error"
    markdownFields := ["description"] }),
  ("iotExample", pushed "local.examples" (.ofContent readIotExample)),
  ("iotPlatform", inserted "local" (.ofContent readPlatforms)),
  ("iotName", inserted "local" (.keyed "name")),
  ("iotGroup", inserted "local" (.underscoredAs "group")),
  ("iotDescription", inserted "local" (.keyed "description")),
  ("iotSince", inserted "local" (.keyed "since")),
  ("iotVersion", inserted "local" (.keyed "version")),
  ("iotDeprecated", inserted "local" (.ofContent readIotDeprecation)),
  ("iotSee", pushed "local.see" (.keyed "reference"))]

end Tag
end Docblock
