/-
# Options

What a run reads and how it writes: folders with their categories, filters
for files and blocks, encoding and line ends.

Key definitions: `Options`, `Options.ofJson?`, `Input.ofText`.
-/
import Docblock.FileFilter
import Docblock.Json.Basic

namespace Docblock

/-- How the bytes of sources are read. -/
inductive Encoding where
  | utf8
  | latin1
  deriving DecidableEq, Repr

namespace Encoding

/-- The text of a file. -/
def decode : Encoding → Bytes → String
  | utf8 => Text.utf8Lossy
  | latin1 => Text.latin1

/-- The names of the encodings. -/
def names : List (String × Encoding) := [("utf8", utf8), ("latin1", latin1)]

end Encoding

/-- How lines of the documentation end. -/
inductive LineEnding where
  | lf
  | crlf
  | cr
  deriving DecidableEq, Repr

namespace LineEnding

/-- The characters of a line end. -/
def text : LineEnding → String
  | lf => "\n"
  | crlf => "\r\n"
  | cr => "\r"

/-- The names of the line ends. -/
def names : List (String × LineEnding) := [("lf", lf), ("crlf", crlf), ("cr", cr)]

end LineEnding

/-- A folder or file to read. -/
structure Input where
  path : String
  category : Option String := none
  deriving DecidableEq, Repr

namespace Input

/-- Reads `path` or `path:category`. -/
def ofText (text : String) : Input :=
  match Text.cutLast? ':' text with
  | none => ⟨text, none⟩
  | some (path, category) =>
    if !path.isEmpty && !category.isEmpty &&
        category.toList.all fun c => c.isAlphanum || c == '_' || c == '-' then
      ⟨path, some category⟩
    else ⟨text, none⟩

end Input

/-- What a run reads and how it writes. -/
structure Options where
  inputs : List Input := [⟨".", none⟩]
  wanted : List String := [FileFilter.sourceFiles]
  unwanted : List String := []
  encoding : Encoding := .utf8
  lineEnding : LineEnding := .lf
  /-- `tag=value` keeps the blocks with this tag and text. -/
  filterBy : Option String := none
  includePrivate : Bool := false
  mqttOnly : Bool := false
  failOnMqttSchemaError : Bool := false
  /-- Whether Markdown is rendered. -/
  markdown : Bool := true

namespace Options

/-! ### Reading options -/

/-- A value that may be null. -/
def nullable? (read : Json → Option α) : Json → Option (Option α)
  | .null => some none
  | v => (read v).map some

/-- An array of values. -/
def list? (read : Json → Option α) (v : Json) : Option (List α) :=
  v.arr?.bind fun xs => xs.mapM read

/-- A value given by its name, or by an object with its name and null. -/
def named? (names : List (String × α)) : Json → Option α
  | .str s => (names.find? fun entry => entry.1 == s).map Prod.snd
  | .obj [(s, .null)] => (names.find? fun entry => entry.1 == s).map Prod.snd
  | _ => none

/-- An input: its path, or an object with path and category. -/
def input? : Json → Option Input
  | .str path => some ⟨path, none⟩
  | .obj fields => do
    let path ← (Fields.get? "path" fields).bind Json.str?
    let category ← match Fields.get? "category" fields with
      | none => some none
      | some v => nullable? Json.str? v
    return ⟨path, category⟩
  | _ => none

/-- The keys of the options, in order. -/
def keys : List String :=
  ["src", "includeFilters", "excludeFilters", "encoding", "lineEnding", "filterBy", "apiPrivate",
    "mqttOnly", "failOnMqttSchemaError", "markdown"]

/-- The entries of an object; an array gives the values of the keys in order. -/
def entries? : Json → Option Fields
  | .obj fields => some fields
  | .arr values => if values.length ≤ keys.length then some (keys.zip values) else none
  | _ => none

/-- Reads options; missing ones have their defaults. -/
def ofJson? (v : Json) : Option Options := do
  let fields ← entries? v
  let get {α : Type} (key : String) (read : Json → Option α) (default : α) : Option α :=
    match fields.get? key with
    | none => some default
    | some v => read v
  let start : Options := {}
  return {
    inputs := ← get "src" (list? input?) start.inputs
    wanted := ← get "includeFilters" (list? Json.str?) start.wanted
    unwanted := ← get "excludeFilters" (list? Json.str?) start.unwanted
    encoding := ← get "encoding" (named? Encoding.names) start.encoding
    lineEnding := ← get "lineEnding" (named? LineEnding.names) start.lineEnding
    filterBy := ← get "filterBy" (nullable? Json.str?) start.filterBy
    includePrivate := ← get "apiPrivate" Json.bool? start.includePrivate
    mqttOnly := ← get "mqttOnly" Json.bool? start.mqttOnly
    failOnMqttSchemaError := ← get "failOnMqttSchemaError" Json.bool? start.failOnMqttSchemaError
    markdown := ← get "markdown" Json.bool? start.markdown }

end Options
end Docblock
