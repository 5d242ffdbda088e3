/-
# Projects

What is known about the documented project: its name, version and
description, where sample requests go, and the version of blocks that give
none. Further entries are kept as they are.

Key definitions: `Package`, `Package.ofJson?`, `Package.ofText?`, `Package.toJson`.
-/
import Docblock.Json.Parser

namespace Docblock

/-- What wrote a documentation. -/
structure Generator where
  name : String
  time : String
  url : String
  version : String

/-- What is known about the documented project. -/
structure Package where
  name : String := ""
  version : String := "0.0.0"
  description : String := "API Documentation"
  /-- Where sample requests go. -/
  sampleUrl : Option String := none
  /-- The version of blocks that give none. -/
  defaultVersion : String := "0.0.0"
  /-- The version of the format of the documentation. -/
  format : Option String := none
  generator : Option Generator := none
  extra : Fields := []

namespace Generator

/-- The keys of a generator. -/
def knownKeys : List String := ["name", "time", "url", "version"]

/-- Reads a generator from an object, or from the array of its texts. -/
def ofJson? : Json → Option Generator
  | .obj fields => do
    let text := fun key => (Fields.get? key fields).bind Json.str?
    return ⟨← text "name", ← text "time", ← text "url", ← text "version"⟩
  | .arr [.str name, .str time, .str url, .str version] => some ⟨name, time, url, version⟩
  | _ => none

/-- A generator as an object. -/
def toJson (g : Generator) : Json :=
  .obj [("name", .str g.name), ("time", .str g.time), ("url", .str g.url),
    ("version", .str g.version)]

end Generator

namespace Package

/-- The keys with a meaning of their own. -/
def knownKeys : List String :=
  ["name", "version", "description", "sampleUrl", "defaultVersion", "apidoc", "generator"]

/-- A text under a key; the default if there is none, nothing if it is no
text. -/
def textOr? (key default : String) (fields : Fields) : Option String :=
  match fields.get? key with
  | none => some default
  | some v => v.str?

/-- A value under a key that may be missing or null; nothing if it cannot be
read. -/
def optional? (key : String) (read : Json → Option α) (fields : Fields) : Option (Option α) :=
  match fields.get? key with
  | none => some none
  | some .null => some none
  | some v => (read v).map some

/-- Reads a project from an object. -/
def ofJson? (v : Json) : Option Package := do
  let fields ← v.obj?
  let start : Package := {}
  return {
    name := ← textOr? "name" start.name fields
    version := ← textOr? "version" start.version fields
    description := ← textOr? "description" start.description fields
    sampleUrl := ((fields.get? "sampleUrl").bind Json.str?).filter fun url => !url.isEmpty
    defaultVersion := ← textOr? "defaultVersion" start.defaultVersion fields
    format := ← optional? "apidoc" Json.str? fields
    generator := ← optional? "generator" Generator.ofJson? fields
    extra := fields.filter fun (key, _) => !knownKeys.contains key }

/-- Whether one of the keys stands in an object twice. -/
def repeats (keys : List String) : Json → Bool
  | .obj fields => keys.any fun key => 1 < fields.countP fun entry => entry.1 == key
  | _ => false

/-- Reads a project from a text. A key with a meaning may stand there once. -/
def ofText? (text : String) : Option Package := do
  let v ← Json.parseRepeated? text
  if repeats knownKeys v || ((v.get? "generator").map (repeats Generator.knownKeys)).getD false then none
  else (Json.parse? text).bind ofJson?

/-- A project as an object; a missing sample address is `false`. -/
def toJson (p : Package) : Json :=
  match Json.ofPresent [
    ("name", Json.str p.name),
    ("version", Json.str p.version),
    ("description", Json.str p.description),
    ("sampleUrl", (p.sampleUrl.map Json.str).getD (.bool false)),
    ("defaultVersion", Json.str p.defaultVersion),
    ("apidoc", p.format.map .str),
    ("generator", p.generator.map Generator.toJson)] with
  | .obj fields => .obj (fields ++ p.extra)
  | v => v

/-- Whether the project has further pages of documentation. -/
def hasDocumentation (p : Package) : Bool :=
  (((p.extra.get? "documentation").bind Json.arr?).getD []).length != 0

end Package
end Docblock
