/-
# Records

The records of the documentation are the data of the endpoints. Within a
group each field counts once: the first of its name is kept.

Key definitions: `Record.firstByName`, `Record.dedupBlock`,
`Record.ofFiles`.
-/
import Docblock.Block
import Docblock.Json.Printer
import Docblock.Log

namespace Docblock
namespace Record

/-- The kinds of fields that count once. -/
def fieldParts : List String := ["parameter", "success", "error", "header"]

/-- The name of a field as written; empty if it has none. -/
def fieldKey (field : Json) : String :=
  ((field.get? "field").map Json.compact).getD ""

/-- The fields without those of a name that came up before. -/
def firstByName : (seen : List String) → List Json → List Json
  | _, [] => []
  | seen, field :: fields =>
    if seen.contains (fieldKey field) then firstByName seen fields
    else field :: firstByName (fieldKey field :: seen) fields

/-- Each group with the first field of every name. -/
def dedupGroups (groups : Fields) : Fields :=
  groups.map fun (title, group) => (title, match group with
    | .arr fields => .arr (firstByName [] fields)
    | group => group)

/-- One kind of fields, each of them once. -/
def dedupPart (own : Fields) (part : String) : Fields :=
  match own.get? part with
  | some (.obj fields) =>
    match (Fields.get? "fields" fields).bind Json.obj? with
    | some groups =>
      own.set part (.obj (Fields.set "fields" (.obj (dedupGroups groups)) fields))
    | none => own
  | _ => own

/-- A block with each of its fields once. -/
def dedupBlock (b : Block) : Block :=
  { b with own := fieldParts.foldl dedupPart b.own }

/-- The files with each field of their blocks once. -/
def dedupFiles (files : List BlockFile) : List BlockFile :=
  files.map fun file => file.map dedupBlock

/-- The data of all endpoints, in order. -/
def ofFiles (files : List BlockFile) : List Fields :=
  ((dedupFiles files).flatten.filter Block.isEndpoint).map Block.own

/-- What the log says about it. -/
def dedupLog : List Log.Entry :=
  fieldParts.map fun part => Log.say .verbose ("filter postFilter: api" ++ part)

end Record
end Docblock
