/-
# Titles of groups

Fields are grouped by a name. If the name is defined, the title of the
definition takes its place.

Key definitions: `Resolve.titleOf`, `Resolve.regroup`, `Resolve.titles`.
-/
import Docblock.Resolve.Basic

namespace Docblock
namespace Resolve

/-- The name of the group of a field. -/
def groupOf (field : Json) : String := (field.getStr? "group").getD ""

/-- The title of a group: that of its definition, or the name itself. -/
def titleOf (c : Context) (b : Block) (group : String) : Except Cause String := do
  match ← c.find b group with
  | some d => return d.title group
  | none => return group

/-- A field of a plain list, with the title for the name of its group. -/
def titledField (c : Context) (b : Block) (field : Json) : Except Cause Json := do
  match ← c.find b (groupOf field), field with
  | some d, .obj fields => return .obj (Fields.set "group" (.str (d.title (groupOf field))) fields)
  | _, _ => return field

/-- Adds a field to the group with this title. -/
def addToGroup (title : String) (field : Json) (groups : Fields) : Fields :=
  groups.set title (.arr (((groups.get? title).bind Json.arr?).getD [] ++ [field]))

/-- The fields in groups by title, in the order in which titles come up. -/
def regroup (c : Context) (b : Block) (fields : List Json) : Except Cause Fields :=
  fields.foldlM (fun groups field => do
    return addToGroup (← titleOf c b (groupOf field)) field groups) []

/-- Sets titles for the groups of one kind of fields. -/
def titles (c : Context) (target : String) (b : Block) : Result :=
  match b.own.get? target with
  | some (.arr fields) => withOwn b do
      return b.own.set target (.arr (← fields.mapM (titledField c b)))
  | some (.obj part) =>
    match (Fields.get? "fields" part).bind Json.obj? with
    | none => (b, none)
    | some groups => withOwn b do
        let fields := groups.flatMap fun (_, group) => group.arr?.getD []
        return b.own.set target (.obj (Fields.set "fields" (.obj (← regroup c b fields)) part))
  | _ => (b, none)

end Resolve
end Docblock
