/-
# Merging definitions into blocks

A block that refers to definitions takes over what they document. What it
says itself stays: arrays are continued, objects are merged entry by entry,
and other values are kept. Definitions may refer to definitions, up to ten
levels deep.

Key definitions: `Resolve.mergeFields`, `Resolve.mergeLevel`,
`Resolve.mergeReferences`.
-/
import Docblock.Resolve.Basic

namespace Docblock
namespace Resolve

mutual

/-- A value that is there, with a new one merged into it. -/
def mergeValue (old : Json) : Json → Json
  | .arr more =>
    match old with
    | .arr xs => .arr (xs ++ more)
    | _ => old
  | .obj more =>
    match old with
    | .arr xs => .arr (xs ++ [.obj more])
    | .obj fields => .obj (mergeFields fields more)
    | _ => old
  | new =>
    match old with
    | .arr xs => .arr (xs ++ [new])
    | _ => old

/-- Entries with new ones merged into them, in order. -/
def mergeFields (fields : List (String × Json)) : List (String × Json) → List (String × Json)
  | [] => fields
  | (key, new) :: rest =>
    mergeFields (Fields.set key (match Fields.get? key fields with
      | none => new
      | some old => mergeValue old new) fields) rest

end

/-- How many levels of references are followed. -/
def maxLevels : Nat := 10

/-- The names in an array of references. -/
def referenceNames (references : Json) : List String :=
  (references.arr?.getD []).map fun r => (r.getStr? "name").getD ""

/-- Merges the definitions of these names, one after the other. What was
merged before something stopped it stays. -/
def mergeLevel (c : Context) (b : Block) : (own : Fields) → List String → Fields × Option Cause
  | own, [] => (own, none)
  | own, name :: names =>
    match c.find b name with
    | .error cause => (own, some cause)
    | .ok none => (own, some (.undefinedName name))
    | .ok (some d) => mergeLevel c b (mergeFields own d.own) names

/-- Follows the references under a key until there are none. -/
def mergeLevels (c : Context) (b : Block) (target : String) :
    (levels : Nat) → (own : Fields) → Fields × Option Cause
  | levels, own =>
    match own.get? target with
    | none => (own, none)
    | some references =>
      match levels with
      | 0 => (own, some (.tooDeep (((own.get? "name").bind Json.str?).getD "")))
      | levels + 1 =>
        match mergeLevel c b (own.swapErase target) (referenceNames references) with
        | (own, some cause) => (own, some cause)
        | (own, none) => mergeLevels c b target levels own

/-- Merges the definitions to which a block refers under a key. -/
def mergeReferences (c : Context) (target : String) (b : Block) : Result :=
  let (own, cause) := mergeLevels c b target maxLevels b.own
  ({ b with own }, cause)

end Resolve
end Docblock
