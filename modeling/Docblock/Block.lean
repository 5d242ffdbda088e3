/-
# Blocks

A block is what one documentation comment says: the data of its own endpoint,
the data that it shares with other blocks under a name, and values at its
root such as the version. Values are attached at dotted paths; missing
objects on the way are made, and a node that is there with another shape
stops the writing.

Key definitions: `Block`, `Method`, `Fields.attachAt`, `Block.attach`,
`Block.extendRoot`.
-/
import Docblock.Json.Path

namespace Docblock

/-- How a value joins what is at its path: as the last element of an array,
or entry by entry into an object. -/
inductive Method where
  | push
  | insert
  deriving DecidableEq, Repr

/-- What one documentation comment says. -/
structure Block where
  /-- Data that other blocks can refer to. -/
  shared : Fields := []
  /-- Data of the endpoint itself. -/
  own : Fields := []
  /-- The position of the comment in its file, from one; zero until something
  was written. -/
  index : Nat := 0
  /-- Values at the root of the block. -/
  root : Fields := []
  deriving Inhabited

/-- The blocks of one file. -/
abbrev BlockFile := List Block

namespace Method

/-- What takes the place of an absent value. -/
def start : Method → Json
  | .push => .arr []
  | .insert => .obj []

/-- The node after the value has joined it; none if the shapes do not fit. -/
def join : Method → (node value : Json) → Option Json
  | .push, .arr xs, value => some (.arr (xs ++ [value]))
  | .insert, .obj fields, .obj new => some (.obj (Fields.setAll fields new))
  | _, _, _ => none

end Method

namespace Fields

/-- Attaches a value at the place that the keys name, and says whether it
fitted. What was made on the way stays. -/
def attachAt (method : Method) (value : Json) (key : String) :
    (keys : List String) → Fields → Fields × Bool
  | [], fields =>
    let old := (fields.get? key).getD .null
    let node := if old.isFalsy then method.start else old
    match method.join node value with
    | some node => (fields.set key node, true)
    | none => (fields.set key node, false)
  | next :: keys, fields =>
    let old := (fields.get? key).getD (.obj [])
    match if old.isFalsy then .obj [] else old with
    | .obj inner =>
      let (inner, fits) := attachAt method value next keys inner
      (fields.set key (.obj inner), fits)
    | node => (fields.set key node, false)

/-- `attachAt` for a path that has been split. -/
def attach (method : Method) (value : Json) (fields : Fields) : List String → Fields × Bool
  | [] => (fields, false)
  | key :: keys => attachAt method value key keys fields

/-- Attaches at the object itself: only entries can join it. -/
def attachHere (method : Method) (value : Json) (fields : Fields) : Fields × Bool :=
  match method, value with
  | .insert, .obj new => (fields.setAll new, true)
  | _, _ => (fields, false)

end Fields

namespace Block

/-- The version at the root of the block. -/
def version? (b : Block) : Option String :=
  (b.root.get? "version").bind Json.str?

/-- Attaches a value at a dotted path that starts with `local`, `global` or a
key of the root, and says whether it fitted. -/
def attach (b : Block) (path : String) (method : Method) (value : Json) : Block × Bool :=
  match Text.split '.' path with
  | ["global"] =>
    let (fields, fits) := b.shared.attachHere method value
    ({ b with shared := fields }, fits)
  | ["local"] =>
    let (fields, fits) := b.own.attachHere method value
    ({ b with own := fields }, fits)
  | "global" :: keys =>
    let (fields, fits) := b.shared.attach method value keys
    ({ b with shared := fields }, fits)
  | "local" :: keys =>
    let (fields, fits) := b.own.attach method value keys
    ({ b with own := fields }, fits)
  | keys =>
    let (fields, fits) := b.root.attach method value keys
    ({ b with root := fields }, fits)

/-- The names that the parts of a block have when it is written. -/
def reservedKeys : List String := ["global", "local", "index"]

/-- Stores the entries of an object at the root, names of the parts apart. -/
def extendRoot (b : Block) (value : Json) : Block :=
  match value with
  | .obj new =>
    { b with root := b.root.setAll (new.filter fun (key, _) => !reservedKeys.contains key) }
  | _ => b

/-- Whether the block describes an endpoint: it shares nothing and has data of
its own. -/
def isEndpoint (b : Block) : Bool :=
  b.shared.isEmpty && !b.own.isEmpty

/-- The block as one object, the values at its root among its parts. -/
def toJson (b : Block) : Json :=
  .obj ([("global", .obj b.shared), ("local", .obj b.own), ("index", Json.ofNat b.index)] ++ b.root)

end Block
end Docblock
