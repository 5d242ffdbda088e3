/-
# Definitions

A block that shares data under a name is a definition, at the version of the
block. A reference from a block of some version means the definition of
exactly this version, or else the highest one that is not above it.

Key definitions: `Resolve.Definition`, `Resolve.Definitions.collect`,
`Resolve.Definitions.lookup`.
-/
import Docblock.Block
import Docblock.Version

namespace Docblock
namespace Resolve

/-- What a block shares, at one version. -/
structure Definition where
  version : String
  /-- Name, title and description. -/
  define : Json
  /-- Everything else that the block documents. -/
  own : Fields

/-- The title of a definition; a fallback if it has none. -/
def Definition.title (d : Definition) (fallback : String) : String :=
  ((d.define.getStr? "title").filter fun title => !title.isEmpty).getD fallback

/-- The description of a definition. -/
def Definition.description? (d : Definition) : Option Json :=
  d.define.getTruthy? "description"

/-- The definitions of each name, their versions in the order in which they
were found first. -/
structure Definitions where
  byName : List (String × List Definition) := []

namespace Definitions

/-- Adds a definition; it takes the place of one with the same version. -/
def addVersion (d : Definition) : List Definition → List Definition
  | [] => [d]
  | e :: es => if e.version == d.version then d :: es else e :: addVersion d es

/-- Adds a definition under its name. -/
def addNamed (name : String) (d : Definition) :
    List (String × List Definition) → List (String × List Definition)
  | [] => [(name, [d])]
  | (n, ds) :: rest =>
    if n == name then (n, addVersion d ds) :: rest else (n, ds) :: addNamed name d rest

/-- The definition that a block gives, with its name. -/
def ofBlock? (defaultVersion : String) (b : Block) : Option (String × Definition) :=
  (b.shared.get? "define").map fun define =>
    ((define.getStr? "name").getD "",
      { version := b.version?.getD defaultVersion, define, own := b.own })

/-- The definitions of all blocks. -/
def collect (defaultVersion : String) (files : List BlockFile) : Definitions :=
  ⟨(files.flatten.filterMap (ofBlock? defaultVersion)).foldl
    (fun names (name, d) => addNamed name d names) []⟩

/-- The number of names. -/
def size (ds : Definitions) : Nat := ds.byName.length

/-- The versions of a name. -/
def versions? (ds : Definitions) (name : String) : Option (List Definition) :=
  (ds.byName.find? fun entry => entry.1 == name).map Prod.snd

/-- What a reference leads to. -/
inductive Lookup where
  | unknown
  | found (d : Definition)
  /-- The name is known, but not at this version. -/
  | noMatch (defined : List String)

/-- The last definition that is not above `version` and not below those
chosen before it, the first of which is not below `last`. -/
def nearest (version : String) : (last : String) → (best : Option Definition) →
    List Definition → Option Definition
  | _, best, [] => best
  | last, best, d :: ds =>
    if Version.atLeast version d.version && Version.atLeast d.version last then
      nearest version d.version (some d) ds
    else nearest version last best ds

/-- Looks up a name for a version: exactly this version, or the highest one
from `floor` up to it. -/
def lookup (ds : Definitions) (name version floor : String) : Lookup :=
  match ds.versions? name with
  | none => .unknown
  | some versions =>
    match versions.find? fun d => d.version == version with
    | some d => .found d
    | none =>
      match nearest version floor none versions with
      | some d => .found d
      | none => .noMatch (versions.map Definition.version)

end Definitions
end Resolve
end Docblock
