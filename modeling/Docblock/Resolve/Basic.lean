/-
# Resolving references between blocks

What the stages of the resolution look at, and why a block can stop them.

Key definitions: `Resolve.Context`, `Resolve.Context.find`, `Resolve.Cause`,
`Resolve.Fault`.
-/
import Docblock.Log
import Docblock.Package
import Docblock.Resolve.Definition
import Docblock.Tag.Basic

namespace Docblock
namespace Resolve

/-- Why a block cannot be resolved. -/
inductive Cause where
  /-- No definition has the name. -/
  | undefinedName (name : String)
  /-- The definitions of the name are all of later versions. -/
  | noVersion (name version : String) (defined : List String)
  /-- References lead to references for too long. -/
  | tooDeep (blockName : String)
  /-- A sample request of this kind of value has no place for an address. The
  program breaks off. -/
  | keyless (kind : String)
  deriving DecidableEq, Repr

/-- A block that stopped the resolution. -/
structure Fault where
  cause : Cause
  file : String
  /-- The position of the block in its file. -/
  block : Nat
  /-- How the tag in question is written. -/
  usage : Tag.Usage

namespace Fault

/-- The wording of a fault. -/
def message (f : Fault) : String :=
  match f.cause with
  | .undefinedName _ =>
    "Referenced groupname does not exist / it is not defined with @apiDefine."
  | .noVersion _ _ _ => "Referenced definition has no matching or a higher version. " ++
      "Check version number in referenced define block."
  | .tooDeep _ => "recursion depth exceeds limit with @" ++ f.usage.tag
  | .keyless kind => "cannot access key \"url\" in JSON " ++ kind

/-- The details of a cause. -/
def causeDetails : Cause → Log.Details
  | .undefinedName name => [("Groupname", name)]
  | .noVersion name version defined =>
    [("Groupname", name), ("Version", version), ("Defined versions", Text.join ", " defined)]
  | .tooDeep name => [("Groupname", name)]
  | .keyless _ => []

/-- Whether the program breaks off at a fault, and reports nothing. -/
def breaksOff (f : Fault) : Bool :=
  match f.cause with
  | .keyless _ => true
  | _ => false

/-- The details of a fault. -/
def details (f : Fault) : Log.Details :=
  [("File", f.file), ("Block", toString f.block), ("Element", "@" ++ f.usage.tag)] ++
  causeDetails f.cause ++
  [("Definition", f.usage.form), ("Example", f.usage.sample)].filter fun (_, text) => !text.isEmpty

end Fault

/-- What a stage may look at besides the block. -/
structure Context where
  definitions : Definitions
  defaultVersion : String
  sampleUrl : Option String

namespace Context

/-- The version of a block. -/
def versionOf (c : Context) (b : Block) : String := b.version?.getD c.defaultVersion

/-- The definition of a name for a block; nothing for unknown names. -/
def find (c : Context) (b : Block) (name : String) : Except Cause (Option Definition) :=
  match c.definitions.lookup name (c.versionOf b) c.defaultVersion with
  | .unknown => .ok none
  | .found d => .ok (some d)
  | .noMatch defined => .error (.noVersion name (c.versionOf b) defined)

end Context

/-- What a stage makes of a block, and what stopped it. -/
abbrev Result := Block × Option Cause

/-- The block with new data of its own, unless something stopped the stage. -/
def withOwn (b : Block) (own : Except Cause Fields) : Result :=
  match own with
  | .ok own => ({ b with own }, none)
  | .error cause => (b, some cause)

end Resolve
end Docblock
