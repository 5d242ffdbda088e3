/-
# The stages of the resolution

References are resolved in stages, one after the other, each over all blocks.
A stage looks up definitions as the stages before it left them.

Key definitions: `Resolve.Stage`, `Resolve.stages`, `Resolve.process`.
-/
import Docblock.Resolve.Endpoint
import Docblock.Resolve.Merge
import Docblock.Resolve.Title

namespace Docblock
namespace Resolve

/-- What a stage does to a block. -/
inductive Action where
  | titles (target : String)
  | permissions
  | sampleRequests
  | merge (target : String)
  | name
  | group
  deriving DecidableEq, Repr

/-- A block after an action. -/
def Action.apply (c : Context) (filename : String) (b : Block) : Action → Result
  | .titles target => Resolve.titles c target b
  | .permissions => Resolve.permissions c b
  | .sampleRequests => Resolve.sampleRequests c b
  | .merge target => mergeReferences c target b
  | .name => (defaultName b, none)
  | .group => Resolve.group c filename b

/-- A stage: its name in the log, what it does, and how its tag is written. -/
structure Stage where
  name : String
  action : Action
  usage : Tag.Usage

/-- The stage that sets titles for the fields of a tag. -/
def titleStage (name target tag definition title field : String) : Stage :=
  ⟨name, .titles target, ⟨tag, "@" ++ tag ++ " (group) varname",
    "@apiDefine " ++ definition ++ " " ++ title ++ "\n@" ++ tag ++ " (" ++ definition ++ ") " ++
      field⟩⟩

/-- The usage of a tag that names a definition. -/
def namingUsage (tag definition : String) : Tag.Usage :=
  ⟨tag, "@" ++ tag ++ " group",
    "@apiDefine " ++ definition ++ " Some title\n@" ++ tag ++ " " ++ definition⟩

/-- The stage that follows the references of a tag. -/
def mergeStage (name target tag definition : String) : Stage :=
  ⟨name, .merge target, namingUsage tag definition⟩

/-- All stages, in order. -/
def stages : List Stage := [
  titleStage "apibodytitle" "body" "apiBody" "MyValidParamGroup" "Some title" "username",
  titleStage "apierrortitle" "error" "apiError" "MyValidErrorGroup" "Some title or 40X Error"
    "username",
  titleStage "apiheadertitle" "header" "apiHeader" "MyValidHeaderGroup" "Some title"
    "Content-Type",
  titleStage "apiparamtitle" "parameter" "apiParam" "MyValidParamGroup" "Some title" "username",
  titleStage "apiquerytitle" "query" "apiQuery" "MyValidParamGroup" "Some title" "username",
  titleStage "apisuccesstitle" "success" "apiSuccess" "MyValidSuccessGroup"
    "Some title or 200 OK" "username",
  ⟨"apipermission", .permissions, namingUsage "apiPermission" "MyValidPermissionGroup"⟩,
  ⟨"apisamplerequest", .sampleRequests,
    ⟨"apiSampleRequest", "@apiSampleRequest url", ""⟩⟩,
  mergeStage "apistructure" "structure" "apiStructure" "MyValidStructureGroup",
  mergeStage "apisuccessstructure" "successStructure" "apiSuccessStructure"
    "MyValidSuccessStructureGroup",
  mergeStage "apierrorstructure" "errorStructure" "apiErrorStructure"
    "MyValidErrorStructureGroup",
  mergeStage "apiheaderstructure" "headerStructure" "apiHeaderStructure"
    "MyValidHeaderStructureGroup",
  mergeStage "apiuse" "use" "apiUse" "MyValidGroup",
  ⟨"apiname", .name, ⟨"apiName", "@apiName name", ""⟩⟩,
  ⟨"apigroup", .group, namingUsage "apiGroup" "MyValidGroup"⟩]

/-- A stage on one block, with the fault that stopped it. -/
def Stage.apply (s : Stage) (c : Context) (filename : String) (b : Block) : Block × Option Fault :=
  let (after, cause) := s.action.apply c filename b
  (after, cause.map fun cause => ⟨cause, filename, b.index, s.usage⟩)

/-- Goes through blocks until one stops it. -/
def throughBlocks (f : Block → Block × Option Fault) : List Block → List Block × Option Fault
  | [] => ([], none)
  | b :: bs =>
    match f b with
    | (b, some fault) => (b :: bs, some fault)
    | (b, none) =>
      let (bs, fault) := throughBlocks f bs
      (b :: bs, fault)

/-- Goes through files, each with its name, until a block stops it. -/
def throughFiles (f : String → Block → Block × Option Fault) :
    List BlockFile → List String → List BlockFile × Option Fault
  | file :: files, filename :: filenames =>
    match throughBlocks (f filename) file with
    | (file, some fault) => (file :: files, some fault)
    | (file, none) =>
      let (files, fault) := throughFiles f files filenames
      (file :: files, fault)
  | files, _ => (files, none)

/-- What the resolution gives: the blocks as far as it came, what stopped it,
and its log. -/
structure Resolution where
  files : List BlockFile
  fault : Option Fault
  log : List Log.Entry

/-- What the stages see of the blocks. -/
def contextOf (p : Package) (files : List BlockFile) : Context where
  definitions := .collect p.defaultVersion files
  defaultVersion := p.defaultVersion
  sampleUrl := p.sampleUrl

/-- Runs stages one after the other, until a block stops them. -/
def runStages (p : Package) (filenames : List String) :
    List Stage → List BlockFile → Resolution
  | [], files => ⟨files, none, []⟩
  | s :: rest, files =>
    let entry := Log.say .verbose ("worker postProcess: " ++ s.name)
    match throughFiles (s.apply (contextOf p files)) files filenames with
    | (files, some fault) => ⟨files, some fault, [entry]⟩
    | (files, none) =>
      let r := runStages p filenames rest files
      { r with log := entry :: r.log }

/-- Blocks with their defaults; files without a name stay as they are. -/
def fillDefaults (p : Package) : List BlockFile → List String → List BlockFile
  | file :: files, filename :: filenames =>
    file.map (withDefaults p.defaultVersion filename) :: fillDefaults p files filenames
  | files, _ => files

/-- Resolves the references of all blocks. -/
def process (p : Package) (files : List BlockFile) (filenames : List String) : Resolution :=
  let files := fillDefaults p files filenames
  let size := (Definitions.collect p.defaultVersion files).size
  let r := runStages p filenames stages files
  { r with log := [Log.say .verbose "worker preProcess: apidefine",
      Log.say .debug ("definitions found: " ++ toString size)] ++ r.log }

end Resolve
end Docblock
