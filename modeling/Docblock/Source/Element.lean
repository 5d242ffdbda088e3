/-
# Reading the elements of a block

Each element is read by its tag, its Markdown is rendered, and its value
joins the block at the path of the tag. A block shares data under at most
one name.

Key definitions: `Source.readElement`, `Source.readBlock`,
`Source.readBlocks`.
-/
import Docblock.Category
import Docblock.Source.Basic

namespace Docblock
namespace Source

open Pattern

/-- A block that is being read: how many values it shares so far is counted. -/
structure Draft where
  block : Block := {}
  sharedCount : Nat := 0

/-- A property in square brackets. -/
def bracketPattern : Pattern :=
  all [.one fun c => !Text.isBlank c && c != ':', lit "[", .one (· != ']')]

/-- The value with its Markdown fields rendered. -/
def renderFields (s : Setup) (tag : Tag) (value : Json) : Json :=
  match s.markdown with
  | none => value
  | some render => tag.markdownFields.foldl (fun value field =>
    match ((value.getPath? field).bind Json.str?).filter fun text => !text.isEmpty with
    | none => value
    | some text =>
      value.setPath field
        (.str (Markdown.renderField render text (tag.removePTags.contains field)))) value

/-- Counts a use of a deprecated tag, and gives the number of uses so far. -/
def countDeprecated (name : String) (m : Tag.Memory) : Tag.Memory × Nat :=
  let count := ((m.deprecatedCounts.find? fun entry => entry.1 == name).map Prod.snd).getD 0 + 1
  ({ m with deprecatedCounts :=
      (name, count) :: m.deprecatedCounts.filter fun entry => entry.1 != name }, count)

/-- Warns of a deprecated tag, at its first use only. -/
def noteDeprecated (tag : Tag) (e : Element) (index : Nat) (file : String) : Reading Fault Unit := do
  if tag.deprecated then
    let (after, count) := countDeprecated e.sourceName (← Reading.memory)
    Reading.remember fun _ => after
    let message := "@" ++ e.sourceName ++ " is deprecated" ++ (match tag.alternative with
      | some alternative => ", please use " ++ alternative
      | none => "")
    Reading.say (if count == 1 then .warn else .verbose) message
    Reading.say .verbose ("in file: " ++ file ++ ", block: " ++ toString index)

/-- Reads the value of an element with its tag. -/
def readValue (tag : Tag) (e : Element) : Reading Fault (Except Cause Json) := fun memory =>
  let reply := tag.read e.content e.source memory
  let value := match reply.result with
    | .ok (some value) => if value.isFalsy then .error .emptyResult else .ok value
    | .ok none => .error .emptyResult
    | .error fault => .error (.tag fault)
  ⟨.ok value, reply.memory, reply.remarks.map .remark⟩

/-- Whether a path leads to the shared data of the block. -/
def isShared (path : String) : Bool :=
  path == "global" || Text.startsWith path "global."

/-- Joins a value to the block at the path of its tag, or says why it cannot. -/
def Draft.join (d : Draft) (tag : Tag) (path : String) (value : Json) (position : Nat) :
    Except Cause Draft :=
  if tag.preventGlobal && d.sharedCount < d.block.shared.length then .error .onlyOneUsage
  else if isShared path && !tag.allowMultiple && !d.block.shared.isEmpty then
    .error .onlyOneDefinition
  else
    let block := if tag.extendRoot then d.block.extendRoot value else d.block
    match block.attach path tag.method value with
    | (_, false) => .error (.otherShape path)
    | (block, true) => .ok {
        block := { block with index := position }
        sharedCount := if isShared path then d.sharedCount + 1 else d.sharedCount }

/-- Whether the category of the folder leaves out a tag. -/
def leavesOut (category : Option String) (name : String) : Bool :=
  category.any fun c => !Category.allows c name

/-- Reads one element of the block at position `index` from zero. -/
def readElement (s : Setup) (file : String) (index : Nat) (d : Draft) (e : Element) :
    Reading Fault Draft := do
  let stop (cause : Cause) : Reading Fault Draft :=
    Reading.fail ⟨cause, file, index + 1, e.sourceName, e.source⟩
  let category := (← Reading.memory).category
  if leavesOut category e.name then
    Reading.say .debug ("Skipping parser '" ++ e.name ++ "' for category '" ++ category.getD "" ++
      "' in block: '" ++ toString index ++ "'")
    return d
  match s.registry.find? e.name with
  | none =>
    Reading.say .warn ("parser plugin '" ++ e.name ++ "' not found in block: '" ++ toString index ++
      "' in file: '" ++ file ++ "'")
    return d
  | some tag =>
    if !Text.endsWith e.sourceName "Example" && bracketPattern.occursIn e.source then
      Reading.say .warn ("The use of square brackets for object properties is deprecated. " ++
        "Please use dot notation instead: \"" ++ e.source ++ "\"")
    Reading.say .debug ("found @" ++ e.sourceName ++ " in block: " ++ toString index)
    noteDeprecated tag e index file
    match ← readValue tag e with
    | .error cause => stop cause
    | .ok value =>
      match (tag.path (← Reading.memory)).filter fun path => !path.isEmpty with
      | none => stop .noPath
      | some path =>
        match d.join tag path (renderFields s tag value) (index + 1) with
        | .error cause => stop cause
        | .ok d => return d

/-- Reads the elements of one block, in order. -/
def readBlock (s : Setup) (file : String) (index : Nat) (es : List Element) : Reading Fault Block := do
  let d ← es.foldlM (readElement s file index) {}
  return d.block

/-- Reads the chosen blocks; those in which nothing was written are left out. -/
def readBlocks (s : Setup) (file : String) : List (Nat × List Element) → Reading Fault (List Block)
  | [] => pure []
  | (index, es) :: rest => do
    let block ← readBlock s file index es
    let blocks ← readBlocks s file rest
    return if block.index == 0 then blocks else block :: blocks

end Source
end Docblock
