/-
# Making a documentation

A run reads all inputs, resolves the references between their blocks, and
writes the records of the endpoints and what is known about the project. It
ends with both texts, with nothing, or with a fault that it reports in the
log; or the program breaks off in the middle.

Key definitions: `Documentation.Outcome`, `Documentation.Stop`,
`Documentation.run`, `Documentation.make`.
-/
import Docblock.Json.Printer
import Docblock.Record.Field
import Docblock.Record.Mqtt
import Docblock.Record.Order
import Docblock.Resolve.Stage
import Docblock.Source.Folder

namespace Docblock
namespace Documentation

/-- How a run ends. -/
inductive Outcome where
  /-- The records and the project. -/
  | data (records project : String)
  /-- No input has documentation. -/
  | nothing
  /-- The log says why. -/
  | failed
  /-- The program breaks off with this message, and the log does not say so. -/
  | broken (message : String)
  deriving DecidableEq, Repr

/-- What stops a run. -/
inductive Fault where
  | filter (pattern : String)
  | files (fault : FileFault)
  | source (fault : Source.Fault)
  | resolve (fault : Resolve.Fault)
  /-- A payload of the record of this name has no valid schema. -/
  | schema (record : String)

/-- What ends a run before its time: a fault that is reported, or that the
program breaks off. -/
inductive Stop where
  | fault (fault : Fault)
  | broken (message : String)

/-- The end of a run for a fault of the resolution. -/
def Stop.ofResolve (fault : Resolve.Fault) : Stop :=
  if fault.breaksOff then .broken fault.message else .fault (.resolve fault)

/-- What a sort says that finds that the comparison is no order. -/
def noOrder : String := "user-provided comparison function does not correctly implement a total order"

/-- The record of a fault in the log. -/
def Fault.record : Fault → Log.Record
  | .filter pattern => { level := .error, message := "Invalid file filter '" ++ pattern ++ "': no pattern" }
  | .files f => { level := .error, message := f.message, details := [("Path", f.path)] }
  | .source f => { level := .error, message := f.cause.message, details := f.details }
  | .resolve f => { level := .error, message := f.message, details := f.details }
  | .schema name =>
    { level := .error, message := "Invalid MQTT payload schema in " ++ name ++ ": no value" }

/-- The fault of a run for a fault of a folder. -/
def Fault.ofFolder : Source.FolderFault → Fault
  | .files f => .files f
  | .source f => .source f

/-- The version of the format that is written. -/
def formatVersion : String := "4.0.0"

/-- The mark of what wrote a documentation, at a time. -/
def generatorAt (time : String) : Generator where
  name := "apidoc"
  time
  url := "https://apidocts.com"
  version := "0.1.0"

/-- What sources are read with. -/
def setupFor (o : Options) (render : Markdown.Renderer) (tree : FileTree) : Source.Setup :=
  { Source.Setup.builtin tree with
    markdown := if o.markdown then some render else none
    includePrivate := o.includePrivate
    filter := o.filterBy.bind Source.Filter.read? }

/-- The category whose written documents are looked at too. -/
def documentCategory : String := "docs"

/-- Reads all inputs. -/
def readInputs (s : Source.Setup) (o : Options) (tree : FileTree) (filter : FileFilter) :
    List Input → Source.Reading Fault (List (String × BlockFile))
  | [] => pure []
  | input :: inputs => do
    let chooser ← if input.category == some documentCategory then do
        Source.Reading.say .verbose "Added markdown file filters for 'docs' category"
        Source.Reading.ofExcept ((filter.including FileFilter.documentFiles).mapError .filter)
      else pure filter
    let files ← (Source.readFolder s tree chooser o.encoding input).mapFault Fault.ofFolder
    return files ++ (← readInputs s o tree filter inputs)

/-- The sorted records that are published, or what is wrong with them, with the
log behind the one so far. -/
def publishable (o : Options) (sorted : List Fields) (log : List Log.Entry) :
    Except Stop (List Fields) × List Log.Entry :=
  let kept := if o.mqttOnly then sorted.filter Record.isMqtt else sorted
  let log := log ++ if o.mqttOnly then [Log.say .verbose ("MQTT-only mode: filtered to " ++
    toString kept.length ++ " MQTT endpoints")] else []
  if o.failOnMqttSchemaError then
    match Record.invalidSchema? kept with
    | some record => (.error (.fault (.schema (Record.text "name" record))), log)
    | none => (.ok kept, log ++ [Log.say .verbose ("MQTT schema validation passed for " ++
        toString (kept.filter Record.hasTopic).length ++ " endpoints")])
  else (.ok kept, log)

/-- The records of the blocks, or what stopped them, with the log. -/
def recordsOf (o : Options) (p : Package) (files : List (String × BlockFile)) :
    Except Stop (List Fields) × List Log.Entry :=
  if files.isEmpty then (.ok [], [])
  else
    let r := Resolve.process p (files.map Prod.snd) (files.map Prod.fst)
    let log := Log.say .verbose "run worker" :: r.log
    match r.fault with
    | some fault => (.error (.ofResolve fault), log)
    | none =>
      let log := log ++ Log.say .verbose "run filter" :: Record.dedupLog
      match Record.sort? (Record.ofFiles r.files) with
      | none => (.error (.broken noOrder), log)
      | some sorted => publishable o sorted log

/-- The text with the given line ends. -/
def withLineEnding (e : LineEnding) (text : String) : String := Text.replace "\n" e.text text

/-- The project as it is written. -/
def projectText (p : Package) (time : String) : String :=
  ({ p with format := some formatVersion, generator := some (generatorAt time) }).toJson.pretty

/-- The texts of a documentation. -/
def textsOf (o : Options) (p : Package) (time : String) (records : List Fields) : Outcome :=
  .data (withLineEnding o.lineEnding (Json.arr (records.map .obj)).pretty)
    (withLineEnding o.lineEnding (projectText p time))

/-- A run, with its log. -/
def run (o : Options) (p : Package) (render : Markdown.Renderer) (tree : FileTree) (time : String) :
    Except Stop Outcome × List Log.Entry :=
  match FileFilter.ofTexts o.wanted o.unwanted with
  | .error pattern => (.error (.fault (.filter pattern)), [])
  | .ok filter =>
    let reading := readInputs (setupFor o render tree) o tree filter o.inputs {}
    let log := Log.say .verbose "run parser" :: reading.log
    match reading.result with
    | .error fault => (.error (.fault fault), log)
    | .ok files =>
      match recordsOf o p files with
      | (.error stop, more) => (.error stop, log ++ more)
      | (.ok records, more) =>
        if files.isEmpty && !p.hasDocumentation then (.ok .nothing, log ++ more)
        else (.ok (textsOf o p time records), log ++ more ++ if files.isEmpty then
          [Log.say .info "Generating documentation from markdown files only (no API endpoints)"]
          else [])

/-- A run that reports its fault in the log, unless the program breaks off. -/
def make (o : Options) (p : Package) (render : Markdown.Renderer) (tree : FileTree) (time : String) :
    Outcome × List Log.Entry :=
  match run o p render tree time with
  | (.ok outcome, log) => (outcome, log)
  | (.error (.fault fault), log) => (.failed, log ++ [.record fault.record])
  | (.error (.broken message), log) => (.broken message, log)

end Documentation
end Docblock
