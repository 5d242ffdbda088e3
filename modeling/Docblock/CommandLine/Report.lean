/-
# Reports

What a call of the program does, as a value: the status it ends with, what it
prints, what it writes, and its log. It finds the folders and the description
of the project, makes the documentation, and prints or writes it.

Key definitions: `CommandLine.Report`, `CommandLine.expandInputs`,
`CommandLine.readPackage`, `CommandLine.perform`, `CommandLine.call`.
-/
import Docblock.CommandLine.Request
import Docblock.Documentation
import Docblock.Glob
import Docblock.Markdown.Html

namespace Docblock
namespace CommandLine

/-- What stops a call. -/
inductive Fault where
  | badGlob (pattern : String)
  | unreadable (path : String)
  | badProject (path : String)
  | notGenerated
  | noFolder (path : String)
  | unwritable (path : String)
  deriving DecidableEq, Repr

/-- The wording of a fault. -/
def Fault.message : Fault → String
  | .badGlob pattern => "invalid glob pattern: " ++ pattern
  | .unreadable path => "failed to read " ++ path
  | .badProject path => "invalid project file: " ++ path
  | .notGenerated => "documentation could not be generated"
  | .noFolder path => "failed to create output directory: " ++ path
  | .unwritable path => "failed to write " ++ path

/-- What a call of the program does. -/
structure Report where
  /-- The status at the end: 0, 1 after a fault, 2 after a wrong command line,
  101 if the program breaks off. -/
  status : Nat := 0
  /-- What is printed. -/
  output : String := ""
  /-- What is wrong, if anything. -/
  failure : Option String := none
  /-- The files that are written, in order, with their texts. -/
  files : List (String × String) := []
  log : List Log.Entry := []
  deriving DecidableEq, Repr

/-- An entry of the log as it is shown. -/
def showEntry : Log.Entry → String
  | .record r => Text.upper r.level.name ++ " " ++ r.message ++ Log.renderDetails r.details ++ "\n"
  | .remark message => "WARN " ++ message ++ "\n"

/-- What is shown beside the output: the log, and what is wrong. -/
def Report.remarks (r : Report) : String :=
  String.join (r.log.map showEntry) ++
    match r.failure with
    | none => ""
    | some message =>
      if r.status == 2 then
        "error: " ++ message ++ "\n\n" ++ usageText ++ "\n\nFor more information, try '--help'.\n"
      else if r.status == 101 then message ++ "\n"
      else "Error: " ++ message ++ "\n"

/-! ### Inputs -/

/-- The inputs that a text stands for: itself, or the folders that it fits as a
glob. -/
def expandInput (tree : FileTree) (text : String) : Except Fault (List Input) :=
  let input := Input.ofText text
  if tree.contains input.path || !Glob.isOpen input.path then .ok [input]
  else match Glob.ofText? input.path with
    | none => .error (.badGlob input.path)
    | some g => .ok ((g.folders tree).map fun path => { input with path })

/-- The inputs that texts stand for, with a warning for each that stands for
none. -/
def expandInputs (tree : FileTree) :
    List String → Except Fault (List Input × List Log.Entry)
  | [] => .ok ([], [])
  | text :: texts => do
    let found ← expandInput tree text
    let (inputs, log) ← expandInputs tree texts
    let warning := if found.isEmpty then
      [Log.say .warn ("no directories matched: " ++ (Input.ofText text).path)] else []
    return (found ++ inputs, warning ++ log)

/-! ### The project -/

/-- The name of files that describe a project. -/
def projectFile : String := "apidoc.json"

/-- The file that describes the project: the one that was given, or the first
one in the working folder and the inputs. -/
def projectPath? (tree : FileTree) (config : Option String) (inputs : List Input) : Option String :=
  match config with
  | some path => some path
  | none => (projectFile :: inputs.map fun input => Path.join input.path projectFile).find? tree.isFile

/-- The description of the project; without a file, the default. -/
def readPackage (tree : FileTree) (config : Option String) (inputs : List Input) :
    Except Fault Package :=
  match projectPath? tree config inputs with
  | none => .ok {}
  | some path =>
    match tree.readText? path with
    | none => .error (.unreadable path)
    | some text =>
      match Package.ofText? text with
      | none => .error (.badProject path)
      | some package => .ok package

/-! ### The result -/

/-- The report of a fault. -/
def failed (fault : Fault) (files : List (String × String)) (log : List Log.Entry) : Report :=
  { status := 1, failure := some fault.message, files, log }

/-- The files that can be written before the first that is a folder, and that
one. -/
def writable (tree : FileTree) : List (String × String) → List (String × String) × Option String
  | [] => ([], none)
  | (path, text) :: files =>
    if tree.isFolder path then ([], some path)
    else
      let (written, fault) := writable tree files
      ((path, text) :: written, fault)

/-- Prints the records, or writes both texts into a folder. -/
def publish (tree : FileTree) (folder : Option String) (records project : String)
    (log : List Log.Entry) : Report :=
  match folder with
  | none => { output := records ++ "\n", log }
  | some folder =>
    if !tree.canHold folder then failed (.noFolder folder) [] log
    else match writable tree [(Path.join folder "api_data.json", records),
        (Path.join folder "api_project.json", project)] with
      | (files, some path) => failed (.unwritable path) files log
      | (files, none) =>
        { files, log := log ++ [Log.say .info ("Done. Output written to " ++ folder)] }

/-- What is done on a request. -/
def perform (request : Request) (tree : FileTree) (time : String) : Report :=
  match expandInputs tree request.inputs with
  | .error fault => failed fault [] []
  | .ok (inputs, warnings) =>
    match readPackage tree request.config inputs with
    | .error fault => failed fault [] warnings
    | .ok package =>
      let options := { request.options with inputs }
      let (outcome, log) := Documentation.make options package Markdown.toHtml tree time
      let log := warnings ++ log
      match outcome with
      | .data records project => publish tree request.output records project log
      | .nothing => { log := log ++ [Log.say .info "Nothing to do."] }
      | .failed => failed .notGenerated [] log
      | .broken message => { status := 101, failure := some message, log }

/-- What a call with these words does. Only records that matter enough stay in
the log. -/
def call (words : List String) (tree : FileTree) (time : String) : Report :=
  match Order.ofWords words with
  | .error fault => { status := 2, failure := some fault.message }
  | .ok .help => { output := helpText }
  | .ok .version => { output := versionText }
  | .ok (.run given) =>
    let request := Request.ofGiven given
    let report := perform request tree time
    { report with log := report.log.filter fun entry => request.level.rank ≤ entry.level.rank }

end CommandLine
end Docblock
