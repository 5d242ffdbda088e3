/-
# Switches

The switches of the command line: how each is written, whether it takes a
value and which, and what it is for. The help text is made from them.

Key definitions: `CommandLine.Switch`, `CommandLine.switches`,
`CommandLine.helpText`.
-/
import Docblock.Options

namespace Docblock
namespace CommandLine

/-- What a switch is about. -/
inductive Key where
  | input
  | output
  | config
  | wanted
  | unwanted
  | filterBy
  | includePrivate
  | mqttOnly
  | failOnMqttSchemaError
  | encoding
  | lineEnding
  | noMarkdown
  | verbose
  | debug
  | quiet
  | help
  | version
  deriving DecidableEq, Repr

/-- What values a switch takes. -/
inductive Values where
  | none
  | text
  /-- A text that is not empty. -/
  | path
  | oneOf (names : List String)
  deriving DecidableEq, Repr

/-- Whether a value is among those. -/
def Values.accepts (value : String) : Values → Bool
  | none => value.isEmpty
  | text => true
  | path => !value.isEmpty
  | oneOf names => names.contains value

/-- A switch of the command line. -/
structure Switch where
  key : Key
  long : String
  short : Option Char := none
  values : Values := .none
  /-- The name of its value in the help text. -/
  label : String := ""
  /-- Whether it may be given more than once. -/
  repeats : Bool := false
  default : Option String := none
  about : String
  deriving DecidableEq, Repr

/-- All switches, in the order of the help text. -/
def switches : List Switch := [
  { key := .input, long := "input", short := some 'i', values := .text, label := "INPUTS",
    repeats := true, default := some ".",
    about := "Input directory, optionally with a category (\x60src/mqtt:mqtt\x60). Glob patterns " ++
      "are expanded. Can be given multiple times" },
  { key := .output, long := "output", short := some 'o', values := .path, label := "OUTPUT",
    about := "Output directory for api_data.json and api_project.json. Without it the endpoint " ++
      "data is printed to stdout" },
  { key := .config, long := "config", short := some 'c', values := .path, label := "CONFIG",
    about := "Project metadata file (default: apidoc.json in the working or input directory)" },
  { key := .wanted, long := "file-filters", short := some 'f', values := .text,
    label := "FILE_FILTERS", repeats := true,
    about := "Regex a file path must match to be parsed. Can be given multiple times" },
  { key := .unwanted, long := "exclude-filters", short := some 'e', values := .text,
    label := "EXCLUDE_FILTERS", repeats := true,
    about := "Regex excluding matching file paths. Can be given multiple times" },
  { key := .filterBy, long := "filter-by", values := .text, label := "FILTER_BY",
    about := "Keep only blocks with a matching tag, e.g. \x60apiGroup=User\x60" },
  { key := .includePrivate, long := "private", short := some 'p',
    about := "Include blocks marked with @apiPrivate" },
  { key := .mqttOnly, long := "mqtt-only", about := "Output MQTT endpoints only" },
  { key := .failOnMqttSchemaError, long := "fail-on-mqtt-schema-error",
    about := "Fail when an inline MQTT payload schema is not valid JSON" },
  { key := .encoding, long := "encoding", values := .oneOf (Encoding.names.map Prod.fst),
    label := "ENCODING", default := some "utf8", about := "Source file encoding" },
  { key := .lineEnding, long := "line-ending", values := .oneOf (LineEnding.names.map Prod.fst),
    label := "LINE_ENDING", about := "Line ending of the generated JSON (default: platform)" },
  { key := .noMarkdown, long := "no-markdown",
    about := "Keep description fields as written instead of rendering markdown" },
  { key := .verbose, long := "verbose", short := some 'v', about := "Verbose output" },
  { key := .debug, long := "debug", about := "Debug output" },
  { key := .quiet, long := "quiet", short := some 'q', about := "Errors only" },
  { key := .help, long := "help", short := some 'h', about := "Print help" },
  { key := .version, long := "version", short := some 'V', about := "Print version" }]

namespace Switch

/-- The switch of a long name. -/
def ofLong? (name : String) : Option Switch := switches.find? fun s => s.long == name

/-- The switch of a letter. -/
def ofShort? (c : Char) : Option Switch := switches.find? fun s => s.short == some c

/-- Whether a value follows the switch. -/
def takesValue (s : Switch) : Bool := s.values != .none

/-- The long form with the name of the value. -/
def form (s : Switch) : String :=
  "--" ++ s.long ++ if s.takesValue then " <" ++ s.label ++ ">" else ""

/-- What a switch is for, with its default and its choices. -/
def explanation (s : Switch) : String :=
  let default := match s.default with
    | some value => " [default: " ++ value ++ "]"
    | none => ""
  let choices := match s.values with
    | .oneOf names => " [possible values: " ++ Text.join ", " names ++ "]"
    | _ => ""
  s.about ++ default ++ choices

/-- The lines of a switch in the help text. -/
def help (s : Switch) : String :=
  let lead := match s.short with
    | some c => "  -" ++ String.singleton c ++ ", "
    | none => "      "
  lead ++ s.form ++ "\n          " ++ s.explanation ++ "\n"

end Switch

/-- How the program is called. -/
def usageText : String := "Usage: apidoc [OPTIONS]"

/-- The help text. -/
def helpText : String :=
  "Extract API documentation from comment blocks\n\n" ++ usageText ++ "\n\nOptions:\n" ++
    String.join (switches.map Switch.help)

/-- The version text. -/
def versionText : String := "apidoc 0.1.0\n"

end CommandLine
end Docblock
