/-
# Requests

The words of the command line, read from the left: long switches with their
value behind `=` or in the next word, letters that may stand together behind
one dash, and nothing else. The first word that is wrong decides, unless help
or the version was asked for before it.

Key definitions: `CommandLine.Order`, `CommandLine.Order.ofWords`,
`CommandLine.Request`, `CommandLine.Request.ofGiven`.
-/
import Docblock.CommandLine.Switch
import Docblock.Log

namespace Docblock
namespace CommandLine

/-- The switches that were given, in order, with their values. -/
abbrev Given := List (Key × String)

/-- What the command line asks for. -/
inductive Order where
  | run (given : Given)
  | help
  | version
  deriving DecidableEq, Repr

/-- What is wrong with a command line. -/
inductive UsageFault where
  | unexpected (word : String)
  | missingValue (s : Switch)
  | unneededValue (s : Switch) (value : String)
  | badValue (s : Switch) (value : String)
  | repeated (s : Switch)
  deriving DecidableEq, Repr

/-- The wording of a fault. -/
def UsageFault.message : UsageFault → String
  | .unexpected word => "unexpected argument '" ++ word ++ "' found"
  | .missingValue s => "a value is required for '" ++ s.form ++ "' but none was supplied"
  | .unneededValue s value =>
    "unexpected value '" ++ value ++ "' for '" ++ s.form ++ "' found; no more were expected"
  | .badValue s value => "invalid value '" ++ value ++ "' for '" ++ s.form ++ "'"
  | .repeated s => "the argument '" ++ s.form ++ "' cannot be used multiple times"

/-! ### Words -/

/-- Where reading stands after a word. -/
inductive Step where
  | next (given : Given)
  /-- The next word is the value of the switch. -/
  | value (s : Switch) (given : Given)
  | stop (order : Order)
  deriving DecidableEq, Repr

/-- A switch is given with a value. -/
def give (s : Switch) (value : String) (given : Given) : Except UsageFault Step :=
  if s.key == .help then .ok (.stop .help)
  else if s.key == .version then .ok (.stop .version)
  else if !s.repeats && given.any (fun entry => entry.1 == s.key) then .error (.repeated s)
  else if !s.values.accepts value then .error (.badValue s value)
  else .ok (.next (given ++ [(s.key, value)]))

/-- Reads a long switch, written without its dashes. -/
def readLong (text : String) (given : Given) : Except UsageFault Step :=
  let (name, attached) := match Text.cutOnce? "=" text with
    | some (name, value) => (name, some value)
    | none => (text, none)
  match Switch.ofLong? name with
  | none => .error (.unexpected ("--" ++ name))
  | some s =>
    match s.takesValue, attached with
    | true, some value => give s value given
    | true, none => .ok (.value s given)
    | false, some value => .error (.unneededValue s value)
    | false, none => give s "" given

/-- Reads letters that stand together. One that takes a value takes what
follows it, without an equals sign in front. -/
def readLetters : List Char → Given → Except UsageFault Step
  | [], given => .ok (.next given)
  | c :: rest, given =>
    match Switch.ofShort? c with
    | none => .error (.unexpected ("-" ++ String.singleton c))
    | some s =>
      if s.takesValue then
        match rest with
        | [] => .ok (.value s given)
        | '=' :: value => give s (String.ofList value) given
        | value => give s (String.ofList value) given
      else match give s "" given with
        | .ok (.next given) => readLetters rest given
        | step => step

/-- Whether a word is written as a switch; a dash alone is not. -/
def isSwitch (word : String) : Bool := Text.startsWith word "-" && word != "-"

/-- Reads a word that is written as a switch. -/
def readSwitch (word : String) (given : Given) : Except UsageFault Step :=
  match Text.strip? "--" word with
  | some text => readLong text given
  | none => readLetters (word.toList.drop 1) given

/-- Reads all words. Two dashes end the switches, and nothing may follow. -/
def readWords : List String → Given → Except UsageFault Order
  | [], given => .ok (.run given)
  | word :: words, given =>
    if word == "--" then
      match words with
      | [] => .ok (.run given)
      | word :: _ => .error (.unexpected word)
    else if !isSwitch word then .error (.unexpected word)
    else match readSwitch word given with
      | .error fault => .error fault
      | .ok (.stop order) => .ok order
      | .ok (.next given) => readWords words given
      | .ok (.value s given) =>
        match words with
        | [] => .error (.missingValue s)
        | value :: words =>
          if isSwitch value then .error (.missingValue s)
          else match give s value given with
            | .error fault => .error fault
            | .ok (.next given) => readWords words given
            | .ok (.value s _) => .error (.missingValue s)
            | .ok (.stop order) => .ok order

/-- What a command line asks for. -/
def Order.ofWords (words : List String) : Except UsageFault Order := readWords words []

/-! ### Requests -/

namespace Given

/-- The values of a switch. -/
def values (key : Key) (given : Given) : List String :=
  given.filterMap fun entry => if entry.1 == key then some entry.2 else none

/-- The value of a switch. -/
def value? (key : Key) (given : Given) : Option String := (values key given).head?

/-- Whether a switch was given. -/
def has (key : Key) (given : Given) : Bool := given.any fun entry => entry.1 == key

/-- What the value of a switch names. -/
def named? (key : Key) (names : List (String × α)) (given : Given) : Option α :=
  (value? key given).bind fun name =>
    (names.find? fun entry => entry.1 == name).map Prod.snd

end Given

/-- What a run is asked to do. -/
structure Request where
  /-- Folders or globs, as they were written. -/
  inputs : List String
  /-- Where the documentation is written; it is printed otherwise. -/
  output : Option String
  /-- The file that describes the project. -/
  config : Option String
  /-- The options apart from the inputs. -/
  options : Options
  /-- The least level of the records that are shown. -/
  level : Log.Level

namespace Request

/-- The least level of the records that are shown. -/
def levelOf (given : Given) : Log.Level :=
  if given.has .quiet then .error
  else if given.has .debug then .debug
  else if given.has .verbose then .verbose
  else .info

/-- The request of the given switches; what was not given has its default. -/
def ofGiven (given : Given) : Request :=
  let start : Options := {}
  let orElse (values default : List String) := if values.isEmpty then default else values
  { inputs := orElse (given.values .input) ["."]
    output := given.value? .output
    config := given.value? .config
    options := {
      wanted := orElse (given.values .wanted) start.wanted
      unwanted := given.values .unwanted
      encoding := (given.named? .encoding Encoding.names).getD start.encoding
      lineEnding := (given.named? .lineEnding LineEnding.names).getD start.lineEnding
      filterBy := given.value? .filterBy
      includePrivate := given.has .includePrivate
      mqttOnly := given.has .mqttOnly
      failOnMqttSchemaError := given.has .failOnMqttSchemaError
      markdown := !given.has .noMarkdown }
    level := levelOf given }

end Request
end CommandLine
end Docblock
