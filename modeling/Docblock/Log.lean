/-
# The log of a run

Work leaves entries: records with a level, a message and labelled details,
and remarks of the tags. They are values, in the order in which they arose,
and nothing that the run computes depends on them.

Key definitions: `Log.Level`, `Log.Record`, `Log.Entry`, `Log.renderDetails`.
-/
import Docblock.Text.Cut

namespace Docblock
namespace Log

/-- How important a record is. -/
inductive Level where
  | debug
  | verbose
  | info
  | warn
  | error
  deriving DecidableEq, Repr

namespace Level

/-- The rank of a level; more important ones are higher. -/
def rank : Level → Nat
  | debug => 0
  | verbose => 1
  | info => 2
  | warn => 3
  | error => 4

/-- The name of a level. -/
def name : Level → String
  | debug => "debug"
  | verbose => "verbose"
  | info => "info"
  | warn => "warn"
  | error => "error"

/-- All levels. -/
def all : List Level := [debug, verbose, info, warn, error]

/-- The level of a name. -/
def ofName? (s : String) : Option Level := all.find? fun l => l.name == s

end Level

/-- Labelled details of a record. -/
abbrev Details := List (String × String)

/-- A message of the program. -/
structure Record where
  level : Level
  message : String
  details : Details := []
  deriving DecidableEq, Repr

/-- What the log of a run holds. -/
inductive Entry where
  | record (r : Record)
  /-- A remark of a tag or a hook. -/
  | remark (message : String)
  deriving DecidableEq, Repr

/-- How important an entry is. -/
def Entry.level : Entry → Level
  | .record r => r.level
  | .remark _ => .warn

/-- A record without details. -/
def say (level : Level) (message : String) : Entry := .record { level, message }

/-- The records of a log. -/
def records (log : List Entry) : List Record :=
  log.filterMap fun
    | .record r => some r
    | .remark _ => none

/-- The remarks of a log. -/
def remarks (log : List Entry) : List String :=
  log.filterMap fun
    | .record _ => none
    | .remark message => some message

/-- Details as text: each on a line of its own. -/
def renderDetails (details : Details) : String :=
  String.join (details.map fun (label, value) => "\n  " ++ label ++ ": " ++ value)

end Log
end Docblock
