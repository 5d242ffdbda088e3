/-
# Reading sources

A source is read with a setup: languages, tags and hooks, and which blocks
are wanted. Reading threads the memory of the tags through everything it
reads, and may stop at a fault that names the element it could not read.

Key definitions: `Source.Setup`, `Source.Fault`, `Source.Cause`,
`Source.Reading`.
-/
import Docblock.Language
import Docblock.Log
import Docblock.Markdown.Field
import Docblock.Tag.Expansion
import Docblock.Tag.Registry

namespace Docblock
namespace Source

/-! ### Faults -/

/-- Why an element could not join its block. -/
inductive Cause where
  | emptyResult
  | tag (fault : Tag.Fault)
  | noPath
  | onlyOneUsage
  | onlyOneDefinition
  | otherShape (path : String)
  deriving DecidableEq, Repr

/-- The wording of a cause. -/
def Cause.message : Cause → String
  | .emptyResult => "Empty parser result."
  | .tag fault =>
    match fault.usage? with
    | some _ => fault.message
    | none => "Undefined error: " ++ fault.message
  | .noPath => "pathTo is not defined in the parser file."
  | .onlyOneUsage => "Only one definition or usage is allowed in the same block."
  | .onlyOneDefinition => "Only one definition is allowed in the same block."
  | .otherShape path =>
    "Cannot attach value at '" ++ path ++ "': the existing value has another shape."

/-- How the element should have been written, as details. -/
def Cause.usageDetails : Cause → Log.Details
  | .tag fault =>
    match fault.usage? with
    | some usage => [("Definition", usage.form), ("Example", usage.sample)].filter
        fun (_, text) => !text.isEmpty
    | none => []
  | _ => []

/-- An element that stopped the reading, and why. -/
structure Fault where
  cause : Cause
  file : String
  /-- The position of the block in its file, from one. -/
  block : Nat
  /-- The tag as written. -/
  element : String
  source : String
  deriving DecidableEq, Repr

/-- The details of a fault: where it is, and how it should have been written. -/
def Fault.details (f : Fault) : Log.Details :=
  (if f.file.isEmpty then [] else [("File", f.file)]) ++
  (if f.block == 0 then [] else [("Block", toString f.block)]) ++
  (if f.element.isEmpty then [] else [("Element", "@" ++ f.element)]) ++
  (if f.source.isEmpty then [] else [("Source", f.source)]) ++
  f.cause.usageDetails

/-! ### Setup -/

/-- Blocks are wanted that have a tag with this beginning and exactly this
text. -/
structure Filter where
  tag : String
  value : Option String
  deriving DecidableEq, Repr

/-- Reads a filter `tag=value`; it counts only if its tag contains `api`. -/
def Filter.read? (text : String) : Option Filter :=
  match Text.split '=' text with
  | [] => none
  | tag :: values =>
    if Text.contains tag "api" then some ⟨Text.lower tag, values.head?⟩ else none

/-- What sources are read with. -/
structure Setup where
  languages : Languages := .builtin
  registry : Registry
  hooks : Hooks
  markdown : Option Markdown.Renderer := none
  /-- Whether private blocks are wanted. -/
  includePrivate : Bool := false
  filter : Option Filter := none

namespace Setup

/-- The setup with everything that comes with the program. -/
def builtin (tree : FileTree) : Setup where
  registry := .builtin tree
  hooks := .builtin tree

/-- Adds a language, and says so in the log. -/
def addLanguage (s : Setup) (ext : String) (l : Language) : Setup × Log.Entry :=
  ({ s with languages := s.languages.add ext l }, Log.say .debug ("inject parser language: " ++ ext))

/-- Adds a tag, and says so in the log. -/
def addTag (s : Setup) (name : String) (tag : Tag) : Setup × Log.Entry :=
  ({ s with registry := s.registry.add name tag }, Log.say .debug ("inject parser: " ++ name))

end Setup

/-! ### Readings -/

/-- What a reading gives: a value or a fault, the memory afterwards and what
it left in the log. -/
structure Outcome (ε α : Type) where
  result : Except ε α
  memory : Tag.Memory
  log : List Log.Entry := []

/-- A reading, given the memory. It cannot see the log. -/
def Reading (ε α : Type) := Tag.Memory → Outcome ε α

namespace Reading

variable {ε ε' α β : Type}

/-- One reading after the other; the second does not take place after a
fault. -/
def andThen (first : Reading ε α) (second : α → Reading ε β) : Reading ε β := fun memory =>
  match first memory with
  | ⟨.ok a, memory, log⟩ =>
    let next := second a memory
    { next with log := log ++ next.log }
  | ⟨.error fault, memory, log⟩ => ⟨.error fault, memory, log⟩

instance : Monad (Reading ε) where
  pure a := fun memory => ⟨.ok a, memory, []⟩
  bind := andThen

/-- Leaves an entry in the log. -/
def note (entry : Log.Entry) : Reading ε Unit := fun memory => ⟨.ok (), memory, [entry]⟩

/-- Leaves a record without details in the log. -/
def say (level : Log.Level) (message : String) : Reading ε Unit := note (Log.say level message)

/-- The memory. -/
def memory : Reading ε Tag.Memory := fun memory => ⟨.ok memory, memory, []⟩

/-- Changes the memory. -/
def remember (f : Tag.Memory → Tag.Memory) : Reading ε Unit := fun memory => ⟨.ok (), f memory, []⟩

/-- Stops with a fault. -/
def fail (fault : ε) : Reading ε α := fun memory => ⟨.error fault, memory, []⟩

/-- A value, or a fault. -/
def ofExcept (result : Except ε α) : Reading ε α := fun memory => ⟨result, memory, []⟩

/-- The reading with other faults. -/
def mapFault (f : ε → ε') (r : Reading ε α) : Reading ε' α := fun memory =>
  let outcome := r memory
  ⟨outcome.result.mapError f, outcome.memory, outcome.log⟩

end Reading
end Source
end Docblock
