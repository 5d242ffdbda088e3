/-
# Which files are read

Files are chosen by patterns on their paths: at least one that includes a
file, and none that excludes it.

Key definitions: `FileFilter`, `FileFilter.ofTexts`, `FileFilter.search`.
-/
import Docblock.FileTree
import Docblock.Pattern.Reader
import Docblock.Pattern.Search

namespace Docblock

/-- Patterns on the paths of files. -/
structure FileFilter where
  wanted : List Pattern := []
  unwanted : List Pattern := []

/-- Why files are not found. -/
structure FileFault where
  message : String
  path : String
  deriving DecidableEq, Repr

namespace FileFilter

/-- The files of the known languages. -/
def sourceFiles : String :=
  ".*\\.(clj|cls|coffee|cpp|cs|dart|erl|exs?|go|groovy|ino?|java|js|jsx|litcoffee|lua|p|php?|pl|pm|" ++
    "py|rb|scala|ts|vue)$"

/-- The files of written documents. -/
def documentFiles : String := ".*\\.(md|markdown)$"

/-- Reads patterns; the first that is none is given back. -/
def patterns : List String → Except String (List Pattern)
  | [] => .ok []
  | text :: texts =>
    match Pattern.ofText? text with
    | none => .error text
    | some p => (patterns texts).map (p :: ·)

/-- Reads a filter; the first text that is no pattern is given back. -/
def ofTexts (wanted unwanted : List String) : Except String FileFilter := do
  return ⟨← patterns wanted, ← patterns unwanted⟩

/-- The filter with a further pattern that includes files. -/
def including (f : FileFilter) (text : String) : Except String FileFilter := do
  return { f with wanted := f.wanted ++ (← patterns [text]) }

/-- Whether a file is chosen. -/
def chooses (f : FileFilter) (path : String) : Bool :=
  (f.wanted.any fun p => p.occursIn path) && !f.unwanted.any fun p => p.occursIn path

/-- The chosen files below a path, seen from there. -/
def search (f : FileFilter) (tree : FileTree) (root : String) : Except FileFault (List String) :=
  match tree.filesBelow root with
  | .error fault =>
    .error ⟨"IO error for operation on " ++ root ++ ": " ++ fault.message, root⟩
  | .ok found =>
    let slashed := Text.replaceChar '\\' '/'
    let chosen := (found.map (Text.join "/")).filter fun relative =>
      f.chooses (slashed (if relative.isEmpty then root else Path.join root relative))
    if chosen.isEmpty then .error ⟨"No files found.", root⟩ else .ok (chosen.map slashed)

end FileFilter
end Docblock
