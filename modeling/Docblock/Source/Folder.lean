/-
# Reading folders

The files of a folder are found, decoded and read one after the other.
Written documents are left to others, and so are TypeScript files in the
category for their comments.

Key definitions: `Source.FolderFault`, `Source.readFile`,
`Source.readFolder`.
-/
import Docblock.Options
import Docblock.Source.Text

namespace Docblock
namespace Source

/-- Why a folder cannot be read. -/
inductive FolderFault where
  | files (fault : FileFault)
  | source (fault : Fault)

/-- The endings of written documents. -/
def documentEndings : List String := [".md", ".markdown"]

/-- The endings of files that are left out in the category `tsdoc`. -/
def tsdocEndings : List String := [".ts", ".tsx"]

/-- Why a file is skipped, if it is. -/
def skipReason? (category : Option String) (file : String) : Option String :=
  let ending := endingOf file
  if documentEndings.contains ending then
    some ("Skipping parser for " ++ ending ++ " file (processed separately): " ++ file)
  else if category == some "tsdoc" && tsdocEndings.contains ending then
    some ("Skipping parser for " ++ ending ++
      " in tsdoc category (processed via TypeScript compiler): " ++ file)
  else none

/-- Reads a file. Nothing is given if it is skipped or has no documentation. -/
def readFile (s : Setup) (tree : FileTree) (encoding : Encoding) (file : String) :
    Reading FolderFault (Option (List Block)) := do
  Reading.say .debug ("inspect file: " ++ file)
  match skipReason? (← Reading.memory).category file with
  | some reason =>
    Reading.say .verbose reason
    return none
  | none =>
    match tree.read file with
    | .error fault => Reading.fail (.files ⟨"Cannot read file: " ++ fault.message, file⟩)
    | .ok bytes => (readText s file (encoding.decode bytes)).mapFault .source

/-- Reads files that are seen from a root, and keeps the blocks of those with
documentation. -/
def readFiles (s : Setup) (tree : FileTree) (encoding : Encoding) (root : String) :
    List String → Reading FolderFault (List (String × BlockFile))
  | [] => pure []
  | file :: files => do
    let path := Path.join root file
    match ← readFile s tree encoding path with
    | none => readFiles s tree encoding root files
    | some blocks =>
      Reading.say .verbose ("parse file: " ++ path)
      return (file, blocks) :: (← readFiles s tree encoding root files)

/-- Reads the chosen files of an input. -/
def readFolder (s : Setup) (tree : FileTree) (filter : FileFilter) (encoding : Encoding)
    (input : Input) : Reading FolderFault (List (String × BlockFile)) := do
  Reading.remember fun m => { m with category := input.category }
  match input.category with
  | some category => Reading.say .verbose ("Parsing with category filter: " ++ category)
  | none => pure ()
  let files ← Reading.ofExcept ((filter.search tree input.path).mapError .files)
  readFiles s tree encoding input.path files

end Source
end Docblock
