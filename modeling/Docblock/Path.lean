/-
# File paths

Paths are texts with `/` between their parts. Empty parts and the part `.`
do not count, except a leading `.`, which is kept as written.

Key definitions: `Path.parts`, `Path.fileName?`, `Path.extension?`,
`Path.parent?`, `Path.within?`, `Path.join`.
-/
import Docblock.Text.Cut

namespace Docblock
namespace Path

/-- The parts that count. -/
def parts (path : String) : List String :=
  (Text.split '/' path).filter fun part => part != "" && part != "."

/-- Whether a path starts at the root. -/
def isAbsolute (path : String) : Bool := Text.startsWith path "/"

/-- The last part, unless it leads upwards. -/
def fileName? (path : String) : Option String :=
  (parts path).getLast?.filter fun part => part != ".."

/-- What stands behind the last point of the file name; nothing if there is no
point, or only one in front. -/
def extension? (path : String) : Option String :=
  ((fileName? path).bind (Text.cutLast? '.')).bind fun (stem, ending) =>
    if stem.isEmpty then none else some ending

/-- The written parts without those at the end that do not count; the first
part stays. -/
def dropIdle (pieces : List String) : List String :=
  match pieces with
  | [] => []
  | first :: rest =>
    first :: (rest.reverse.dropWhile fun part => part == "" || part == ".").reverse

/-- The folder of a path. -/
def parent? (path : String) : Option String :=
  match dropIdle (Text.split '/' path) with
  | [] => none
  | [only] => if only.isEmpty then none else some ""
  | pieces =>
    match dropIdle pieces.dropLast with
    | [""] => some "/"
    | above => some (Text.join "/" above)

/-- Where the parts of a path lead from a folder, without going above the top. -/
def follow : (here : List String) → List String → Option (List String)
  | here, [] => some here
  | here, part :: parts =>
    if part != ".." then follow (here ++ [part]) parts
    else if here.isEmpty then none
    else follow here.dropLast parts

/-- A path seen from the working folder, without steps upwards; nothing if it
leads out of that folder. -/
def within? (path : String) : Option String :=
  if isAbsolute path then none else (follow [] (parts path)).map (Text.join "/")

/-- A path seen from a folder. -/
def join (folder path : String) : String :=
  if isAbsolute path || folder.isEmpty then path
  else if Text.endsWith folder "/" then folder ++ path
  else folder ++ "/" ++ path

/-- A path seen from the folder of a file. -/
def beside (file path : String) : String :=
  join ((parent? file).getD "") path

end Path
end Docblock
