/-
# File trees

The files that a run may read, as a value: each file with the names of the
folders above it. Folders exist because files are in them. A path is walked
from the top, part by part.

Key definitions: `FileTree`, `FileTree.node`, `FileTree.readText?`,
`FileTree.folder?`, `FileTree.filesBelow`.
-/
import Docblock.Path
import Docblock.Text.Encoding

namespace Docblock

/-- The files of a tree, each under the parts of its path. -/
structure FileTree where
  files : List (List String × Bytes) := []

/-- What a path leads to. -/
inductive FileNode where
  | file (bytes : Bytes)
  | folder (parts : List String)

/-- Why a path cannot be followed or read. -/
inductive PathFault where
  | missing
  | notFolder
  | isFolder
  deriving DecidableEq, Repr

/-- The wording of a fault, as the system has it. -/
def PathFault.message : PathFault → String
  | .missing => "No such file or directory (os error 2)"
  | .notFolder => "Not a directory (os error 20)"
  | .isFolder => "Is a directory (os error 21)"

namespace FileTree

/-- The tree of the given files. -/
def ofFiles (files : List (String × Bytes)) : FileTree :=
  ⟨files.map fun (path, bytes) => (Path.parts path, bytes)⟩

/-- What stands at exactly these parts. -/
def nodeAt? (t : FileTree) (parts : List String) : Option FileNode :=
  match t.files.find? fun file => file.1 == parts with
  | some (_, bytes) => some (.file bytes)
  | none =>
    if parts.isEmpty || t.files.any fun file => parts.isPrefixOf file.1 then some (.folder parts)
    else none

/-- Walks from a node along the written parts of a path. -/
def walk (t : FileTree) : FileNode → List String → Except PathFault FileNode
  | node, [] => .ok node
  | .file _, _ :: _ => .error .notFolder
  | .folder here, part :: parts =>
    if part == "" || part == "." then walk t (.folder here) parts
    else if part == ".." then
      if here.isEmpty then .error .missing else walk t (.folder here.dropLast) parts
    else match t.nodeAt? (here ++ [part]) with
      | some node => walk t node parts
      | none => .error .missing

/-- What a path leads to, seen from the top of the tree. -/
def node (t : FileTree) (path : String) : Except PathFault FileNode :=
  if path.isEmpty || Path.isAbsolute path then .error .missing
  else t.walk (.folder []) (Text.split '/' path)

/-- Whether a path leads to something. -/
def contains (t : FileTree) (path : String) : Bool := (t.node path).isOk

/-- Whether a path leads to a file. -/
def isFile (t : FileTree) (path : String) : Bool :=
  match t.node path with
  | .ok (.file _) => true
  | _ => false

/-- Whether a path leads to a folder. -/
def isFolder (t : FileTree) (path : String) : Bool :=
  match t.node path with
  | .ok (.folder _) => true
  | _ => false

/-- Whether folders can be made along the written parts of a path: none of
them is a file. A path that leaves the tree is not looked at further. -/
def hasRoom (t : FileTree) : (here : List String) → List String → Bool
  | _, [] => true
  | here, part :: parts =>
    if part == "" || part == "." then hasRoom t here parts
    else if part == ".." then here.isEmpty || hasRoom t here.dropLast parts
    else match t.nodeAt? (here ++ [part]) with
      | some (.file _) => false
      | _ => hasRoom t (here ++ [part]) parts

/-- Whether a path is or can become a folder. -/
def canHold (t : FileTree) (path : String) : Bool :=
  Path.isAbsolute path || t.hasRoom [] (Text.split '/' path)

/-- The bytes of a file. -/
def read (t : FileTree) (path : String) : Except PathFault Bytes :=
  match t.node path with
  | .ok (.file bytes) => .ok bytes
  | .ok (.folder _) => .error .isFolder
  | .error fault => .error fault

/-- The text of a file, if it is UTF-8. -/
def readText? (t : FileTree) (path : String) : Option String :=
  match t.read path with
  | .ok bytes => Text.utf8? bytes
  | .error _ => none

/-- Puts a name into a sorted list, once. -/
def insertName (name : String) : List String → List String
  | [] => [name]
  | n :: ns =>
    match Text.order name n with
    | .lt => name :: n :: ns
    | .eq => n :: ns
    | .gt => n :: insertName name ns

/-- The names in the folder at these parts, sorted. -/
def namesAt (t : FileTree) (parts : List String) : List String :=
  t.files.foldl (fun names file =>
    match file.1.drop parts.length with
    | name :: _ => if parts.isPrefixOf file.1 then insertName name names else names
    | [] => names) []

/-- The names in a folder, sorted. -/
def folder? (t : FileTree) (path : String) : Option (List String) :=
  match t.node path with
  | .ok (.folder parts) => some (t.namesAt parts)
  | _ => none

/-- The greatest number of parts of a path. -/
def depth (t : FileTree) : Nat :=
  t.files.foldl (fun d file => max d file.1.length) 0

/-- The files below the folder at these parts, in the order of their names,
each with its path seen from there. The fuel bounds the depth. -/
def below (t : FileTree) : (fuel : Nat) → (parts : List String) → List (List String)
  | 0, _ => []
  | fuel + 1, parts => (t.namesAt parts).flatMap fun name =>
    match t.nodeAt? (parts ++ [name]) with
    | some (.file _) => [[name]]
    | some (.folder _) => (t.below fuel (parts ++ [name])).map (name :: ·)
    | none => []

/-- The files that a path leads to: the file itself, as the empty path, or
those below the folder. -/
def filesBelow (t : FileTree) (path : String) : Except PathFault (List (List String)) :=
  match t.node path with
  | .ok (.file _) => .ok [[]]
  | .ok (.folder parts) => .ok (t.below (t.depth + 1) parts)
  | .error fault => .error fault

end FileTree
end Docblock
