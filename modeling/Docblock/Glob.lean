/-
# Globs

A glob is a path whose parts may leave characters open: `?` stands for one
character, `*` for any number, `[a-z]` and `[!a-z]` for one of a set or one
that is not in it, and the part `**` for any way down. It stands for the
paths in a tree that it fits, in the order of their names, a folder before
what is in it.

Key definitions: `Glob`, `Glob.ofText?`, `Glob.fits`, `Glob.folders`.
-/
import Docblock.FileTree

namespace Docblock
namespace Glob

/-- What stands for one character, or for many. -/
inductive Token where
  | char (c : Char)
  | anyChar
  | anyText
  /-- A character in one of the ranges. -/
  | within (ranges : List (Char × Char))
  /-- A character in none of the ranges. -/
  | outside (ranges : List (Char × Char))
  deriving DecidableEq, Repr

/-- A part of a glob. -/
inductive Part where
  | name (tokens : List Token)
  /-- One or more names, each a folder but perhaps the last. -/
  | anyDepth
  deriving DecidableEq, Repr

end Glob

/-- A path with open parts. -/
structure Glob where
  parts : List Glob.Part
  deriving DecidableEq, Repr

namespace Glob

/-! ### Reading -/

/-- The ranges between brackets; a single character is a range of its own. -/
def ranges : List Char → List (Char × Char)
  | a :: '-' :: b :: rest => (a, b) :: ranges rest
  | a :: rest => (a, a) :: ranges rest
  | [] => []

/-- The characters of a set and the rest; the first one may be the closing
bracket. -/
def cutSet? : List Char → Option (List Char × List Char)
  | [] => none
  | first :: rest =>
    match rest.dropWhile (· != ']') with
    | [] => none
    | _ :: after => some (first :: rest.takeWhile (· != ']'), after)

/-- What is left behind a set is shorter. -/
theorem length_of_cutSet? {cs inner after : List Char} (h : cutSet? cs = some (inner, after)) :
    after.length < cs.length := by
  cases cs with
  | nil => simp [cutSet?] at h
  | cons first rest =>
    have hle := (List.dropWhile_sublist (l := rest) (· != ']')).length_le
    simp only [cutSet?] at h
    split at h
    · simp at h
    next heq =>
      simp only [Option.some.injEq, Prod.mk.injEq] at h
      rw [heq, h.2] at hle
      simp only [List.length_cons] at hle ⊢
      omega

/-- The tokens of a part. Two stars in a row and a set that is not closed are
refused. -/
def tokens? : List Char → Option (List Token)
  | [] => some []
  | '*' :: '*' :: _ => none
  | '*' :: rest => (tokens? rest).map (.anyText :: ·)
  | '?' :: rest => (tokens? rest).map (.anyChar :: ·)
  | '[' :: '!' :: rest =>
    match h : cutSet? rest with
    | none => none
    | some (inner, after) =>
      have := length_of_cutSet? h
      (tokens? after).map (.outside (ranges inner) :: ·)
  | '[' :: rest =>
    match h : cutSet? rest with
    | none => none
    | some (inner, after) =>
      have := length_of_cutSet? h
      (tokens? after).map (.within (ranges inner) :: ·)
  | c :: rest => (tokens? rest).map (.char c :: ·)
termination_by cs => cs.length
decreasing_by all_goals simp_all <;> omega

/-- Reads a part. -/
def Part.ofText? (text : String) : Option Part :=
  if text == "**" then some .anyDepth else (tokens? text.toList).map .name

/-- Reads a glob; a slash at the end does not count. -/
def ofText? (text : String) : Option Glob :=
  let pieces := Text.split '/' text
  let pieces := if pieces.getLast? == some "" then pieces.dropLast else pieces
  (pieces.mapM Part.ofText?).map Glob.mk

/-- Whether a text leaves anything open. -/
def isOpen (text : String) : Bool := text.toList.any fun c => c == '*' || c == '?' || c == '['

/-! ### Fitting names -/

/-- Whether a character is in one of the ranges. -/
def inRanges (rs : List (Char × Char)) (c : Char) : Bool := rs.any fun (a, b) => a ≤ c && c ≤ b

/-- Whether a token that stands for one character stands for this one. -/
def Token.fitsChar (c : Char) : Token → Bool
  | .char d => c == d
  | .anyChar => true
  | .anyText => false
  | .within rs => inRanges rs c
  | .outside rs => !inRanges rs c

/-- Whether the tokens fit the whole text. -/
def fits : List Token → List Char → Bool
  | [], cs => cs.isEmpty
  | .anyText :: ts, [] => fits ts []
  | .anyText :: ts, c :: cs => fits ts (c :: cs) || fits (.anyText :: ts) cs
  | _ :: _, [] => false
  | t :: ts, c :: cs => t.fitsChar c && fits ts cs
termination_by ts cs => (cs.length, ts.length)

/-- The only character that a token stands for, if there is only one. -/
def Token.only? : Token → Option Char
  | .char c => some c
  | _ => none

/-- The only name that tokens fit, if they leave nothing open. -/
def closed? (ts : List Token) : Option String :=
  (ts.mapM Token.only?).map String.ofList

/-! ### Paths in a tree -/

/-- Whether a path is the working folder, as `.` is. -/
def isHere (path : String) : Bool :=
  !path.isEmpty && !Path.isAbsolute path && (Path.parts path).isEmpty

/-- The path of a name in a folder; nothing is put in front of names in the
working folder. -/
def child (path name : String) : String := if isHere path then name else Path.join path name

/-- The paths of what is in a folder. -/
def children (tree : FileTree) (path : String) : List (String × String) :=
  ((tree.folder? path).getD []).map fun name => (name, child path name)

/-- The names below a folder with their paths, each folder before what is in
it. The fuel bounds the depth. -/
def descendants (tree : FileTree) : (fuel : Nat) → (path : String) → List (String × String)
  | 0, _ => []
  | fuel + 1, path => (children tree path).flatMap fun (name, path) =>
    (name, path) :: descendants tree fuel path

/-- The folders `..` and `.`, for tokens that start with a point and fit them. -/
def dotted (ts : List Token) : List String :=
  if ts.head? == some (.char '.') then ["..", "."].filter fun name => fits ts name.toList else []

/-- The paths that parts lead to from a folder. -/
def expandFrom (tree : FileTree) : List Part → (path : String) → List String
  | [], path => [path]
  | .name ts :: parts, path =>
    match closed? ts with
    | some name =>
      let next := child path name
      let found := if name == "." || name == ".." then tree.isFolder path else tree.contains next
      if found then expandFrom tree parts next else []
    | none =>
      if !tree.isFolder path then []
      else ((dotted ts).map (Path.join path) ++
          ((children tree path).filter fun entry => fits ts entry.1.toList).map Prod.snd).flatMap
        fun next => expandFrom tree parts next
  | [.anyDepth], path =>
    ((descendants tree (tree.depth + 1) path).map Prod.snd).filter tree.isFolder
  | .anyDepth :: .anyDepth :: parts, path => expandFrom tree (.anyDepth :: parts) path
  | .anyDepth :: .name ts :: parts, path =>
    ((descendants tree (tree.depth + 1) path).filter fun entry => fits ts entry.1.toList).flatMap
      fun entry => expandFrom tree parts entry.2
termination_by parts => parts.length

/-- The folders of a tree that a glob fits. -/
def folders (g : Glob) (tree : FileTree) : List String :=
  if g.parts.isEmpty then [] else (expandFrom tree g.parts ".").filter tree.isFolder

end Glob
end Docblock
