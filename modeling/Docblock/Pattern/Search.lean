/-
# Finding patterns in a text

The leftmost match, all matches from left to right without overlap, and the
text with its matches replaced or taken as separators.

Key definitions: `Match`, `Pattern.find?`, `Pattern.findAll`,
`Pattern.replaceAll`, `Pattern.split`.
-/
import Docblock.Pattern.Basic

namespace Docblock

/-- A match: where it starts, where it ends and what its groups hold. -/
structure Match where
  start : Cursor
  stop : Cursor
  captures : Captures

namespace Match

/-- The matched piece. -/
def span (m : Match) : Span := ⟨m.start.rest, m.stop.rest⟩

/-- The matched text. -/
def text (m : Match) : String := m.span.text

/-- Whether the match is the empty text. -/
def isEmpty (m : Match) : Bool := m.start.rest.length == m.stop.rest.length

/-- What a group matched, if it took part. -/
def group? (m : Match) (n : Nat) : Option String :=
  (m.captures.find? fun entry => entry.1 == n).map fun entry => entry.2.text

/-- What a group matched, empty if it took no part. -/
def group (m : Match) (n : Nat) : String :=
  (m.group? n).getD ""

end Match

namespace Pattern

/-- The match that starts here. -/
def matchAt? (p : Pattern) (here : Cursor) : Option Match :=
  run p (fun there caps => some ⟨here, there, caps⟩) here []

/-- The first match from here on. -/
def search (p : Pattern) : (before rest : List Char) → Option Match
  | before, [] => matchAt? p ⟨before, []⟩
  | before, c :: cs =>
    match matchAt? p ⟨before, c :: cs⟩ with
    | some m => some m
    | none => search p (c :: before) cs

/-- The first match in a text. -/
def find? (p : Pattern) (s : String) : Option Match :=
  search p [] s.toList

/-- Whether the pattern occurs in a text. -/
def occursIn (p : Pattern) (s : String) : Bool :=
  (p.find? s).isSome

/-- The next match after one that ended here: an empty match here does not
count, since it would touch the one before. -/
def searchAfter (p : Pattern) (here : Cursor) : Option Match :=
  match search p here.before here.rest with
  | none => none
  | some m =>
    if m.isEmpty && m.stop.rest.length == here.rest.length then
      match here.rest with
      | [] => none
      | c :: cs => search p (c :: here.before) cs
    else some m

/-- The matches from here on; the fuel bounds their number. -/
def matchesFrom (p : Pattern) : (fuel : Nat) → Cursor → List Match
  | 0, _ => []
  | fuel + 1, here =>
    match searchAfter p here with
    | none => []
    | some m => m :: matchesFrom p fuel m.stop

/-- All matches in a text, from left to right. -/
def findAll (p : Pattern) (s : String) : List Match :=
  match p.find? s with
  | none => []
  | some m => m :: matchesFrom p (s.length + 1) m.stop

/-- The text between matches and the text after the last one, with the
matches in between. -/
def pieces (here : List Char) : List Match → List (List Char × Option Match)
  | [] => [(here, none)]
  | m :: ms => ((Span.mk here m.start.rest).chars, some m) :: pieces m.stop.rest ms

/-- The text with each match replaced by what `new` makes of it. -/
def replaceAll (p : Pattern) (new : Match → String) (s : String) : String :=
  String.join ((pieces s.toList (p.findAll s)).map fun (between, m) =>
    String.ofList between ++ (m.map new).getD "")

/-- The text with its first match replaced. -/
def replaceFirst (p : Pattern) (new : Match → String) (s : String) : String :=
  match p.find? s with
  | none => s
  | some m =>
    String.ofList (Span.mk s.toList m.start.rest).chars ++ new m ++ String.ofList m.stop.rest

/-- The pieces of the text between the matches. -/
def split (p : Pattern) (s : String) : List String :=
  (pieces s.toList (p.findAll s)).map fun (between, _) => String.ofList between

end Pattern
end Docblock
