/-
# Which blocks are read

A block is read if it documents something, is not ignored, is not private
(unless private blocks are wanted) and passes the filter. Definitions pass
every filter.

Key definitions: `Source.documentsSomething`, `Source.verdict`,
`Source.selectBlocks`.
-/
import Docblock.Element.Finder
import Docblock.Source.Basic

namespace Docblock
namespace Source

/-- Tags that start with one of these document something. -/
def documentingBeginnings : List String := ["api", "openapi", "mqtt", "model", "iot"]

/-- Whether a tag, in small letters, documents something. -/
def documentsSomething (name : String) : Bool :=
  documentingBeginnings.any (Text.startsWith name) || Element.headerNames.contains name

/-- Whether an element hides its block, and what the log says about it. -/
def hiding? (s : Setup) (index : Nat) (e : Element) : Option String :=
  if Text.startsWith e.name "apiignore" then
    some ("apiIgnore found in block: " ++ toString index)
  else if !s.includePrivate && Text.startsWith e.name "apiprivate" then
    some ("private flag is set to false and apiPrivate found in block: " ++ toString index)
  else none

/-- Whether an element lets its block pass the filter. -/
def Filter.passes (f : Filter) (e : Element) : Bool :=
  Text.startsWith e.name "apidefine" ||
    (Text.startsWith e.name f.tag && f.value == some e.content)

/-- Whether a block that is not hidden is wanted. -/
def isWanted (s : Setup) (es : List Element) : Bool :=
  (es.any fun e => documentsSomething e.name) && (s.filter.all fun f => es.any f.passes)

/-- Whether a block is read, with the entry that says so or why not. -/
def verdict (s : Setup) (index : Nat) (es : List Element) : Bool × List Log.Entry :=
  match es.findSome? (hiding? s index) with
  | some reason => (false, [Log.say .debug reason])
  | none =>
    if isWanted s es then
      (true, [Log.say .debug ("api found in block: " ++ toString index)])
    else (false, [])

/-- The blocks that are read, with their positions from zero. -/
def selectBlocks (s : Setup) (blocks : List (List Element)) :
    List (Nat × List Element) × List Log.Entry :=
  let judged := blocks.mapIdx fun i es => ((i, es), verdict s i es)
  (judged.filterMap fun (block, chosen, _) => if chosen then some block else none,
    judged.flatMap fun (_, _, log) => log)

end Source
end Docblock
