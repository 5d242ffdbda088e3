/-
# Finding elements in a comment

A tag starts at the beginning of a line, behind blanks and stars at most. Its
text goes up to the next tag that is known, to a `*/`, or to the end of the
comment; words with an `@` that are no known tags belong to the text.

Key definitions: `isRecognized`, `tagStartPattern`, `tagStarts`, `cutElement`,
`findElements`.
-/
import Docblock.Hook
import Docblock.Pattern.Search
import Docblock.Text.Cut

namespace Docblock
namespace Element

open Pattern

/-! ### Known tags -/

/-- Tags that start with one of these are known. -/
def knownBeginnings : List String := ["api", "mqtt", "model", "iot"]

/-- Tags of file headers and of TypeScript comments. -/
def headerNames : List String :=
  ["file", "author", "copyright", "license", "package", "see", "param", "returns", "remarks",
    "example", "public", "internal", "alpha", "beta"]

/-- Further known tags. -/
def knownNames : List String :=
  ["payloadSchema", "examplePublish", "exampleSubscribe", "responseTopic", "responseExample",
    "topicParam", "topic", "payload", "qos", "retain", "ratelimit", "errors", "tags", "auth"] ++
    headerNames

/-- Whether a tag, as written, starts an element. -/
def isRecognized (name : String) : Bool :=
  match Text.strip? "openapi" name with
  | some rest => rest.isEmpty || Text.startsWith rest "-"
  | none =>
    if Text.contains name "-" then false
    else knownBeginnings.any (Text.startsWith name) || knownNames.contains name

/-! ### Cutting a comment -/

/-- The start of a line, blanks and stars, and a tag as group 1. -/
def tagStartPattern : Pattern :=
  all [any [.textStart, .one (· == Text.lineMark)],
    .chars fun c => Text.isBlank c || c == '*', lit "@",
    .group 1 (all [chars1 Text.isAsciiWord, opt (all [lit "-", chars1 Text.isAsciiWord])])]

/-- The places of known tags in a comment that is one line. -/
def tagStarts (text : String) : List Match :=
  (tagStartPattern.findAll text).filter fun m => isRecognized (m.group 1)

/-- The text from a place on without the line mark it may start with. -/
def dropLineMark : List Char → List Char
  | [] => []
  | c :: cs => if c == Text.lineMark then cs else c :: cs

/-- The characters before the first `*/`. -/
def beforeClose (cs : List Char) : List Char :=
  match Text.cutAt? ['*', '/'] cs with
  | some (before, _) => before
  | none => cs

/-- The element of a tag, given the text from the next tag on. -/
def cutElement (m : Match) (next : List Char) : Element :=
  let behind := (Span.mk m.stop.rest next).chars
  let blanks := behind.takeWhile Text.isBlank
  let content := beforeClose (behind.drop blanks.length)
  let lead := (Span.mk (dropLineMark m.start.rest) m.stop.rest).chars
  .new (m.group 1) (Text.unflatten (String.ofList content))
    (Text.unflatten (String.ofList (lead ++ blanks ++ content)))

/-- The elements of tags that follow each other. -/
def cutElements : List Match → List Element
  | [] => []
  | [m] => [cutElement m []]
  | m :: n :: ms => cutElement m n.start.rest :: cutElements (n :: ms)

/-- The elements of a comment, before any hook. -/
def cut (block : String) : List Element :=
  cutElements (tagStarts (Text.flatten block))

/-- The elements of a comment. Each runs through the hooks of its name and
joins the list, which then runs through the hooks for lists. Remarks of hooks
are collected. -/
def findElements (hooks : Hooks) (block filename : String) : List Element × List String :=
  (cut block).foldl (fun (found, remarks) e =>
    let e := hooks.applyElement (Hooks.findElement e.name) block filename e
    let (found, more) := hooks.applyElements Hooks.findElements block filename (found ++ [e])
    (found, remarks ++ more)) ([], [])

end Element
end Docblock
