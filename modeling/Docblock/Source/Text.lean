/-
# Reading the text of a source

The comments of a source are cut into elements, the blocks that count are
chosen, and their elements are read in order.

Key definitions: `Source.cutBlocks`, `Source.readText`.
-/
import Docblock.Element.Finder
import Docblock.Source.Element
import Docblock.Source.Selection
import Docblock.Source.UrlParameter

namespace Docblock
namespace Source

/-- The ending of a file name in small letters, with its point; empty if
there is none. -/
def endingOf (file : String) : String :=
  match Path.extension? file with
  | some ending => "." ++ Text.lower ending
  | none => ""

/-- Cuts comments into elements, with what hooks remark. -/
def cutBlocks (s : Setup) (file : String) : (index : Nat) → List String → Reading Fault (List (List Element))
  | _, [] => pure []
  | index, comment :: comments => do
    let (es, remarks) := Element.findElements s.hooks comment file
    remarks.forM fun r => Reading.note (.remark r)
    Reading.say .debug
      ("count elements in block " ++ toString index ++ ": " ++ toString es.length)
    let rest ← cutBlocks s file (index + 1) comments
    return es :: rest

/-- Reads the text of a file. Nothing is given if it has no documentation. -/
def readText (s : Setup) (file text : String) : Reading Fault (Option (List Block)) := do
  Reading.say .debug ("size: " ++ toString text.utf8ByteSize)
  Reading.remember fun m => { m with filename := file }
  let comments := (s.languages.forExtension (endingOf file)).comments (Text.replace "\r\n" "\n" text)
  if comments.isEmpty then return none
  Reading.say .debug ("count blocks: " ++ toString comments.length)
  let blocks ← cutBlocks s file 0 comments
  let (chosen, log) := selectBlocks s blocks
  log.forM Reading.note
  if chosen.isEmpty then return none
  let read ← readBlocks s file chosen
  if read.isEmpty then return none
  (urlRemarks read file).forM (Reading.say .warn)
  return some read

end Source
end Docblock
