/-
# The program

Reads the files below the working folder, calls `CommandLine.call`, and does
what the report says.

Key definitions: `main`.
-/
import Docblock.Calendar
import Docblock.CommandLine.Report
import Std.Time.DateTime.Timestamp

namespace Docblock

/-- The files below the working folder. -/
def readTree : IO FileTree := do
  let top ← IO.currentDir
  let mut files := []
  for path in ← top.walkDir do
    if !(← path.isDir) then
      let bytes ← IO.FS.readBinFile path
      files := (path.toString.drop (top.toString.length + 1) |>.toString, bytes.toList) :: files
  return .ofFiles files.reverse

/-- The present moment, in seconds since the start of 1970. -/
def secondsNow : IO Nat := do
  return (← Std.Time.Timestamp.now).toSecondsSinceUnixEpoch.val.toNat

/-- Writes a file, and the folders above it. -/
def writeFile (path text : String) : IO Unit := do
  IO.FS.createDirAll ((Path.parent? path).getD ".")
  IO.FS.writeFile path text

end Docblock

open Docblock in
/-- Does what the words of the command line ask for. -/
def main (words : List String) : IO UInt32 := do
  let report := CommandLine.call words (← readTree) (Calendar.render (← secondsNow))
  for (path, text) in report.files do
    writeFile path text
  IO.print report.output
  IO.eprint report.remarks
  return report.status.toUInt32
