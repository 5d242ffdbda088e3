/-
# File headers

Tags of the comment at the head of a file: what the file is for, who wrote
it, its copyright, license and package, and where to look further.

Key definitions: `readAuthor`, `readCopyright`, `readLicense`, `readSee`,
`fileHeaderTags`.
-/
import Docblock.Tag.Basic

namespace Docblock
namespace Tag

open Pattern

/-- An empty line between paragraphs. -/
def paragraphBreak : Pattern := all [lit "\n", blanks, lit "\n"]

/-- Reads a description: its first paragraph, and the whole if there are more. -/
def readFile (content : String) : Option Json :=
  (Text.nonBlank? content).map fun text =>
    let paragraphs := paragraphBreak.split text
    Json.ofPresent [
      ("fileDescription", Json.str (Text.trim (paragraphs.head?.getD ""))),
      ("fileDescriptionLong", if paragraphs.length > 1 then Json.str text else none)]

/-- A name and an address in angle brackets. -/
def authorPattern : Pattern :=
  all [.textStart, .group 1 (charsLazy1 notNewline), blanks, lit "<", .group 2 (chars1 (· != '>')),
    lit ">", .textEnd]

/-- Reads `Name <address>`, an address or a name. -/
def readAuthor (content : String) : Option Json :=
  (Text.nonBlank? content).map fun author =>
    let (name, email) := match authorPattern.find? author with
      | some m => ((m.group? 1).map Text.trim, (m.group? 2).map Text.trim)
      | none => if Text.contains author "@" then (none, some author) else (some author, none)
    Json.ofPresent [("author", Json.str author), ("authorName", name.map .str),
      ("authorEmail", email.map .str)]

/-- A year or a span of years, and a holder. -/
def copyrightPattern : Pattern :=
  let year := times 4 (.one Text.isDecimal)
  all [.textStart, .group 1 (all [year, opt (all [lit "-", year])]), blanks,
    opt (.group 2 (chars1 notNewline)), .textEnd]

/-- Reads `2019-2024 Holder`. -/
def readCopyright (content : String) : Option Json :=
  (Text.nonBlank? content).map fun text =>
    let (year, holder) := match copyrightPattern.find? text with
      | some m => (some (m.group 1), (m.group? 2).bind Text.nonBlank?)
      | none => (none, some text)
    Json.ofPresent [("copyright", Json.str text), ("copyrightYear", year.map .str),
      ("copyrightHolder", holder.map .str)]

/-- The start of a web address. -/
def webStart : Pattern := all [lit "http", opt (lit "s"), lit "://"]

/-- A web address. -/
def webAddress : Pattern := all [webStart, chars1 fun c => !Text.isBlank c]

/-- Reads the name of a license, its address, or both in any order. -/
def readLicense (content : String) : Option Json :=
  (Text.nonBlank? content).map fun text =>
    let (kind, url) := match webAddress.find? text with
      | some m => (Text.nonBlank? (webAddress.replaceFirst (fun _ => "") text), some m.text)
      | none => (some text, none)
    Json.ofPresent [("license", Json.str text), ("licenseType", kind.map .str),
      ("licenseUrl", url.map .str)]

/-- Reads a package; its last dot divides namespace and module. -/
def readPackage (content : String) : Option Json :=
  (Text.nonBlank? content).map fun text =>
    let cut := Text.cutLast? '.' text
    Json.ofPresent [("packageName", Json.str text),
      ("packageNamespace", cut.map fun c => .str c.1),
      ("packageModule", cut.map fun c => .str c.2)]

/-- `{@link target title}` and a title. -/
def seeLinkPattern : Pattern :=
  all [.textStart, lit "\x7b@link", blanks1, .group 1 (chars1 fun c => !Text.isBlank c && c != '}'),
    opt (all [blanks1, .group 2 (chars1 (· != '}'))]), lit "\x7d",
    opt (all [blanks1, .group 3 (chars1 notNewline)]), .textEnd]

/-- A web address and a title. -/
def seeWebPattern : Pattern :=
  all [.textStart, .group 1 webAddress, opt (all [blanks1, .group 2 (chars1 notNewline)]), .textEnd]

/-- Reads a link, a web address with a title, or a plain reference. -/
def readSee (content : String) : Option Json :=
  (Text.nonBlank? content).map fun see =>
    match seeLinkPattern.find? see with
    | some m => Json.ofPresent [("see", Json.str see), ("seeType", Json.str "link"),
        ("seeUrl", Json.str (m.group 1)), ("seeTitle", ((m.group? 3).or (m.group? 2)).map .str)]
    | none =>
      match seeWebPattern.find? see with
      | some m => Json.ofPresent [("see", Json.str see), ("seeType", Json.str "url"),
          ("seeUrl", Json.str (m.group 1)), ("seeTitle", (m.group? 2).map .str)]
      | none => .obj [("see", .str see), ("seeType", .str "reference"), ("seeReference", .str see)]

/-- The tags of file headers. -/
def fileHeaderTags : List (String × Tag) := [
  ("file", inserted "local" (.ofContent readFile)),
  ("author", inserted "local" (.ofContent readAuthor)),
  ("copyright", inserted "local" (.ofContent readCopyright)),
  ("license", inserted "local" (.ofContent readLicense)),
  ("package", inserted "local" (.ofContent readPackage)),
  ("see", inserted "local" (.ofContent readSee))]

end Tag
end Docblock
