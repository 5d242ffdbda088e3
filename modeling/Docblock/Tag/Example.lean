/-
# Examples

`@apiExample {type} title` is followed by the lines of the example. `@apiCode
{file=path} title` names a file that holds them.

Key definitions: `readExample`, `codeLanguage`, `readCode`, `exampleTags`.
-/
import Docblock.Tag.Basic
import Docblock.Text.Case
import Docblock.Text.Indent
import Docblock.Path

namespace Docblock
namespace Tag

open Pattern

/-- The tag, a type in braces and a title, each of them optional. -/
def exampleHeadPattern : Pattern :=
  all [.textStart, opt (.group 1 (all [lit "@", .chars Text.isAsciiWord])),
    opt (all [
      opt (all [blanks, lit "\x7b", blanks, .group 2 (chars1 (alnumOr "./\\[]_-")), blanks,
        lit "\x7d", blanks]),
      blanks, .group 3 (.chars notNewline)])]

/-- Reads an example: its first line gives type and title, and the lines below
are the example. -/
def readExample (source : String) : Option Json :=
  match Text.cutOnce? "\n" (Text.trim source) with
  | none => none
  | some (head, body) =>
    if body.isEmpty then none
    else
      let m := exampleHeadPattern.find? head
      let title := (m.bind fun m => m.group? 3).filter fun t => !t.isEmpty
      some (Json.ofPresent [
        ("title", title.map .str),
        ("content", Json.str (Text.unindent body)),
        ("type", Json.str ((m.bind fun m => m.group? 2).getD "json"))])

/-! ### Code files -/

/-- The language of a code file, by the ending of its name. -/
def codeLanguage (file : String) : String :=
  match Text.lower ((Path.extension? file).getD "") with
  | "js" => "javascript"
  | "ts" => "typescript"
  | "py" => "python"
  | "java" => "java"
  | "rb" => "ruby"
  | "php" => "php"
  | "go" => "go"
  | "rs" => "rust"
  | "cpp" => "cpp"
  | "c" => "c"
  | "cs" => "csharp"
  | "sh" => "bash"
  | "bash" => "bash"
  | "ps1" => "powershell"
  | "json" => "json"
  | "xml" => "xml"
  | "yaml" => "yaml"
  | "yml" => "yaml"
  | "md" => "markdown"
  | "html" => "html"
  | "css" => "css"
  | "sql" => "sql"
  | "kt" => "kotlin"
  | "swift" => "swift"
  | "dart" => "dart"
  | _ => "text"

/-- A language in parentheses, a file in braces and a title. -/
def codePart : Pattern :=
  all [opt (all [lit "(", .group 1 (chars1 (alnumOr "_-")), lit ")"]), blanks,
    lit "\x7bfile=", .group 2 (chars1 (· != '}')), lit "\x7d", blanks,
    .group 3 (.chars notNewline), .textEnd]

/-- The source of a code element. -/
def codeSourcePattern : Pattern :=
  all [.textStart, opt (all [lit "@", chars1 Text.isAsciiWord]), blanks, codePart]

/-- The content of a code element. -/
def codeContentPattern : Pattern :=
  all [.textStart, codePart]

/-- The language and title of a code element. -/
def codeInfo (m : Match) (file : String) : String × String :=
  ((m.group? 1).getD (codeLanguage file),
    ((m.group? 3).filter fun t => !t.isEmpty).getD "Code Example")

/-- Reads a code element that still names its file: the name stands for the
content. -/
def readCode : Reader := fun _ source memory =>
  let source := Text.trim source
  match codeSourcePattern.find? source with
  | none =>
    { result := .ok none, memory, remarks := ["could not parse @apiCode syntax: " ++ source] }
  | some m =>
    let file := m.group 2
    let (language, title) := codeInfo m file
    { result := .ok (some (.obj [("title", .str title), ("content", .str file),
        ("type", .str language)])), memory }

/-- The tags of examples. -/
def exampleTags : List (String × Tag) :=
  let shown : Reader := fun _ source memory => { result := .ok (readExample source), memory }
  [("apiExample", pushed "local.examples" shown),
    ("apiParamExample", pushed "local.parameter.examples" shown),
    ("apiSuccessExample", pushed "local.success.examples" shown),
    ("apiErrorExample", pushed "local.error.examples" shown),
    ("apiHeaderExample", pushed "local.header.examples" shown),
    ("apiCode", pushed "local.examples" readCode)]

end Tag
end Docblock
