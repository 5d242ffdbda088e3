/-
# Comment syntax of languages

A language says which pattern its documentation comments have (the text is
group 2 or, failing that, group 1) and which pattern leads the lines inside
them. The text is read as one line, so `.` goes over line ends.

Key definitions: `Language`, `Languages`, `Languages.forExtension`,
`Language.comments`.
-/
import Docblock.Pattern.Search
import Docblock.Pattern.Reader
import Docblock.Text.Cut
import Docblock.Text.Case

namespace Docblock

/-- The comment syntax of a language. -/
structure Language where
  /-- A documentation comment, with its text as group 2 or 1. -/
  comment : Pattern
  /-- What leads a line inside a comment and is removed. -/
  leader : Pattern

namespace Language

open Pattern

/-- The end of a line in a text that is read as one line. -/
def lineEndMark : Pattern := .one (· == Text.lineMark)

/-- The text of a comment as group `n` and its closing mark: a line end and
blanks around the text do not belong to it. -/
def body (n : Nat) (close : Pattern) : Pattern :=
  all [opt lineEndMark, .group n (charsLazy1 notNewline), opt lineEndMark, opt blanks, close]

/-- Blanks, a mark and one space at the start of a line. -/
def leaderMark (mark : Pattern) : Pattern :=
  all [.lineStart, opt (.group 1 blanks), .group 2 mark, opt (lit " ")]

/-- Tabs at the start of a line. -/
def leadingTabs : Pattern := all [.lineStart, opt (.group 1 (.chars (· == '\t')))]

/-- Comments between `/**` and `*/`, with a star before each line. -/
def cStyle : Language := ⟨all [lit "/**", body 1 (lit "*/")], leaderMark (lit "*")⟩

/-- Texts in triple quotes. -/
def python : Language :=
  let quotes := any [lit "\"\"\"", lit "'''"]
  ⟨all [.group 1 quotes, body 2 quotes], leadingTabs⟩

/-- Comments between `=begin` and `=end`. -/
def ruby : Language := ⟨all [lit "=begin", body 1 (lit "=end")], leadingTabs⟩

/-- Comments between `###` and `###`. -/
def coffee : Language := ⟨all [lit "###", body 1 (lit "###")], leadingTabs⟩

/-- Comments between `%{` and `%}`, with a percent sign before each line. -/
def erlang : Language := ⟨all [lit "%\x7b", body 1 (lit "%\x7d")], leaderMark (lit "%")⟩

/-- Comments between `#**` and `#*`, or between `=pod` and `=cut`. -/
def perl : Language :=
  ⟨any [all [lit "#**", body 1 (lit "#*")], all [lit "=pod", body 2 (lit "=cut")]],
    all [.lineStart, opt (.group 1 blanks1), .group 2 (lit "#"), opt (lit " ")]⟩

/-- Comments between `--[[` and `]]`. -/
def lua : Language := ⟨all [lit "--[[", body 1 (lit "]]")], leadingTabs⟩

/-- Comments between `;;;;` and `;;;;`, with semicolons before each line. -/
def clojure : Language :=
  ⟨all [lit ";;;;", body 1 (lit ";;;;")], leaderMark (chars1 (· == ';'))⟩

/-- Texts in triple quotes behind `@doc` and its kin. -/
def elixir : Language :=
  ⟨all [lit "@", .chars Text.isWord, lit "doc", blanks, lit "\"\"\"", body 1 (lit "\"\"\"")],
    leadingTabs⟩

/-- A language given by two written patterns. -/
def ofTexts? (comment leader : String) : Option Language := do
  return ⟨← Pattern.ofText? comment, ← Pattern.ofText? leader⟩

/-- The texts of the documentation comments in a source, without the leaders
of their lines. -/
def comments (l : Language) (source : String) : List String :=
  (l.comment.findAll (Text.flatten source)).filterMap fun m =>
    ((m.group? 2).or (m.group? 1)).map fun text =>
      l.leader.replaceAll (fun _ => "") (Text.unflatten text)

end Language

/-- The languages by the endings of file names, and the one for all others. -/
structure Languages where
  byExtension : List (String × Language)
  fallback : Language

namespace Languages

/-- The built-in languages. -/
def builtin : Languages where
  byExtension := [(".py", Language.python), (".rb", Language.ruby), (".coffee", Language.coffee),
    (".litcoffee", Language.coffee), (".erl", Language.erlang), (".pm", Language.perl),
    (".pl", Language.perl), (".lua", Language.lua), (".clj", Language.clojure),
    (".ex", Language.elixir), (".exs", Language.elixir)]
  fallback := Language.cStyle

/-- Adds or replaces the language of an ending; `default` stands for all
others. -/
def add (ls : Languages) (ext : String) (l : Language) : Languages :=
  if ext == "default" then { ls with fallback := l }
  else { ls with byExtension := (Text.lower ext, l) :: ls.byExtension }

/-- The language of an ending. -/
def forExtension (ls : Languages) (ext : String) : Language :=
  match ls.byExtension.find? fun entry => entry.1 == Text.lower ext with
  | some (_, l) => l
  | none => ls.fallback

end Languages
end Docblock
