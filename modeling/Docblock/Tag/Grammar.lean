/-
# Parts that tag grammars share

Many tags start with a group in parentheses, go on with a type in braces and
end with a field, its default and a description. The parts that are the same
everywhere are written here once.

Key definitions: `groupPart`, `sizePart`, `defaultPart`, `restPart`,
`splitAllowedValues`.
-/
import Docblock.Tag.Basic

namespace Docblock
namespace Tag

open Pattern

/-- Blanks, and what stands in parentheses as group `n`. -/
def groupPart (n : Nat) : Pattern :=
  all [blanks, opt (all [lit "(", blanks, .group n (charsLazy1 notNewline), blanks, lit ")", blanks])]

/-- A default behind an equals sign: in double quotes, in single quotes, or
bare up to a blank, a closing bracket or the end. -/
def defaultPart (double single bare : Nat) : Pattern :=
  opt (all [blanks, lit "=", blanks, any [
    all [lit "\"", .group double (.chars (· != '"')), lit "\""],
    all [lit "'", .group single (.chars (· != '\'')), lit "'"],
    all [.group bare (.charsLazy notNewline), any [.one Text.isBlank, lit "]", .textEnd]]]])

/-- The rest of the line as group `n`. -/
def restPart (n : Nat) : Pattern :=
  opt (.group n (.chars notNewline))

/-- A size in braces as group `n`, inside a type. -/
def sizePart (n : Nat) : Pattern :=
  opt (all [lit "\x7b", blanks, .group n (charsLazy1 notNewline), blanks, lit "\x7d", blanks])

/-- What a group matched, with its lines as they were. -/
def restored (m : Match) (n : Nat) : Option String :=
  (m.group? n).map Text.unflatten

/-- What a group matched, with its lines as they were, unless it is empty. -/
def restoredNonEmpty (m : Match) (n : Nat) : Option String :=
  (restored m n).filter fun s => !s.isEmpty

/-- The content as one line, ready for a grammar. -/
def oneLine (content : String) : String :=
  Text.flatten (Text.trim content)

/-- The first line of a content, cut at a stray `@`. -/
def firstLine (content : String) : String :=
  Text.trim (Text.upTo (fun c => c == '\n' || c == '@') content)

/-- The values of an `a,b` list: in double quotes, in single quotes or bare,
as the first character says. -/
def splitAllowedValues (values : String) : List String :=
  let pattern := match values.toList.head? with
    | some '"' => all [lit "\"", .chars (· != '"'), .one (· != '"'), lit "\""]
    | some '\'' => all [lit "'", .chars (· != '\''), .one (· != '\''), lit "'"]
    | _ => chars1 fun c => c != ',' && !Text.isBlank c
  (pattern.findAll values).map Match.text

end Tag
end Docblock
