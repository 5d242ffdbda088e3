/-
# Writing JSON

Two written forms: the compact one without any blanks, and the indented one
with one entry a line and two spaces a level.

Key definitions: `Json.quote`, `Json.compact`, `Json.pretty`.
-/
import Docblock.Json.Basic
import Docblock.Decimal.Shortest

namespace Docblock
namespace Json

/-! ### Texts and numbers -/

/-- A hexadecimal digit in small letters. -/
def hexDigit (n : Nat) : Char :=
  if n < 10 then Char.ofNat (48 + n) else Char.ofNat (87 + n)

/-- The written form of a character inside a text. -/
def escapeChar (c : Char) : List Char :=
  if c == '"' then ['\\', '"']
  else if c == '\\' then ['\\', '\\']
  else if c.toNat == 8 then ['\\', 'b']
  else if c.toNat == 12 then ['\\', 'f']
  else if c == '\n' then ['\\', 'n']
  else if c == '\r' then ['\\', 'r']
  else if c == '\t' then ['\\', 't']
  else if c.toNat < 32 then ['\\', 'u', '0', '0', hexDigit (c.toNat / 16), hexDigit (c.toNat % 16)]
  else [c]

/-- A text in double quotes. -/
def quote (s : String) : String :=
  "\"" ++ String.ofList (s.toList.flatMap escapeChar) ++ "\""

/-- The written form of a whole number. -/
def renderInt (n : Int) : String :=
  (if n < 0 then "-" else "") ++ String.ofList (Binary64.digitsOf n.natAbs)

/-- The written form of a number. -/
def Number.render : Number → String
  | .int n => renderInt n
  | .real x => x.render

/-! ### Compact form -/

mutual

/-- The value without any blanks. -/
def compact : Json → String
  | .null => "null"
  | .bool true => "true"
  | .bool false => "false"
  | .num n => n.render
  | .str s => quote s
  | .arr [] => "[]"
  | .arr (x :: xs) => "[" ++ compact x ++ compactElems xs
  | .obj [] => "\x7b\x7d"
  | .obj ((k, v) :: rest) => "\x7b" ++ quote k ++ ":" ++ compact v ++ compactFields rest

/-- The elements after the first, and the closing bracket. -/
def compactElems : List Json → String
  | [] => "]"
  | x :: xs => "," ++ compact x ++ compactElems xs

/-- The entries after the first, and the closing brace. -/
def compactFields : List (String × Json) → String
  | [] => "\x7d"
  | (k, v) :: rest => "," ++ quote k ++ ":" ++ compact v ++ compactFields rest

end

/-! ### Indented form -/

/-- The end of a line and the indentation of the next. -/
def newLine (depth : Nat) : String :=
  String.ofList ('\n' :: List.replicate (2 * depth) ' ')

mutual

/-- The value with one entry a line, at an indentation depth. -/
def prettyAt (depth : Nat) : Json → String
  | .null => "null"
  | .bool true => "true"
  | .bool false => "false"
  | .num n => n.render
  | .str s => quote s
  | .arr [] => "[]"
  | .arr (x :: xs) => "[" ++ newLine (depth + 1) ++ prettyAt (depth + 1) x ++ prettyElems depth xs
  | .obj [] => "\x7b\x7d"
  | .obj ((k, v) :: rest) =>
    "\x7b" ++ newLine (depth + 1) ++ quote k ++ ": " ++ prettyAt (depth + 1) v ++
      prettyFields depth rest

/-- The elements after the first, and the closing bracket. -/
def prettyElems (depth : Nat) : List Json → String
  | [] => newLine depth ++ "]"
  | x :: xs => "," ++ newLine (depth + 1) ++ prettyAt (depth + 1) x ++ prettyElems depth xs

/-- The entries after the first, and the closing brace. -/
def prettyFields (depth : Nat) : List (String × Json) → String
  | [] => newLine depth ++ "\x7d"
  | (k, v) :: rest =>
    "," ++ newLine (depth + 1) ++ quote k ++ ": " ++ prettyAt (depth + 1) v ++
      prettyFields depth rest

end

/-- The value in indented form. -/
def pretty (v : Json) : String := prettyAt 0 v

end Json
end Docblock
