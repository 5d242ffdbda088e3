/-
# Escaped characters

A backslash before punctuation takes its meaning away, and characters can be
written by name or number between `&` and `;`.

Key definitions: `Markdown.reference?`, `Markdown.unescape`.
-/
import Docblock.Markdown.CharacterName
import Docblock.Text.Punctuation

namespace Docblock
namespace Markdown

/-- The character of a number; numbers without one give the replacement
character. -/
def charOfNumber (n : Nat) : Char :=
  if n == 0 || n > 0x10FFFF || (0xD800 ≤ n && n < 0xE000) then Char.ofNat 0xFFFD else Char.ofNat n

/-- The value of digits in a base. -/
def digitsIn (base : Nat) (ds : List Char) : Nat :=
  ds.foldl (fun n c => n * base + (Json.hexValue? c).getD 0) 0

/-- A number of up to `most` digits and a semicolon. -/
def numbered? (base most : Nat) (isDigit : Char → Bool) (cs : List Char) :
    Option (String × List Char) :=
  let digits := (cs.takeWhile isDigit).take most
  match digits, cs.drop digits.length with
  | d :: ds, ';' :: rest => some (String.singleton (charOfNumber (digitsIn base (d :: ds))), rest)
  | _, _ => none

/-- What a character written behind `&` stands for, and the rest. -/
def reference? : List Char → Option (String × List Char)
  | '#' :: 'x' :: cs => numbered? 16 6 (fun c => (Json.hexValue? c).isSome) cs
  | '#' :: 'X' :: cs => numbered? 16 6 (fun c => (Json.hexValue? c).isSome) cs
  | '#' :: cs => numbered? 10 7 Char.isDigit cs
  | cs =>
    match cs.dropWhile Char.isAlphanum with
    | ';' :: rest =>
      (namedCharacters? (String.ofList (cs.takeWhile Char.isAlphanum))).map fun s => (s, rest)
    | _ => none

/-- The text that escaped characters stand for. -/
def unescapeChars : (fuel : Nat) → List Char → List Char
  | 0, cs => cs
  | _, [] => []
  | fuel + 1, '\\' :: c :: cs =>
    if Text.isAsciiPunctuation c then c :: unescapeChars fuel cs
    else '\\' :: unescapeChars fuel (c :: cs)
  | fuel + 1, '&' :: cs =>
    match reference? cs with
    | some (s, rest) => s.toList ++ unescapeChars fuel rest
    | none => '&' :: unescapeChars fuel cs
  | fuel + 1, c :: cs => c :: unescapeChars fuel cs

/-- The text that escaped characters stand for. -/
def unescape (cs : List Char) : String := String.ofList (unescapeChars cs.length cs)

end Markdown
end Docblock
