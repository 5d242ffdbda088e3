/-
# Blanks

White space is a property of characters, wider than the four blanks of a
keyboard: the no-break space, the line separators and the spaces of
typography count too. Trimming, the blank class of patterns and the
indentation of comments all use this one set.

Key definitions: `isBlank`, `trimStart`, `trimEnd`, `trim`, `words`.
-/

namespace Docblock
namespace Text

/-- The characters with the white space property. -/
def isBlank (c : Char) : Bool :=
  let n := c.toNat
  (9 ≤ n && n ≤ 13) || n == 0x20 || n == 0x85 || n == 0xA0 || n == 0x1680 ||
    (0x2000 ≤ n && n ≤ 0x200A) || n == 0x2028 || n == 0x2029 || n == 0x202F ||
    n == 0x205F || n == 0x3000

/-- The text without the blanks it starts with. -/
def dropBlanks (cs : List Char) : List Char :=
  cs.dropWhile isBlank

/-- The text without the blanks it ends with. -/
def dropBlanksEnd (cs : List Char) : List Char :=
  (cs.reverse.dropWhile isBlank).reverse

/-- The text without the blanks around it. -/
def stripBlanks (cs : List Char) : List Char :=
  dropBlanksEnd (dropBlanks cs)

/-- `dropBlanks` on strings. -/
def trimStart (s : String) : String :=
  String.ofList (dropBlanks s.toList)

/-- `dropBlanksEnd` on strings. -/
def trimEnd (s : String) : String :=
  String.ofList (dropBlanksEnd s.toList)

/-- `stripBlanks` on strings. -/
def trim (s : String) : String :=
  String.ofList (stripBlanks s.toList)

/-- The text without the blanks around it, if anything is left. -/
def nonBlank? (s : String) : Option String :=
  let t := trim s
  if t.isEmpty then none else some t

/-- The words of a text: the pieces between runs of blanks. `word` is the
piece that is being collected, last character first. -/
def wordsOf (word : List Char) : List Char → List (List Char)
  | [] => if word.isEmpty then [] else [word.reverse]
  | c :: cs =>
    if isBlank c then
      if word.isEmpty then wordsOf [] cs else word.reverse :: wordsOf [] cs
    else wordsOf (c :: word) cs

/-- `wordsOf` on strings. -/
def words (s : String) : List String :=
  (wordsOf [] s.toList).map String.ofList

end Text
end Docblock
