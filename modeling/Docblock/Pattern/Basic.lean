/-
# Patterns

A pattern describes pieces of text: characters of a class, sequences,
choices, repetitions and places (the start or end of the text or of a line,
the edge of a word). Numbered groups remember what they matched. Tag
contents, comment delimiters and file filters are all read with patterns.

Key definitions: `Pattern`, `Cursor`, `Span`, `Captures`, `Pattern.run`.
Key theorems: `Pattern.run_alt_left`.
-/
import Docblock.Text.Blank
import Docblock.Text.Word

namespace Docblock

/-- A description of pieces of text. `chars` and `many` take as much as they
can, their lazy forms as little. -/
inductive Pattern where
  | empty
  | one (accepts : Char → Bool)
  | chars (accepts : Char → Bool)
  | charsLazy (accepts : Char → Bool)
  | seq (a b : Pattern)
  | alt (a b : Pattern)
  | many (a : Pattern)
  | manyLazy (a : Pattern)
  | group (n : Nat) (a : Pattern)
  | textStart
  | textEnd
  | lineStart
  | lineEnd
  | wordEdge
  | noWordEdge

/-- A place in a text: what stands before it, last character first, and what
stands after it. -/
structure Cursor where
  before : List Char
  rest : List Char

/-- A piece of a text, given by the text from its start on and the text from
its end on. -/
structure Span where
  start : List Char
  stop : List Char

namespace Span

/-- The characters of the piece. -/
def chars (s : Span) : List Char :=
  s.start.take (s.start.length - s.stop.length)

/-- The piece as a string. -/
def text (s : Span) : String :=
  String.ofList s.chars

end Span

/-- What the groups matched, the latest first. A group that took no part is
missing, unlike one that matched the empty text. -/
abbrev Captures := List (Nat × Span)

namespace Cursor

/-- The start of a text. -/
def ofChars (cs : List Char) : Cursor := ⟨[], cs⟩

/-- Whether a word ends or begins here. -/
def atWordEdge (c : Cursor) : Bool :=
  (c.before.head?.any Text.isWord) != (c.rest.head?.any Text.isWord)

/-- Whether a line begins here. -/
def atLineStart (c : Cursor) : Bool :=
  match c.before with
  | [] => true
  | b :: _ => b == '\n'

/-- Whether a line ends here. -/
def atLineEnd (c : Cursor) : Bool :=
  match c.rest with
  | [] => true
  | r :: _ => r == '\n'

end Cursor

namespace Pattern

/-! ### Matching

The matcher tries the possibilities in order and goes back when what follows
fails: the first choice that leads to a match of the whole wins. What
follows is a function, the continuation. -/

variable {α : Type}

/-- What is tried after a piece has matched. -/
abbrev Next (α : Type) := Cursor → Captures → Option α

/-- The longest run of accepted characters after which `next` succeeds. -/
def runChars (accepts : Char → Bool) (next : Next α) (caps : Captures) :
    (before rest : List Char) → Option α
  | before, [] => next ⟨before, []⟩ caps
  | before, c :: cs =>
    if accepts c then
      match runChars accepts next caps (c :: before) cs with
      | some r => some r
      | none => next ⟨before, c :: cs⟩ caps
    else next ⟨before, c :: cs⟩ caps

/-- The shortest run of accepted characters after which `next` succeeds. -/
def runCharsLazy (accepts : Char → Bool) (next : Next α) (caps : Captures) :
    (before rest : List Char) → Option α
  | before, [] => next ⟨before, []⟩ caps
  | before, c :: cs =>
    match next ⟨before, c :: cs⟩ caps with
    | some r => some r
    | none => if accepts c then runCharsLazy accepts next caps (c :: before) cs else none

/-- Whether a pattern can match without taking a character. -/
def nullable : Pattern → Bool
  | .one _ => false
  | .seq a b => nullable a && nullable b
  | .alt a b => nullable a || nullable b
  | .group _ a => nullable a
  | _ => true

/-- Repeats `body`, more rounds first. A round that takes no character ends
the repetition (`empties` says that there can be such rounds), so there are
at most as many rounds as characters; the recursion runs over those. -/
def repeatGreedy (empties : Bool) (body : Next α → Next α) (next : Next α) :
    (budget : List Char) → Next α
  | [], here, caps => next here caps
  | _ :: budget, here, caps =>
    match body (fun there caps =>
        if empties && there.rest.length == here.rest.length then none
        else repeatGreedy empties body next budget there caps) here caps with
    | some r => some r
    | none => next here caps

/-- Repeats `body`, fewer rounds first. -/
def repeatLazy (empties : Bool) (body : Next α → Next α) (next : Next α) :
    (budget : List Char) → Next α
  | [], here, caps => next here caps
  | _ :: budget, here, caps =>
    match next here caps with
    | some r => some r
    | none => body (fun there caps =>
        if empties && there.rest.length == here.rest.length then none
        else repeatLazy empties body next budget there caps) here caps

/-- Matches the pattern here and goes on with `next`. -/
def run : Pattern → Next α → Next α
  | .empty, next => next
  | .one accepts, next => fun here caps =>
    match here.rest with
    | c :: cs => if accepts c then next ⟨c :: here.before, cs⟩ caps else none
    | [] => none
  | .chars accepts, next => fun here caps => runChars accepts next caps here.before here.rest
  | .charsLazy accepts, next => fun here caps => runCharsLazy accepts next caps here.before here.rest
  | .seq a b, next => run a (run b next)
  | .alt a b, next => fun here caps =>
    match run a next here caps with
    | some r => some r
    | none => run b next here caps
  | .many a, next => fun here caps =>
    repeatGreedy (nullable a) (run a) next here.rest here caps
  | .manyLazy a, next => fun here caps =>
    repeatLazy (nullable a) (run a) next here.rest here caps
  | .group n a, next => fun here caps =>
    run a (fun there caps => next there ((n, ⟨here.rest, there.rest⟩) :: caps)) here caps
  | .textStart, next => fun here caps => if here.before.isEmpty then next here caps else none
  | .textEnd, next => fun here caps => if here.rest.isEmpty then next here caps else none
  | .lineStart, next => fun here caps => if here.atLineStart then next here caps else none
  | .lineEnd, next => fun here caps => if here.atLineEnd then next here caps else none
  | .wordEdge, next => fun here caps => if here.atWordEdge then next here caps else none
  | .noWordEdge, next => fun here caps => if here.atWordEdge then none else next here caps

/-- A choice goes on with the first pattern where that leads to a match. -/
theorem run_alt_left {p q : Pattern} {next : Next α} {here : Cursor} {caps : Captures} {r : α}
    (h : run p next here caps = some r) : run (.alt p q) next here caps = some r := by
  simp only [run, h]

/-! ### Ways to write patterns -/

/-- The patterns one after the other. -/
def all : List Pattern → Pattern
  | [] => .empty
  | [p] => p
  | p :: ps => .seq p (all ps)

/-- The first of the patterns that fits. -/
def any : List Pattern → Pattern
  | [] => .one fun _ => false
  | [p] => p
  | p :: ps => .alt p (any ps)

/-- Exactly this text. -/
def lit (s : String) : Pattern :=
  all (s.toList.map fun c => .one (· == c))

/-- The pattern or nothing, the pattern first. -/
def opt (a : Pattern) : Pattern := .alt a .empty

/-- The pattern or nothing, nothing first. -/
def optLazy (a : Pattern) : Pattern := .alt .empty a

/-- One or more characters, as many as possible. -/
def chars1 (accepts : Char → Bool) : Pattern := .seq (.one accepts) (.chars accepts)

/-- One or more characters, as few as possible. -/
def charsLazy1 (accepts : Char → Bool) : Pattern := .seq (.one accepts) (.charsLazy accepts)

/-- Any run of blanks. -/
def blanks : Pattern := .chars Text.isBlank

/-- A run of at least one blank. -/
def blanks1 : Pattern := chars1 Text.isBlank

/-- `n` copies of a pattern. -/
def times (n : Nat) (a : Pattern) : Pattern := all (List.replicate n a)

/-! ### Classes of characters -/

/-- Every character but the end of a line. -/
def notNewline (c : Char) : Bool := c != '\n'

/-- One of the listed characters. -/
def among (s : String) : Char → Bool := fun c => s.toList.contains c

/-- None of the listed characters. -/
def notAmong (s : String) : Char → Bool := fun c => !s.toList.contains c

/-- An ASCII letter or digit, or one of the listed characters. -/
def alnumOr (s : String) : Char → Bool := fun c => c.isAlphanum || s.toList.contains c

end Pattern
end Docblock
