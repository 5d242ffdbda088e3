/-
# The written form of patterns

Comment delimiters and file filters are given as text: `.` and classes in
brackets, `*`, `+`, `?` and counts in braces (lazy with a `?` behind), groups
in parentheses, `|` between choices, `^` and `$`, and the flags `i`, `m`, `s`,
`U` and `x`. A text that does not follow these rules has no pattern.

Key definitions: `Pattern.Flags`, `Pattern.readBody`, `Pattern.ofText?`.
-/
import Docblock.Pattern.Basic
import Docblock.Text.Case

namespace Docblock
namespace Pattern

/-- How the characters of a written pattern are understood. -/
structure Flags where
  ignoreCase : Bool := false
  multiLine : Bool := false
  dotAll : Bool := false
  swapGreed : Bool := false
  skipBlanks : Bool := false

/-- A class that also accepts the other case of what it accepts. -/
def Flags.fold (f : Flags) (accepts : Char → Bool) : Char → Bool :=
  if f.ignoreCase then fun c => (Text.caseVariants c).any accepts else accepts

/-! ### Escapes -/

/-- The characters that may follow a backslash to stand for themselves. -/
def isEscapable (c : Char) : Bool :=
  c.toNat < 0x80 && !c.isAlphanum && c != '<' && c != '>'

/-- The value of a hexadecimal digit. -/
def hexDigit? (c : Char) : Option Nat :=
  if c.isDigit then some (c.toNat - 48)
  else if 'a' ≤ c && c ≤ 'f' then some (c.toNat - 87)
  else if 'A' ≤ c && c ≤ 'F' then some (c.toNat - 55)
  else none

/-- The character with the given hexadecimal number. -/
def charOfHex? (ds : List Char) : Option Char := do
  let digits ← ds.mapM hexDigit?
  let n := digits.foldl (fun n d => n * 16 + d) 0
  if digits.isEmpty || n > 0x10FFFF || (0xD800 ≤ n && n < 0xE000) then none
  else some (Char.ofNat n)

/-- Reads the digits of a numbered character: in braces, or exactly `width`. -/
def readHex (width : Nat) : List Char → Option (Char × List Char)
  | '{' :: rest =>
    match rest.dropWhile (· != '}') with
    | '}' :: after => (charOfHex? (rest.takeWhile (· != '}'))).map fun c => (c, after)
    | _ => none
  | rest =>
    if rest.length < width then none
    else (charOfHex? (rest.take width)).map fun c => (c, rest.drop width)

/-- What an escape stands for. -/
inductive Escape where
  | char (c : Char)
  | cls (accepts : Char → Bool)
  | place (p : Pattern)

/-- Reads an escape after its backslash. -/
def readEscape : List Char → Option (Escape × List Char)
  | [] => none
  | c :: rest =>
    match c with
    | 'd' => some (.cls Text.isDecimal, rest)
    | 'D' => some (.cls fun c => !Text.isDecimal c, rest)
    | 's' => some (.cls Text.isBlank, rest)
    | 'S' => some (.cls fun c => !Text.isBlank c, rest)
    | 'w' => some (.cls Text.isWord, rest)
    | 'W' => some (.cls fun c => !Text.isWord c, rest)
    | 'b' => some (.place .wordEdge, rest)
    | 'B' => some (.place .noWordEdge, rest)
    | 'A' => some (.place .textStart, rest)
    | 'z' => some (.place .textEnd, rest)
    | 'n' => some (.char '\n', rest)
    | 'r' => some (.char '\r', rest)
    | 't' => some (.char '\t', rest)
    | 'f' => some (.char (Char.ofNat 12), rest)
    | 'v' => some (.char (Char.ofNat 11), rest)
    | 'a' => some (.char (Char.ofNat 7), rest)
    | 'x' => (readHex 2 rest).map fun (c, r) => (.char c, r)
    | 'u' => (readHex 4 rest).map fun (c, r) => (.char c, r)
    | 'U' => (readHex 8 rest).map fun (c, r) => (.char c, r)
    | c => if isEscapable c then some (.char c, rest) else none

/-! ### Classes in brackets -/

/-- The named classes that may stand inside brackets. -/
def namedClass? (name : String) : Option (Char → Bool) :=
  let ascii (p : Char → Bool) : Char → Bool := fun c => c.toNat < 0x80 && p c
  match name with
  | "alnum" => some (ascii Char.isAlphanum)
  | "alpha" => some (ascii Char.isAlpha)
  | "ascii" => some (ascii fun _ => true)
  | "blank" => some fun c => c == ' ' || c == '\t'
  | "cntrl" => some (ascii fun c => c.toNat < 32 || c.toNat == 127)
  | "digit" => some (ascii Char.isDigit)
  | "graph" => some (ascii fun c => 32 < c.toNat && c.toNat < 127)
  | "lower" => some (ascii Char.isLower)
  | "print" => some (ascii fun c => 32 ≤ c.toNat && c.toNat < 127)
  | "punct" => some (ascii fun c => 32 < c.toNat && c.toNat < 127 && !c.isAlphanum)
  | "space" => some (ascii Text.isBlank)
  | "upper" => some (ascii Char.isUpper)
  | "word" => some (ascii Text.isAsciiWord)
  | "xdigit" => some (ascii fun c => (hexDigit? c).isSome)
  | _ => none

/-- Reads a named class such as `[:alpha:]` after its opening bracket. -/
def readNamed (cs : List Char) : Option ((Char → Bool) × List Char) :=
  match cs with
  | ':' :: rest =>
    let (negated, rest) := match rest with
      | '^' :: r => (true, r)
      | r => (false, r)
    match rest.dropWhile (· != ':') with
    | ':' :: ']' :: after =>
      (namedClass? (String.ofList (rest.takeWhile (· != ':')))).map fun p =>
        (if negated then fun c => !p c else p, after)
    | _ => none
  | _ => none

/-- One character or class inside brackets. -/
inductive ClassAtom where
  | char (c : Char)
  | cls (accepts : Char → Bool)

/-- Reads a single character or an escape inside brackets. -/
def readClassAtom : List Char → Option (ClassAtom × List Char)
  | [] => none
  | '\\' :: rest =>
    match readEscape rest with
    | some (.char c, r) => some (.char c, r)
    | some (.cls p, r) => some (.cls p, r)
    | _ => none
  | c :: rest => some (.char c, rest)

/-- How the part of a class that is being read combines with what was read
before it. -/
inductive SetOp where
  | meet
  | minus
  | differ

/-- Combines two classes. -/
def SetOp.apply : Option SetOp → (a b : Char → Bool) → Char → Bool
  | none, _, b => b
  | some .meet, a, b => fun c => a c && b c
  | some .minus, a, b => fun c => a c && !b c
  | some .differ, a, b => fun c => a c != b c

/-- Reads a class after its opening bracket, and after the `^` that negates
it. `left` with `op` is what an operator such as `&&` combines; `accepts` is
the class so far, and `first` holds until something was read. -/
def readClass (f : Flags) : (fuel : Nat) → (left : Char → Bool) → Option SetOp →
    (accepts : Char → Bool) → (first : Bool) → List Char → Option ((Char → Bool) × List Char)
  | 0, _, _, _, _, _ => none
  | fuel + 1, left, op, accepts, first, cs =>
    match cs with
    | [] => none
    | '&' :: '&' :: rest =>
      readClass f fuel (SetOp.apply op left accepts) (some .meet) (fun _ => false) false rest
    | '-' :: '-' :: rest =>
      readClass f fuel (SetOp.apply op left accepts) (some .minus) (fun _ => false) false rest
    | '~' :: '~' :: rest =>
      readClass f fuel (SetOp.apply op left accepts) (some .differ) (fun _ => false) false rest
    | '[' :: rest =>
      match readNamed rest with
      | some (p, rest) =>
        let p := f.fold p
        readClass f fuel left op (fun c => accepts c || p c) false rest
      | none =>
        let (negated, rest) := match rest with
          | '^' :: r => (true, r)
          | r => (false, r)
        match readClass f fuel (fun _ => false) none (fun _ => false) true rest with
        | some (p, rest) =>
          let p : Char → Bool := if negated then fun c => !p c else p
          readClass f fuel left op (fun c => accepts c || p c) false rest
        | none => none
    | c :: rest =>
      if c == ']' && !first then some (SetOp.apply op left accepts, rest)
      else if f.skipBlanks && Text.isBlank c then readClass f fuel left op accepts first rest
      else
        match readClassAtom cs with
        | none => none
        | some (.cls p, after) =>
          let p := f.fold p
          readClass f fuel left op (fun c => accepts c || p c) false after
        | some (.char lo, '-' :: after) =>
          match after with
          | [] => none
          | ']' :: _ =>
            let p := f.fold fun c => c == lo || c == '-'
            readClass f fuel left op (fun c => accepts c || p c) false after
          | '-' :: _ =>
            let p := f.fold fun c => c == lo
            readClass f fuel left op (fun c => accepts c || p c) false ('-' :: after)
          | _ =>
            match readClassAtom after with
            | some (.char hi, after) =>
              if hi.toNat < lo.toNat then none
              else
                let p := f.fold fun c => lo.toNat ≤ c.toNat && c.toNat ≤ hi.toNat
                readClass f fuel left op (fun c => accepts c || p c) false after
            | _ => none
        | some (.char lo, after) =>
          let p := f.fold fun c => c == lo
          readClass f fuel left op (fun c => accepts c || p c) false after

/-! ### Repetition -/

/-- `a` repeated without bound. -/
def star (greedy : Bool) (a : Pattern) : Pattern :=
  match a, greedy with
  | .one accepts, true => .chars accepts
  | .one accepts, false => .charsLazy accepts
  | a, true => .many a
  | a, false => .manyLazy a

/-- Up to `n` copies of `a`. -/
def upToCopies (greedy : Bool) (a : Pattern) : Nat → Pattern
  | 0 => .empty
  | n + 1 =>
    let more := Pattern.seq a (upToCopies greedy a n)
    if greedy then opt more else optLazy more

/-- At least `least` and at most `most` copies of `a`. -/
def copies (greedy : Bool) (a : Pattern) (least : Nat) (most : Option Nat) : Pattern :=
  match most with
  | none => .seq (times least a) (star greedy a)
  | some most => .seq (times least a) (upToCopies greedy a (most - least))

/-- The number that digits stand for. -/
def count? (ds : List Char) : Option Nat :=
  if ds.isEmpty || !ds.all Char.isDigit || ds.length > 6 then none
  else some (ds.foldl (fun n d => n * 10 + (d.toNat - 48)) 0)

/-- Reads the bounds of a counted repetition after its opening brace. -/
def readBounds (cs : List Char) : Option ((Nat × Option Nat) × List Char) :=
  match cs.dropWhile (· != '}') with
  | '}' :: rest =>
    let body := (cs.takeWhile (· != '}')).filter fun c => !Text.isBlank c
    let low := body.takeWhile (· != ',')
    match body.dropWhile (· != ',') with
    | [] => (count? low).map fun n => ((n, some n), rest)
    | [_] => (count? low).map fun n => ((n, none), rest)
    | _ :: high => do
      let n ← if low.isEmpty then some 0 else count? low
      let m ← count? high
      if m < n then none else return ((n, some m), rest)
  | _ => none

/-- Reads the repetition signs behind a pattern. -/
def readRepeats (f : Flags) : (fuel : Nat) → Pattern → List Char → Option (Pattern × List Char)
  | 0, p, cs => some (p, cs)
  | fuel + 1, p, cs =>
    let greed (rest : List Char) : Bool × List Char := match rest with
      | '?' :: r => (f.swapGreed, r)
      | r => (!f.swapGreed, r)
    match cs with
    | '*' :: rest =>
      let (g, rest) := greed rest
      readRepeats f fuel (star g p) rest
    | '+' :: rest =>
      let (g, rest) := greed rest
      readRepeats f fuel (.seq p (star g p)) rest
    | '?' :: rest =>
      let (g, rest) := greed rest
      readRepeats f fuel (if g then opt p else optLazy p) rest
    | '{' :: rest =>
      match readBounds rest with
      | none => none
      | some ((least, most), rest) =>
        let (g, rest) := greed rest
        readRepeats f fuel (copies g p least most) rest
    | c :: rest => if f.skipBlanks && Text.isBlank c then readRepeats f fuel p rest else some (p, cs)
    | [] => some (p, cs)

/-! ### Groups -/

/-- Reads flags up to the `)` or `:` behind them. -/
def readFlags : (on : Bool) → Flags → List Char → Option (Flags × Char × List Char)
  | _, _, [] => none
  | on, f, c :: rest =>
    match c with
    | ')' => some (f, ')', rest)
    | ':' => some (f, ':', rest)
    | '-' => if on then readFlags false f rest else none
    | 'i' => readFlags on { f with ignoreCase := on } rest
    | 'm' => readFlags on { f with multiLine := on } rest
    | 's' => readFlags on { f with dotAll := on } rest
    | 'U' => readFlags on { f with swapGreed := on } rest
    | 'x' => readFlags on { f with skipBlanks := on } rest
    | 'u' => readFlags on f rest
    | _ => none

/-- What an opening parenthesis begins. -/
inductive Opening where
  | flags (f : Flags)
  | group (f : Flags) (capturing : Bool)

/-- Whether a text can name a group. -/
def isGroupName : List Char → Bool
  | [] => false
  | c :: cs => (c.isAlpha || c == '_') && cs.all fun c => c.isAlphanum || c == '_' || c == '.'

/-- Reads what stands behind an opening parenthesis. -/
def readOpening (f : Flags) (cs : List Char) : Option (Opening × List Char) :=
  let named (rest : List Char) : Option (Opening × List Char) :=
    match rest.dropWhile (· != '>') with
    | '>' :: after =>
      if isGroupName (rest.takeWhile (· != '>')) then some (.group f true, after) else none
    | _ => none
  match cs with
  | '?' :: 'P' :: '<' :: rest => named rest
  | '?' :: '<' :: rest => named rest
  | '?' :: rest =>
    match rest with
    | ')' :: _ => none
    | _ =>
      match readFlags true f rest with
      | some (g, ')', rest) => some (.flags g, rest)
      | some (g, _, rest) => some (.group g false, rest)
      | none => none
  | rest => some (.group f true, rest)

/-! ### Whole patterns -/

/-- The choices read so far, the last one first, as one pattern. -/
def finish (alts : List (List Pattern)) (items : List Pattern) : Pattern :=
  any ((items :: alts).reverse.map fun ps => all ps.reverse)

/-- Reads one character, class or place. -/
def readAtom (f : Flags) : List Char → Option (Pattern × List Char)
  | [] => none
  | c :: rest =>
    match c with
    | '.' => some (.one (if f.dotAll then fun _ => true else notNewline), rest)
    | '^' => some (if f.multiLine then .lineStart else .textStart, rest)
    | '$' => some (if f.multiLine then .lineEnd else .textEnd, rest)
    | '\\' =>
      match readEscape rest with
      | some (.char c, rest) => some (.one (f.fold (· == c)), rest)
      | some (.cls p, rest) => some (.one (f.fold p), rest)
      | some (.place p, rest) => some (p, rest)
      | none => none
    | '[' =>
      let (negated, rest) := match rest with
        | '^' :: r => (true, r)
        | r => (false, r)
      (readClass f (rest.length + 1) (fun _ => false) none (fun _ => false) true rest).map
        fun (p, rest) => (.one (if negated then fun c => !p c else p), rest)
    | c =>
      if c == '*' || c == '+' || c == '?' || c == '{' then none
      else some (.one (f.fold (· == c)), rest)

/-- Reads a pattern up to the end of the text or of its group. `next` is the
number of the next group; `alts` and `items` hold what was read, the last
first. -/
def readBody : (fuel : Nat) → Flags → (next : Nat) → (alts : List (List Pattern)) →
    (items : List Pattern) → List Char → Option (Pattern × Nat × List Char)
  | 0, _, _, _, _, _ => none
  | fuel + 1, f, next, alts, items, cs =>
    match cs with
    | [] => some (finish alts items, next, [])
    | ')' :: _ => some (finish alts items, next, cs)
    | '|' :: rest => readBody fuel f next (items :: alts) [] rest
    | '(' :: rest =>
      match readOpening f rest with
      | none => none
      | some (.flags g, rest) => readBody fuel g next alts items rest
      | some (.group g capturing, rest) =>
        match readBody fuel g (if capturing then next + 1 else next) [] [] rest with
        | some (p, after, ')' :: rest) =>
          match readRepeats f (rest.length + 1) (if capturing then .group next p else p) rest with
          | some (p, rest) => readBody fuel f after alts (p :: items) rest
          | none => none
        | _ => none
    | c :: rest =>
      if f.skipBlanks && Text.isBlank c then readBody fuel f next alts items rest
      else if f.skipBlanks && c == '#' then
        readBody fuel f next alts items (rest.dropWhile (· != '\n'))
      else
        match readAtom f cs with
        | none => none
        | some (p, rest) =>
          match readRepeats f (rest.length + 1) p rest with
          | some (p, rest) => readBody fuel f next alts (p :: items) rest
          | none => none

/-- The pattern that a text describes. -/
def ofText? (s : String) : Option Pattern :=
  match readBody (s.length + 1) {} 1 [] [] s.toList with
  | some (p, _, []) => some p
  | _ => none

end Pattern
end Docblock
