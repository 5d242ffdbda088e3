/-
# Cutting and joining text

Splitting at a character, cutting at the first occurrence of a piece of
text, replacing pieces. Each function is a recursion on the characters; the
string versions only convert.

Key definitions: `splitChars`, `split`, `cutAt?`, `cutOnce?`, `replace`.
Key theorems: `splitChars_ne_nil`, `eq_append_of_cutAt?`.
-/

namespace Docblock
namespace Text

/-! ### Splitting -/

/-- The pieces between the characters that satisfy `sep`, empty ones
included: one more piece than there are separators. -/
def splitChars (sep : Char → Bool) : List Char → List (List Char)
  | [] => [[]]
  | c :: cs =>
    if sep c then [] :: splitChars sep cs
    else match splitChars sep cs with
      | [] => [[c]]
      | piece :: pieces => (c :: piece) :: pieces

theorem splitChars_ne_nil (sep : Char → Bool) : ∀ cs, splitChars sep cs ≠ []
  | [] => by simp [splitChars]
  | c :: cs => by
    unfold splitChars
    split
    · simp
    · split <;> simp

/-- The pieces of `s` between the characters that satisfy `sep`. -/
def splitBy (sep : Char → Bool) (s : String) : List String :=
  (splitChars sep s.toList).map String.ofList

/-- The pieces of `s` between the occurrences of `sep`. -/
def split (sep : Char) (s : String) : List String :=
  splitBy (· == sep) s

/-- The part of `s` before the first character that satisfies `sep`. -/
def upTo (sep : Char → Bool) (s : String) : String :=
  String.ofList (s.toList.takeWhile fun c => !sep c)

/-- The pieces joined with `sep` between them. -/
def join (sep : String) (pieces : List String) : String :=
  String.intercalate sep pieces

/-- A line without the carriage return at its end. -/
def dropReturn (line : List Char) : List Char :=
  if line.getLast? == some '\r' then line.dropLast else line

/-- The lines of a text: without their ends, and without the empty line
behind a last end of line. -/
def lines (s : String) : List String :=
  let pieces := splitChars (· == '\n') s.toList
  let open? := pieces.getLast?.filter fun line => !line.isEmpty
  (pieces.dropLast.map dropReturn ++ open?.toList).map String.ofList

/-! ### Finding a piece of text -/

/-- What follows `piece`, if the text starts with it. -/
def dropPrefix? : (piece text : List Char) → Option (List Char)
  | [], text => some text
  | _ :: _, [] => none
  | p :: piece, c :: text => if p == c then dropPrefix? piece text else none

/-- The text before and after the first occurrence of `piece`. -/
def cutAt? (piece : List Char) : List Char → Option (List Char × List Char)
  | [] => (dropPrefix? piece []).map fun rest => ([], rest)
  | c :: cs =>
    match dropPrefix? piece (c :: cs) with
    | some rest => some ([], rest)
    | none => (cutAt? piece cs).map fun (before, rest) => (c :: before, rest)

theorem eq_append_of_dropPrefix? : ∀ {piece text rest : List Char},
    dropPrefix? piece text = some rest → text = piece ++ rest
  | [], text, rest, h => Option.some.inj h
  | p :: piece, [], rest, h => by cases h
  | p :: piece, c :: text, rest, h => by
    rw [dropPrefix?] at h
    split at h
    · next hc =>
      rw [List.cons_append, ← eq_append_of_dropPrefix? h, beq_iff_eq.mp hc]
    · cases h

/-- What stands before a piece and behind it makes up the text again. -/
theorem eq_append_of_cutAt? {piece : List Char} : ∀ {text before rest : List Char},
    cutAt? piece text = some (before, rest) → text = before ++ (piece ++ rest)
  | [], before, rest, h => by
    obtain ⟨tail, htail, heq⟩ := Option.map_eq_some_iff.mp h
    cases heq
    rw [List.nil_append, ← eq_append_of_dropPrefix? htail]
  | c :: cs, before, rest, h => by
    rw [cutAt?] at h
    split at h
    · next tail htail =>
      cases h
      rw [List.nil_append, ← eq_append_of_dropPrefix? htail]
    · obtain ⟨⟨before, rest⟩, hcut, heq⟩ := Option.map_eq_some_iff.mp h
      cases heq
      rw [List.cons_append, ← eq_append_of_cutAt? hcut]

/-- `s` without `pre` in front, if it starts with it. -/
def strip? (pre s : String) : Option String :=
  (dropPrefix? pre.toList s.toList).map String.ofList

/-- Whether `s` starts with `pre`. -/
def startsWith (s pre : String) : Bool :=
  (dropPrefix? pre.toList s.toList).isSome

/-- Whether `s` ends with `suf`. -/
def endsWith (s suf : String) : Bool :=
  (dropPrefix? suf.toList.reverse s.toList.reverse).isSome

/-- The parts of `s` before and after the first occurrence of `piece`. -/
def cutOnce? (piece s : String) : Option (String × String) :=
  (cutAt? piece.toList s.toList).map fun (a, b) => (String.ofList a, String.ofList b)

/-- The parts of `s` before and after the last occurrence of the character. -/
def cutLast? (sep : Char) (s : String) : Option (String × String) :=
  let back := s.toList.reverse
  match back.dropWhile (· != sep) with
  | [] => none
  | _ :: before =>
    some (String.ofList before.reverse, String.ofList (back.takeWhile (· != sep)).reverse)

/-- Whether `piece` occurs in `s`. -/
def contains (s piece : String) : Bool :=
  (cutAt? piece.toList s.toList).isSome

/-! ### Replacing -/

/-- Every occurrence of the non-empty `piece`, from the left and without
overlap, becomes `new`. The first argument counts the characters of a match
that are still to be skipped. -/
def replaceChars (piece new : List Char) : Nat → List Char → List Char
  | _, [] => []
  | skip + 1, _ :: cs => replaceChars piece new skip cs
  | 0, c :: cs =>
    match dropPrefix? piece (c :: cs) with
    | some _ => new ++ replaceChars piece new (piece.length - 1) cs
    | none => c :: replaceChars piece new 0 cs

/-- `replaceChars` on strings. -/
def replace (piece new s : String) : String :=
  String.ofList (replaceChars piece.toList new.toList 0 s.toList)

/-- Every character `old` becomes `new`. -/
def replaceChar (old new : Char) (s : String) : String :=
  String.ofList (s.toList.map fun c => if c == old then new else c)

/-- `n` copies of a text, one after the other. -/
def repeated (n : Nat) (s : String) : String :=
  String.join (List.replicate n s)

/-- The character that stands for the end of a line while a text is read as
one line. It is no blank, and no text uses it. -/
def lineMark : Char := Char.ofNat 0xFFFF

/-- The text as one line. -/
def flatten (s : String) : String := replaceChar '\n' lineMark s

/-- The text with its lines as they were. -/
def unflatten (s : String) : String := replaceChar lineMark '\n' s

/-! ### Order -/

/-- The order of texts by their characters; a shorter text comes before its
extensions. UTF-8 keeps this order, so it is also the order of their bytes. -/
def compareChars : List Char → List Char → Ordering
  | [], [] => .eq
  | [], _ :: _ => .lt
  | _ :: _, [] => .gt
  | a :: as, b :: bs =>
    match compare a.toNat b.toNat with
    | .eq => compareChars as bs
    | order => order

/-- `compareChars` on strings. -/
def order (a b : String) : Ordering :=
  compareChars a.toList b.toList

end Text
end Docblock
