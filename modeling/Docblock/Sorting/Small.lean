/-
# Sorting a few elements

The small parts of the stable sort. A short list is sorted by inserting its
elements one after the other. A longer one is cut into halves, each is sorted
by insertion, and the halves are merged from both ends at once. The two ends
meet in the middle if the comparison is an order. If it is none they may take
an element twice or leave one over, and then there is no result.

Key definitions: `Sorting.insertAll`, `Sorting.sortFour`, `Sorting.mergeSteps`,
`Sorting.mergeEnds?`, `Sorting.sortHalves?`.
-/

namespace Docblock
namespace Sorting

variable {α : Type} (less : α → α → Bool)

/-! ### Insertion -/

/-- Puts an element into a sorted list that starts with its last one, behind
those that it does not come before. -/
def insertLast (x : α) : List α → List α
  | [] => [x]
  | last :: before =>
    if less x last then last :: insertLast x before
    else x :: last :: before

/-- Puts elements into a sorted list, one after the other. -/
def insertAll (sorted elements : List α) : List α :=
  (elements.foldl (fun back x => insertLast less x back) sorted.reverse).reverse

/-! ### Four elements -/

/-- Two elements in order. -/
def sortTwo (p q : α) : α × α := if less q p then (q, p) else (p, q)

/-- Two pairs, each in order, as one list in order. The lesser of the first
elements is the first of all, and the greater of the last ones is the last. -/
def mergePairs (a b c d : α) : List α :=
  let first := if less c a then c else a
  let last := if less d b then b else d
  let left := if less c a then a else if less d b then c else b
  let right := if less d b then d else if less c a then b else c
  if less right left then [first, right, left, last] else [first, left, right, last]

/-- Four elements in order. -/
def sortFour (p q r s : α) : List α :=
  let (a, b) := sortTwo less p q
  let (c, d) := sortTwo less r s
  mergePairs less a b c d

/-! ### Both ends -/

/-- The next elements of two lists, as many as wanted, with what is left of
both lists. An element of the second list is taken if it comes before the next
one of the first list. -/
def mergeSteps (before : α → α → Bool) : Nat → List α → List α → List α × List α × List α
  | n + 1, x :: xs, y :: ys =>
    if before y x then
      let (taken, rests) := mergeSteps before n (x :: xs) ys
      (y :: taken, rests)
    else
      let (taken, rests) := mergeSteps before n xs (y :: ys)
      (x :: taken, rests)
  | _, xs, ys => ([], xs, ys)

/-- Merges two sorted lists, the second with as many elements as the first or
one more. As many elements as the first list has are taken from the front, and
as many from the back; one more may lie between them. Nothing if this does not
make up the lists, because an element is taken from both ends or from none. -/
def mergeEnds? (xs ys : List α) : Option (List α) :=
  let n := xs.length
  let (front, xsLeft, ysLeft) := mergeSteps less n xs ys
  let (back, ysBefore, xsBefore) := mergeSteps (fun x y => less y x) n ys.reverse xs.reverse
  let between := xsBefore.reverse.drop (n - xsLeft.length) ++
    ysBefore.reverse.drop (ys.length - ysLeft.length)
  let merged := front ++ between ++ back.reverse
  if merged.length = n + ys.length then some merged else none

/-! ### Small lists -/

/-- Sorts a half, the first four elements at once where there are four. -/
def sortHalf (inFours : Bool) : List α → List α
  | p :: q :: r :: s :: rest =>
    if inFours then insertAll less (sortFour less p q r s) rest
    else insertAll less [] (p :: q :: r :: s :: rest)
  | half => insertAll less [] half

/-- Sorts both halves of a list and merges them. -/
def sortHalves? (l : List α) : Option (List α) :=
  if l.length < 2 then some l
  else
    let n := l.length / 2
    let inFours : Bool := 8 ≤ l.length
    mergeEnds? less (sortHalf less inFours (l.take n)) (sortHalf less inFours (l.drop n))

end Sorting
end Docblock
