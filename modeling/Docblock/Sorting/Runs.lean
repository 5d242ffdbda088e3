/-
# The stable sort

How lists of any length are sorted. Up to twenty elements are inserted one
after the other. A longer list is cut into runs: stretches that are in order
already, or in the opposite order, where these are long enough, and pieces of
a fixed length elsewhere. The runs are merged along a balanced tree. Pieces
that are not sorted yet are only put together, until they meet a sorted run or
the end, and are then sorted by dividing them at pivots. Where the pivots are
bad too often, the pieces are sorted at once and merged.

The sort has a result whenever the comparison is a total preorder. If it is
none, the order of the result says nothing, and there may be no result at all:
the program breaks off where the merge of two halves does not add up.

Key definitions: `Sorting.Run`, `Sorting.cutRuns?`, `Sorting.mergeRuns?`,
`Sorting.divide?`, `Sorting.sort?`.
-/
import Docblock.Sorting.Small

namespace Docblock
namespace Sorting

variable {α : Type} (less : α → α → Bool)

/-- The longest list that is sorted by its halves. -/
def smallLength : Nat := 32

/-! ### Runs -/

/-- A stretch of a list, and whether it is sorted yet. -/
structure Run (α : Type) where
  elements : List α
  isSorted : Bool

/-- How many elements go on in the same direction from the last one. -/
def goOn (down : Bool) : α → List α → Nat
  | _, [] => 0
  | last, x :: xs => if less x last == down then goOn down x xs + 1 else 0

/-- The length of the stretch in front that never goes down, or always does,
and whether it goes down. -/
def firstStretch : List α → Nat × Bool
  | x :: y :: rest =>
    let down := less y x
    (goOn less down y rest + 2, down)
  | short => (short.length, false)

/-- The run at the front of a list, and how many elements it takes. A stretch
has to have `good` elements. Other pieces are sorted if the sort is `eager`. -/
def firstRun? (eager : Bool) (good : Nat) (l : List α) : Option (Run α × Nat) :=
  let (n, down) := firstStretch less l
  if good ≤ n then
    some (⟨if down then (l.take n).reverse else l.take n, true⟩, n)
  else if eager then
    (sortHalves? less (l.take smallLength)).map fun sorted => (⟨sorted, true⟩, smallLength)
  else some (⟨l.take good, false⟩, good)

/-- The runs of a list. -/
def cutRuns? (eager : Bool) (good : Nat) : List α → Option (List (Run α))
  | [] => some []
  | x :: xs => do
    let (run, n) ← firstRun? less eager good (x :: xs)
    let runs ← cutRuns? eager good (xs.drop (n - 1))
    return run :: runs
termination_by l => l.length
decreasing_by
  simp only [List.length_drop, List.length_cons]
  omega

/-! ### Merging runs -/

/-- Merges two sorted lists, from the end that the shorter list is at. -/
def merge (xs ys : List α) : List α :=
  if xs.length ≤ ys.length then xs.merge ys fun x y => !less y x
  else (ys.reverse.merge xs.reverse fun y x => !less y x).reverse

section
variable (room : Nat) (divide : List α → Option (List α))

/-- The elements of a run in order. -/
def Run.sort? (run : Run α) : Option (List α) :=
  if run.isSorted then some run.elements else divide run.elements

/-- Two runs that follow each other as one. They are merged if one of them is
sorted or if both are too long to be sorted together. -/
def Run.join? (left right : Run α) : Option (Run α) :=
  if room < left.elements.length + right.elements.length || left.isSorted || right.isSorted then do
    let xs ← left.sort? divide
    let ys ← right.sort? divide
    return ⟨merge less xs ys, true⟩
  else some ⟨left.elements ++ right.elements, false⟩

/-- The depth at which the runs before and after a place are merged, in a
balanced tree over `total` elements: how many binary digits the middles of both
runs have in common. -/
def mergeDepth (total start place stop : Nat) : Nat :=
  let scale := (1 <<< 62 + total - 1) / total
  let digits := (scale * (start + place)) ^^^ (scale * (place + stop))
  if digits = 0 then 64 else 63 - digits.log2

/-- Joins a run with those before it, the last one first, that are to be merged
no higher than at this depth. -/
def collapse? (depth : Nat) : List (Run α × Nat) → Run α → Option (List (Run α × Nat) × Run α)
  | [], run => some ([], run)
  | (left, deep) :: stack, run =>
    if depth ≤ deep then do collapse? depth stack (← left.join? less room divide run)
    else some ((left, deep) :: stack, run)

/-- Merges runs into one. The first of them ends at `place`; `stack` has those
before it, the last one first, each with the depth at which it is merged with
the next. -/
def mergeRuns? (total : Nat) : (place : Nat) → List (Run α × Nat) → Run α → List (Run α) → Option (Run α)
  | _, stack, run, [] => (collapse? less room divide 0 stack run).map Prod.snd
  | place, stack, run, next :: runs => do
    let stop := place + next.elements.length
    let depth := mergeDepth total (place - run.elements.length) place stop
    let (stack, run) ← collapse? less room divide depth stack run
    mergeRuns? total stop ((run, depth) :: stack) next runs

/-- A square root, nearly. -/
def nearlySqrt (n : Nat) : Nat :=
  let shift := (n.log2 + 1) / 2
  (1 <<< shift + n >>> shift) / 2

/-- How long a stretch has to be to count as a run. -/
def goodLength (n : Nat) : Nat :=
  if n ≤ 64 * 64 then min (n - n / 2) 64 else nearlySqrt n

/-- Sorts a list by its runs. -/
def sortRuns? (eager : Bool) (l : List α) : Option (List α) := do
  match ← cutRuns? less eager (goodLength l.length) l with
  | [] => return []
  | run :: runs =>
    let whole ← mergeRuns? less room divide l.length run.elements.length [] run runs
    whole.sort? divide

end

/-! ### Dividing at pivots -/

/-- Of three places the one whose element is between those at the others. -/
def median (l : List α) (a b c : Nat) : Nat :=
  let before := fun i j => match l[i]?, l[j]? with
    | some x, some y => less x y
    | _, _ => false
  if before a b == before a c then
    if before b c != before a b then c else b
  else a

/-- The median of three places, or of the medians of three stretches of `n`
elements that start there. -/
def medianOf (l : List α) (n a b c : Nat) : Nat :=
  if 64 ≤ n * 8 then
    let m := n / 8
    let inner := fun start => medianOf l m start (start + m * 4) (start + m * 7)
    median less l (inner a) (inner b) (inner c)
  else median less l a b c
termination_by n
decreasing_by all_goals omega

/-- The place of the pivot of a list. -/
def pivotPlace (l : List α) : Nat :=
  let n := l.length / 8
  medianOf less l n 0 (n * 4) (n * 7)

/-- The elements that pass a test, and the others, both in order. The element
at `place` is not tested: it is on the first side if `pivotFirst` says so. -/
def splitAtPivot (test : α → Bool) (pivotFirst : Bool) (place : Nat) (l : List α) : List α × List α :=
  let (a, b) := (l.take place).partition test
  let (c, d) := (l.drop (place + 1)).partition test
  let pivot := l[place]?.toList
  if pivotFirst then (a ++ pivot ++ c, b ++ d) else (a ++ c, b ++ pivot ++ d)

/-- Sorts a list by dividing it at pivots, up to `limit` times in a row.
`ancestor` is a pivot that no element comes before. If the new pivot is level
with it, or if no element comes before the new pivot, then the elements that
are not after the pivot need no sorting. -/
def divide? (room : Nat) : (limit : Nat) → (ancestor : Option α) → List α → Option (List α)
  | limit, ancestor, l =>
    if l.length ≤ smallLength then sortHalves? less l
    else match limit with
      -- an eager sort leaves no run unsorted, so there is nothing to divide
      | 0 => sortRuns? less room some true l
      | limit + 1 => do
        let place := pivotPlace less l
        let pivot ← l[place]?
        let (front, back) := splitAtPivot (less · pivot) false place l
        if front.isEmpty || ancestor.any (fun a => !less a pivot) then
          let (level, after) := splitAtPivot (fun x => !less pivot x) true place l
          return level ++ (← divide? room limit none after)
        else
          let after ← divide? room limit (some pivot) back
          let before ← divide? room limit ancestor front
          return before ++ after

/-! ### The sort -/

/-- The longest list that is sorted by insertion alone. -/
def insertionLength : Nat := 20

/-- How many elements can be set aside while a list of `n` elements is sorted:
all of them, if they are not more than `room`, else half of them at least. -/
def sparePlaces (room n : Nat) : Nat := max (max (n - n / 2) (min n room)) 48

/-- Sorts a list by a comparison. `room` is how many elements at most there is
room for whatever the list. -/
def sort? (room : Nat) (l : List α) : Option (List α) :=
  if l.length ≤ insertionLength then some (insertAll less [] l)
  else
    let spare := sparePlaces room l.length
    sortRuns? less spare (fun part => divide? less spare (2 * part.length.log2) none part)
      (l.length ≤ smallLength * 2) l

end Sorting
end Docblock
