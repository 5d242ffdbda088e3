/-
# Sorting only changes the order

Whatever the comparison says, every part of the stable sort gives back the
elements it was given, if it gives anything: the runs that are cut off
(`perm_of_cutRuns?`), the runs that are merged (`perm_of_mergeRuns?`), and the
pieces that are divided at pivots (`perm_of_divide?`). So the sort can break
off, but it can lose no element and bring in none (`perm_of_sort?`). A pivot is
always an element of the list (`exists_pivot`), so a division never breaks off
by itself.

Key definitions: `Sorting.elementsOf`, `Sorting.stackElements`.
Key theorems: `Sorting.divide?_succ`, `Sorting.perm_of_sort?`.
-/
import Docblock.Proofs.Sorting.Small

namespace Docblock
namespace Sorting

variable {α : Type} {less : α → α → Bool} {l sorted : List α} {eager : Bool} {good n place : Nat} {run : Run α}
  {test : α → Bool} {pivotFirst : Bool} {p : α}

/-! ### Places of pivots -/

theorem median_eq (less : α → α → Bool) (l : List α) (a b c : Nat) :
    median less l a b c = a ∨ median less l a b c = b ∨ median less l a b c = c := by
  unfold median
  dsimp only
  split_ifs <;> simp

/-- The median of three stretches is a place in one of them. -/
theorem medianOf_lt (less : α → α → Bool) (l : List α) (n a b c : Nat) (hn : 0 < n) (ha : a + n ≤ l.length)
    (hb : b + n ≤ l.length) (hc : c + n ≤ l.length) : medianOf less l n a b c < l.length := by
  induction n using Nat.strongRecOn generalizing a b c with
  | ind n ih =>
    rw [medianOf]
    split_ifs with hlong
    · have hinner : ∀ start, start + n ≤ l.length →
          medianOf less l (n / 8) start (start + n / 8 * 4) (start + n / 8 * 7) < l.length := fun start hstart =>
        ih (n / 8) (by omega) _ _ _ (by omega) (by omega) (by omega) (by omega)
      rcases median_eq less l _ _ _ with heq | heq | heq <;> rw [heq]
      · exact hinner a ha
      · exact hinner b hb
      · exact hinner c hc
    · rcases median_eq less l a b c with heq | heq | heq <;> rw [heq] <;> omega

theorem pivotPlace_lt (less : α → α → Bool) (hlong : smallLength < l.length) : pivotPlace less l < l.length := by
  rw [smallLength] at hlong
  exact medianOf_lt less l (l.length / 8) 0 _ _ (by omega) (by omega) (by omega) (by omega)

theorem eq_append_of_getElem? (h : l[place]? = some p) : l = l.take place ++ p :: l.drop (place + 1) := by
  obtain ⟨hlt, hget⟩ := List.getElem?_eq_some_iff.mp h
  rw [← hget, ← List.drop_eq_getElem_cons hlt, List.take_append_drop]

theorem splitAtPivot_perm (test : α → Bool) (pivotFirst : Bool) (h : l[place]? = some p) :
    ((splitAtPivot test pivotFirst place l).1 ++ (splitAtPivot test pivotFirst place l).2).Perm l := by
  classical
  refine List.perm_iff_count.mpr fun x => ?_
  have hsides : ∀ part : List α, (part.filter test).count x + (part.filter (not ∘ test)).count x = part.count x :=
    fun part => List.count_append.symm.trans ((List.filter_append_perm test part).count_eq x)
  have hfront := hsides (l.take place)
  have hback := hsides (l.drop (place + 1))
  have hwhole := congrArg (List.count x) (eq_append_of_getElem? h)
  rw [List.count_append, List.count_cons] at hwhole
  rw [splitAtPivot, List.partition_eq_filter_filter, List.partition_eq_filter_filter, h]
  cases pivotFirst <;>
    simp only [Bool.false_eq_true, if_true, if_false, Option.toList_some, List.count_append, List.count_cons,
      List.count_nil] <;> omega

/-- Where the pivot is put on the side that it passes to, the list is divided
by the test. -/
theorem splitAtPivot_eq (test : α → Bool) (h : l[place]? = some p) (hp : test p = pivotFirst) :
    splitAtPivot test pivotFirst place l = (l.filter test, l.filter fun x => !test x) := by
  have hfilter : ∀ q : α → Bool, l.filter q = (l.take place).filter q ++
      ((if q p then [p] else []) ++ (l.drop (place + 1)).filter q) := fun q => by
    conv_lhs => rw [eq_append_of_getElem? h]
    rw [List.filter_append, List.filter_cons]
    split_ifs <;> rfl
  rw [splitAtPivot, hfilter test, hfilter fun x => !test x, List.partition_eq_filter_filter,
    List.partition_eq_filter_filter, h, ← hp]
  cases test p <;> simp [Function.comp_def]

/-! ### Only the order changes -/

theorem merge_perm (less : α → α → Bool) (xs ys : List α) : (merge less xs ys).Perm (xs ++ ys) := by
  rw [merge]
  split_ifs
  · exact List.merge_perm_append _
  · have hback : (ys.reverse.merge xs.reverse fun y x => !less y x).Perm (ys.reverse ++ xs.reverse) :=
      List.merge_perm_append _
    rw [← List.reverse_append] at hback
    exact (List.reverse_perm _).trans (hback.trans (List.reverse_perm _))

theorem perm_of_firstRun? (h : firstRun? less eager good l = some (run, n)) : run.elements.Perm (l.take n) := by
  rw [firstRun?] at h
  rcases firstStretch less l with ⟨m, down⟩
  dsimp only at h
  split_ifs at h
  · cases h
    exact List.reverse_perm _
  · cases h
    exact .refl _
  · obtain ⟨sorted, hsorted, heq⟩ := Option.map_eq_some_iff.mp h
    cases heq
    exact perm_of_sortHalves? hsorted
  · cases h
    exact .refl _

/-- A run takes at least one element. -/
theorem pos_of_firstRun? (hgood : 0 < good) (h : firstRun? less eager good l = some (run, n)) : 0 < n := by
  rw [firstRun?] at h
  rcases firstStretch less l with ⟨m, down⟩
  dsimp only at h
  split_ifs at h with hlong
  · cases h
    omega
  · cases h
    omega
  · obtain ⟨sorted, -, heq⟩ := Option.map_eq_some_iff.mp h
    cases heq
    decide
  · cases h
    exact hgood

/-- The elements of runs that follow each other. -/
def elementsOf (runs : List (Run α)) : List α := runs.flatMap Run.elements

theorem elementsOf_cons (run : Run α) (runs : List (Run α)) :
    elementsOf (run :: runs) = run.elements ++ elementsOf runs :=
  List.flatMap_cons

theorem perm_of_cutRuns? (hgood : 0 < good) {runs : List (Run α)} (h : cutRuns? less eager good l = some runs) :
    (elementsOf runs).Perm l := by
  induction l using cutRuns?.induct generalizing runs with
  | case1 =>
    rw [cutRuns?] at h
    cases h
    exact .refl _
  | case2 x xs ih =>
    simp only [cutRuns?, Option.bind_eq_bind, Option.bind_eq_some_iff, Option.pure_def, Option.some.injEq] at h
    obtain ⟨⟨run, n⟩, hrun, rest, hrest, rfl⟩ := h
    have hn := pos_of_firstRun? hgood hrun
    have htake : x :: xs = (x :: xs).take n ++ xs.drop (n - 1) := by
      conv_lhs => rw [← List.take_append_drop n (x :: xs)]
      rw [List.drop_cons hn]
    rw [elementsOf_cons, htake]
    exact (perm_of_firstRun? hrun).append (ih n hrest)

section
variable {room : Nat} {divide : List α → Option (List α)}

theorem Run.perm_of_sort? (hdivide : ∀ part sorted, divide part = some sorted → sorted.Perm part)
    (h : run.sort? divide = some sorted) : sorted.Perm run.elements := by
  rw [Run.sort?] at h
  split_ifs at h
  · cases h
    exact .refl _
  · exact hdivide _ _ h

theorem Run.perm_of_join? (hdivide : ∀ part sorted, divide part = some sorted → sorted.Perm part)
    {left right : Run α} (h : left.join? less room divide right = some run) :
    run.elements.Perm (left.elements ++ right.elements) := by
  rw [Run.join?] at h
  split_ifs at h
  · simp only [Option.bind_eq_bind, Option.bind_eq_some_iff, Option.pure_def, Option.some.injEq] at h
    obtain ⟨xs, hxs, ys, hys, rfl⟩ := h
    exact (merge_perm less xs ys).trans ((perm_of_sort? hdivide hxs).append (perm_of_sort? hdivide hys))
  · cases h
    exact .refl _

/-- The elements of the runs on a stack, in the order of the list. -/
def stackElements (stack : List (Run α × Nat)) : List α := elementsOf (stack.reverse.map Prod.fst)

theorem stackElements_cons (left : Run α) (deep : Nat) (stack : List (Run α × Nat)) :
    stackElements ((left, deep) :: stack) = stackElements stack ++ left.elements := by
  simp [stackElements, elementsOf]

theorem perm_of_collapse? (hdivide : ∀ part sorted, divide part = some sorted → sorted.Perm part) {depth : Nat} :
    ∀ {stack stack' : List (Run α × Nat)} {run run' : Run α},
      collapse? less room divide depth stack run = some (stack', run') →
        (stackElements stack' ++ run'.elements).Perm (stackElements stack ++ run.elements)
  | [], _, _, _, h => by
    cases h
    exact .refl _
  | (left, deep) :: stack, _, run, _, h => by
    rw [collapse?] at h
    split_ifs at h
    · simp only [Option.bind_eq_bind, Option.bind_eq_some_iff] at h
      obtain ⟨joined, hjoined, h⟩ := h
      rw [stackElements_cons, List.append_assoc]
      exact (perm_of_collapse? hdivide h).trans ((Run.perm_of_join? hdivide hjoined).append_left _)
    · cases h
      exact .refl _

/-- At depth 0 all runs are joined. -/
theorem eq_nil_of_collapse?_zero : ∀ {stack stack' : List (Run α × Nat)} {run run' : Run α},
    collapse? less room divide 0 stack run = some (stack', run') → stack' = []
  | [], _, _, _, h => by
    cases h
    rfl
  | (left, deep) :: stack, _, _, _, h => by
    rw [collapse?, if_pos (Nat.zero_le deep)] at h
    simp only [Option.bind_eq_bind, Option.bind_eq_some_iff] at h
    obtain ⟨joined, -, h⟩ := h
    exact eq_nil_of_collapse?_zero h

theorem perm_of_mergeRuns? (hdivide : ∀ part sorted, divide part = some sorted → sorted.Perm part) {total : Nat} :
    ∀ {runs : List (Run α)} {place : Nat} {stack : List (Run α × Nat)} {run whole : Run α},
      mergeRuns? less room divide total place stack run runs = some whole →
        whole.elements.Perm (stackElements stack ++ (run.elements ++ elementsOf runs))
  | [], _, stack, run, whole, h => by
    rw [mergeRuns?] at h
    obtain ⟨⟨stack', whole⟩, hcollapse, rfl⟩ := Option.map_eq_some_iff.mp h
    have hperm := perm_of_collapse? hdivide hcollapse
    rw [eq_nil_of_collapse?_zero hcollapse] at hperm
    rwa [elementsOf, List.flatMap_nil, List.append_nil]
  | next :: runs, place, stack, run, whole, h => by
    simp only [mergeRuns?, Option.bind_eq_bind, Option.bind_eq_some_iff] at h
    obtain ⟨⟨stack', run'⟩, hcollapse, h⟩ := h
    have hrest := perm_of_mergeRuns? hdivide h
    rw [stackElements_cons] at hrest
    rw [elementsOf_cons, ← List.append_assoc]
    exact hrest.trans ((perm_of_collapse? hdivide hcollapse).append_right _)

theorem goodLength_pos {n : Nat} (hn : 0 < n) : 0 < goodLength n := by
  rw [goodLength]
  split_ifs with hshort
  · omega
  · -- a square root of more than 64 * 64 is not 0
    have hlog : 12 ≤ n.log2 := (Nat.le_log2 (by omega)).mpr (by omega)
    have htwo : 2 ≤ 1 <<< ((n.log2 + 1) / 2) := by
      rw [Nat.one_shiftLeft]
      exact Nat.pow_le_pow_right (Nat.succ_pos 1) (by omega : 1 ≤ (n.log2 + 1) / 2)
    exact Nat.div_pos (Nat.le_trans htwo (Nat.le_add_right _ _)) (by decide)

theorem perm_of_sortRuns? (hdivide : ∀ part sorted, divide part = some sorted → sorted.Perm part)
    (h : sortRuns? less room divide eager l = some sorted) : sorted.Perm l := by
  rw [sortRuns?] at h
  simp only [Option.bind_eq_bind, Option.bind_eq_some_iff] at h
  obtain ⟨runs, hruns, h⟩ := h
  cases hl : l with
  | nil =>
    rw [hl, cutRuns?] at hruns
    cases hruns
    cases h
    exact .refl _
  | cons x xs =>
    rw [← hl]
    have hgood : 0 < goodLength l.length := goodLength_pos (by rw [hl]; exact Nat.succ_pos _)
    have hperm := perm_of_cutRuns? hgood hruns
    cases runs with
    | nil =>
      cases h
      exact hperm
    | cons run runs =>
      obtain ⟨whole, hwhole, h⟩ := Option.bind_eq_some_iff.mp h
      rw [elementsOf_cons] at hperm
      exact (Run.perm_of_sort? hdivide h).trans ((perm_of_mergeRuns? hdivide hwhole).trans hperm)

end

section
variable {room limit : Nat} {ancestor : Option α} {pivot : α}

theorem divide?_of_short (hshort : l.length ≤ smallLength) :
    divide? less room limit ancestor l = sortHalves? less l := by
  rw [divide?.eq_def]
  exact if_pos hshort

theorem divide?_zero (hlong : ¬ l.length ≤ smallLength) :
    divide? less room 0 ancestor l = sortRuns? less room some true l := by
  rw [divide?.eq_def]
  exact if_neg hlong

/-- A step of the division at pivots. -/
theorem divide?_succ (hlong : ¬ l.length ≤ smallLength) (hpivot : l[pivotPlace less l]? = some pivot)
    {front back level after : List α}
    (hsplit : splitAtPivot (less · pivot) false (pivotPlace less l) l = (front, back))
    (hlevel : splitAtPivot (fun x => !less pivot x) true (pivotPlace less l) l = (level, after)) :
    divide? less room (limit + 1) ancestor l =
      if front.isEmpty || ancestor.any (fun a => !less a pivot) then
        (divide? less room limit none after).map (level ++ ·)
      else (divide? less room limit (some pivot) back).bind fun after =>
        (divide? less room limit ancestor front).map (· ++ after) := by
  rw [divide?.eq_def]
  dsimp only
  rw [if_neg hlong, hpivot, Option.bind_eq_bind, Option.bind_some, hsplit, hlevel]
  dsimp only
  split_ifs
  · cases divide? less room limit none after <;> rfl
  · cases divide? less room limit (some pivot) back <;> cases divide? less room limit ancestor front <;> rfl

theorem exists_pivot (less : α → α → Bool) (hlong : ¬ l.length ≤ smallLength) :
    ∃ pivot, l[pivotPlace less l]? = some pivot :=
  ⟨_, List.getElem?_eq_getElem (pivotPlace_lt less (by omega))⟩

theorem perm_of_divide? (h : divide? less room limit ancestor l = some sorted) : sorted.Perm l := by
  induction limit generalizing ancestor l sorted with
  | zero =>
    by_cases hlong : l.length ≤ smallLength
    · rw [divide?_of_short hlong] at h
      exact perm_of_sortHalves? h
    · rw [divide?_zero hlong] at h
      refine perm_of_sortRuns? (fun part sorted heq => ?_) h
      rw [Option.some.inj heq]
  | succ limit ih =>
    by_cases hlong : l.length ≤ smallLength
    · rw [divide?_of_short hlong] at h
      exact perm_of_sortHalves? h
    · obtain ⟨pivot, hpivot⟩ := exists_pivot less hlong
      have hfront := splitAtPivot_perm (less · pivot) false hpivot
      have hlevel := splitAtPivot_perm (fun x => !less pivot x) true hpivot
      rw [divide?_succ hlong hpivot rfl rfl] at h
      split_ifs at h
      · obtain ⟨after, hafter, rfl⟩ := Option.map_eq_some_iff.mp h
        exact ((ih hafter).append_left _).trans hlevel
      · obtain ⟨after, hafter, h⟩ := Option.bind_eq_some_iff.mp h
        obtain ⟨before, hbefore, rfl⟩ := Option.map_eq_some_iff.mp h
        exact ((ih hbefore).append (ih hafter)).trans hfront

end

/-- **Sorting only changes the order,** whatever the comparison says. -/
theorem perm_of_sort? {room : Nat} (h : sort? less room l = some sorted) : sorted.Perm l := by
  rw [sort?] at h
  split_ifs at h
  · obtain rfl := Option.some.inj h
    exact insertAll_perm less [] l
  · exact perm_of_sortRuns? (fun _ _ => perm_of_divide?) h

end Sorting
end Docblock
