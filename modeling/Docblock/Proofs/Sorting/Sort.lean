/-
# The stable sort sorts

If the comparison orders the elements, the sort has a result, and it sorts them
(`sort?_sorts`). What a run has to be for that is said once (`RunOf`): a
stretch that was in order or in the opposite order (`firstStretch_sorts`), a
piece sorted by its halves, or, in a sort that is not eager, a piece as it is.
Two runs that follow each other join to such a run (`RunOf.join?`), so the
shape of the merge tree does not matter (`collapse?_sorts`,
`mergeRuns?_sorts`). A piece is sorted by dividing it at pivots
(`divide?_sorts`): a pivot separates what comes before it from the rest. Where
it is level with a pivot before it, or nothing comes before it, the elements up
to it are all level, and in order as they are (`Sorts.divide_of_least`).

Key definitions: `Sorting.RunOf`.
Key theorems: `Sorting.sort?_sorts`.
-/
import Docblock.Proofs.Sorting.Runs
import Mathlib.Data.List.Forall2

namespace Docblock
namespace Sorting

variable {α : Type} {less : α → α → Bool} {s : Set α} {l part sorted : List α} {eager : Bool} {good n room : Nat}
  {run : Run α}

/-! ### Stretches -/

theorem inOrder_goOn (h : OrderedOn less s) : ∀ (last : α) (xs : List α), (∀ x ∈ last :: xs, x ∈ s) →
    InOrder less (last :: xs.take (goOn less false last xs))
  | _, [], _ => List.pairwise_singleton _ _
  | last, x :: xs, hmem => by
    have hx := hmem x (by simp)
    rw [goOn]
    split_ifs with hgo
    · have hrest := inOrder_goOn h x xs fun y hy => hmem y (List.mem_cons_of_mem _ hy)
      rw [List.take_succ_cons]
      refine List.pairwise_cons.mpr ⟨fun y hy => ?_, hrest⟩
      have hxlast : less x last = false := by simpa using hgo
      rcases List.mem_cons.mp hy with rfl | hy'
      · exact hxlast
      · exact h.trans last (hmem last List.mem_cons_self) x hx y
          (hmem y (by simp [List.mem_of_mem_take hy'])) hxlast (List.rel_of_pairwise_cons hrest hy')
    · exact List.pairwise_singleton _ _

/-- A stretch that goes down does so all the way. -/
theorem pairwise_goOn (h : OrderedOn less s) : ∀ (last : α) (xs : List α), (∀ x ∈ last :: xs, x ∈ s) →
    (last :: xs.take (goOn less true last xs)).Pairwise fun a b => less b a = true
  | _, [], _ => List.pairwise_singleton _ _
  | last, x :: xs, hmem => by
    have hlast := hmem last List.mem_cons_self
    have hx := hmem x (by simp)
    rw [goOn]
    split_ifs with hgo
    · have hrest := pairwise_goOn h x xs fun y hy => hmem y (List.mem_cons_of_mem _ hy)
      rw [List.take_succ_cons]
      refine List.pairwise_cons.mpr ⟨fun y hy => ?_, hrest⟩
      have hxlast : less x last = true := by simpa using hgo
      rcases List.mem_cons.mp hy with rfl | hy'
      · exact hxlast
      · exact h.before_of_before_of_le (hmem y (by simp [List.mem_of_mem_take hy'])) hx hlast
          (List.rel_of_pairwise_cons hrest hy') (h.asymm x hx last hlast hxlast)
    · exact List.pairwise_singleton _ _

/-- Turning round a list that goes down sorts it: no two of its elements are
level. -/
theorem Sorts.reverse_of_descending (h : OrderedOn less s) (hl : ∀ x ∈ l, x ∈ s)
    (hdown : l.Pairwise fun a b => less b a = true) : Sorts less s l l.reverse where
  perm := List.reverse_perm l
  inOrder := by
    refine List.pairwise_reverse.mpr (hdown.imp_of_mem fun {a b} ha hb hba => ?_)
    exact h.asymm b (hl b hb) a (hl a ha) hba
  levels a ha := by
    rw [List.filter_reverse]
    have hfilter := hdown.filter (level less a)
    have hmem : ∀ x ∈ l.filter (level less a), x ∈ s ∧ level less a x = true := fun x hx =>
      ⟨hl x (List.mem_filter.mp hx).1, (List.mem_filter.mp hx).2⟩
    match hlevel : l.filter (level less a), hfilter, hmem with
    | [], _, _ => rfl
    | [x], _, _ => rfl
    | x :: y :: rest, hfilter, hmem =>
      obtain ⟨hx, hax⟩ := hmem x (by simp)
      obtain ⟨hy, hay⟩ := hmem y (by simp)
      have hyx := List.rel_of_pairwise_cons hfilter List.mem_cons_self
      rw [not_before_of_level h ha hy hx hay hax] at hyx
      cases hyx

theorem firstStretch_sorts (h : OrderedOn less s) (hl : ∀ x ∈ l, x ∈ s) {down : Bool}
    (hstretch : firstStretch less l = (n, down)) :
    Sorts less s (l.take n) (if down then (l.take n).reverse else l.take n) := by
  match l, hstretch with
  | [], hstretch =>
    cases hstretch
    exact .refl .nil
  | [x], hstretch =>
    cases hstretch
    exact .refl (List.pairwise_singleton _ _)
  | x :: y :: rest, hstretch =>
    rw [firstStretch] at hstretch
    have hrest : ∀ z ∈ y :: rest, z ∈ s := fun z hz => hl z (List.mem_cons_of_mem _ hz)
    cases hdown : less y x with
    | false =>
      rw [hdown] at hstretch
      cases hstretch
      have hin := inOrder_goOn h x (y :: rest) hl
      rw [goOn, hdown] at hin
      exact .refl hin
    | true =>
      rw [hdown] at hstretch
      cases hstretch
      have hin := pairwise_goOn h x (y :: rest) hl
      rw [goOn, hdown] at hin
      refine Sorts.reverse_of_descending h (fun z hz => hl z (List.mem_of_mem_take hz)) hin

/-! ### Runs -/

/-- A run for a part of the list: sorted, or, unless the sort is eager, the
part as it is. -/
structure RunOf (less : α → α → Bool) (s : Set α) (eager : Bool) (run : Run α) (part : List α) : Prop where
  mem : ∀ x ∈ part, x ∈ s
  sorts : run.isSorted = true → Sorts less s part run.elements
  unsorted : run.isSorted = false → eager = false ∧ run.elements = part

/-- A way to sort the parts that a sort leaves unsorted. -/
def DividesOf (less : α → α → Bool) (s : Set α) (eager : Bool) (divide : List α → Option (List α)) : Prop :=
  eager = false → ∀ part, (∀ x ∈ part, x ∈ s) → ∃ sorted, divide part = some sorted ∧ Sorts less s part sorted

theorem RunOf.ofSorts (hmem : ∀ x ∈ part, x ∈ s) (h : Sorts less s part sorted) :
    RunOf less s eager ⟨sorted, true⟩ part :=
  ⟨hmem, fun _ => h, nofun⟩

theorem RunOf.ofUnsorted (heager : eager = false) (hmem : ∀ x ∈ part, x ∈ s) :
    RunOf less s eager ⟨part, false⟩ part :=
  ⟨hmem, nofun, fun _ => ⟨heager, rfl⟩⟩

theorem firstRun?_runOf (eager : Bool) (good : Nat) (h : OrderedOn less s) (hl : ∀ x ∈ l, x ∈ s) :
    ∃ run n, firstRun? less eager good l = some (run, n) ∧ RunOf less s eager run (l.take n) := by
  rw [firstRun?]
  rcases hstretch : firstStretch less l with ⟨n, down⟩
  have htake : ∀ n, ∀ x ∈ l.take n, x ∈ s := fun n x hx => hl x (List.mem_of_mem_take hx)
  dsimp only
  by_cases hlong : good ≤ n
  · rw [if_pos hlong]
    exact ⟨_, n, rfl, .ofSorts (htake n) (firstStretch_sorts h hl hstretch)⟩
  · rw [if_neg hlong]
    cases eager with
    | true =>
      obtain ⟨sorted, hsorted, hsorts⟩ := sortHalves?_sorts h (htake smallLength)
      rw [if_pos rfl, hsorted]
      exact ⟨_, smallLength, rfl, .ofSorts (htake smallLength) hsorts⟩
    | false =>
      rw [if_neg Bool.false_ne_true]
      exact ⟨_, good, rfl, .ofUnsorted rfl (htake good)⟩

/-- The runs of a list are runs for its parts. -/
theorem cutRuns?_sorts (eager : Bool) (h : OrderedOn less s) (hgood : 0 < good) (hl : ∀ x ∈ l, x ∈ s) :
    ∃ runs parts, cutRuns? less eager good l = some runs ∧ List.Forall₂ (RunOf less s eager) runs parts ∧
      parts.flatten = l := by
  induction l using cutRuns?.induct with
  | case1 => exact ⟨[], [], by rw [cutRuns?], .nil, rfl⟩
  | case2 x xs ih =>
    obtain ⟨run, n, hrun, hof⟩ := firstRun?_runOf eager good h hl
    have hn := pos_of_firstRun? hgood hrun
    obtain ⟨runs, parts, hruns, hparts, hflat⟩ := ih n fun y hy =>
      hl y (List.mem_cons_of_mem _ (List.mem_of_mem_drop hy))
    refine ⟨run :: runs, (x :: xs).take n :: parts, ?_, .cons hof hparts, ?_⟩
    · rw [cutRuns?, hrun]
      simp [hruns]
    · rw [List.flatten_cons, hflat, ← List.drop_cons hn, List.take_append_drop]

/-! ### Merging runs -/

theorem merge_sorts (h : OrderedOn less s) {xs ys xs' ys' : List α} (hx : ∀ x ∈ xs, x ∈ s) (hy : ∀ y ∈ ys, y ∈ s)
    (hxs : Sorts less s xs xs') (hys : Sorts less s ys ys') : Sorts less s (xs ++ ys) (merge less xs' ys') := by
  rw [merge, merge_reverse h (hxs.mem hx) (hys.mem hy) hxs.inOrder hys.inOrder, ite_self]
  exact Sorts.merge h hx hy hxs hys

section
variable {divide : List α → Option (List α)}

theorem RunOf.sort? (hdivide : DividesOf less s eager divide) (hrun : RunOf less s eager run part) :
    ∃ sorted, run.sort? divide = some sorted ∧ Sorts less s part sorted := by
  rw [Run.sort?]
  cases hsorted : run.isSorted with
  | true => exact ⟨_, rfl, hrun.sorts hsorted⟩
  | false =>
    obtain ⟨heager, helements⟩ := hrun.unsorted hsorted
    rw [if_neg Bool.false_ne_true, helements]
    exact hdivide heager part hrun.mem

/-- Runs for parts that follow each other join to a run for both. -/
theorem RunOf.join? (room : Nat) (h : OrderedOn less s) (hdivide : DividesOf less s eager divide) {left right : Run α}
    {part' : List α} (hleft : RunOf less s eager left part) (hright : RunOf less s eager right part') :
    ∃ run, left.join? less room divide right = some run ∧ RunOf less s eager run (part ++ part') := by
  have hmem : ∀ x ∈ part ++ part', x ∈ s := fun x hx => (List.mem_append.mp hx).elim (hleft.mem x) (hright.mem x)
  rw [Run.join?]
  split_ifs with hmerge
  · obtain ⟨xs, hxs, hxsorts⟩ := hleft.sort? hdivide
    obtain ⟨ys, hys, hysorts⟩ := hright.sort? hdivide
    refine ⟨⟨merge less xs ys, true⟩, by simp [hxs, hys], .ofSorts hmem ?_⟩
    exact merge_sorts h hleft.mem hright.mem hxsorts hysorts
  · simp only [Bool.or_eq_true, not_or, Bool.not_eq_true] at hmerge
    obtain ⟨heager, helements⟩ := hleft.unsorted hmerge.1.2
    obtain ⟨-, helements'⟩ := hright.unsorted hmerge.2
    rw [helements, helements']
    exact ⟨_, rfl, .ofUnsorted heager hmem⟩

/-- Joining runs with those on the stack keeps them runs for the same list. -/
theorem collapse?_sorts (room depth : Nat) (h : OrderedOn less s) (hdivide : DividesOf less s eager divide) :
    ∀ {stack : List (Run α × Nat)} {parts : List (List α)} {run : Run α} {part : List α},
      List.Forall₂ (fun entry => RunOf less s eager entry.1) stack parts → RunOf less s eager run part →
        ∃ stack' run' parts' part', collapse? less room divide depth stack run = some (stack', run') ∧
          List.Forall₂ (fun entry => RunOf less s eager entry.1) stack' parts' ∧ RunOf less s eager run' part' ∧
          parts'.reverse.flatten ++ part' = parts.reverse.flatten ++ part
  | [], _, run, part, hstack, hrun => by
    cases hstack
    exact ⟨[], run, [], part, rfl, .nil, hrun, rfl⟩
  | (left, deep) :: stack, _, run, part, hstack, hrun => by
    cases hstack with
    | @cons _ leftPart _ parts hleft hstack =>
      rw [collapse?]
      split_ifs with hdeep
      · obtain ⟨joined, hjoined, hof⟩ := hleft.join? room h hdivide hrun
        obtain ⟨stack', run', parts', part', hcollapse, hstack', hrun', hsame⟩ :=
          collapse?_sorts room depth h hdivide hstack hof
        refine ⟨stack', run', parts', part', by rw [hjoined, Option.bind_eq_bind, Option.bind_some, hcollapse], hstack',
          hrun', ?_⟩
        simp [hsame]
      · exact ⟨_, run, _, part, rfl, .cons hleft hstack, hrun, rfl⟩

theorem mergeRuns?_sorts (room total place : Nat) (h : OrderedOn less s) (hdivide : DividesOf less s eager divide) :
    ∀ {runs : List (Run α)} {rest : List (List α)} {stack : List (Run α × Nat)} {parts : List (List α)} {run : Run α}
      {part : List α},
      List.Forall₂ (fun entry => RunOf less s eager entry.1) stack parts → RunOf less s eager run part →
        List.Forall₂ (RunOf less s eager) runs rest →
          ∃ whole, mergeRuns? less room divide total place stack run runs = some whole ∧
            RunOf less s eager whole (parts.reverse.flatten ++ (part ++ rest.flatten))
  | [], _, _, _, _, _, hstack, hrun, hruns => by
    cases hruns
    obtain ⟨stack', run', parts', part', hcollapse, hstack', hrun', hsame⟩ :=
      collapse?_sorts room 0 h hdivide hstack hrun
    rw [eq_nil_of_collapse?_zero hcollapse] at hstack'
    cases hstack'
    refine ⟨run', by rw [mergeRuns?, hcollapse, Option.map_some], ?_⟩
    rw [List.flatten_nil, List.append_nil, ← hsame]
    exact hrun'
  | next :: runs, _, stack, parts, run, part, hstack, hrun, hruns => by
    cases hruns with
    | @cons _ nextPart _ rest hnext hruns =>
      obtain ⟨stack', run', parts', part', hcollapse, hstack', hrun', hsame⟩ :=
        collapse?_sorts room (mergeDepth total (place - run.elements.length) place (place + next.elements.length))
          h hdivide hstack hrun
      have hpushed : List.Forall₂ (fun entry : Run α × Nat => RunOf less s eager entry.1)
          ((run', mergeDepth total (place - run.elements.length) place (place + next.elements.length)) :: stack')
          (part' :: parts') := .cons hrun' hstack'
      obtain ⟨whole, hwhole, hof⟩ :=
        mergeRuns?_sorts room total (place + next.elements.length) h hdivide hpushed hnext hruns
      refine ⟨whole, ?_, ?_⟩
      · rw [mergeRuns?, hcollapse]
        exact hwhole
      · rw [List.reverse_cons, List.flatten_append, List.flatten_singleton, hsame] at hof
        rw [List.flatten_cons]
        simpa using hof

theorem sortRuns?_sorts (eager : Bool) (h : OrderedOn less s) (hdivide : DividesOf less s eager divide)
    (hl : ∀ x ∈ l, x ∈ s) : ∃ sorted, sortRuns? less room divide eager l = some sorted ∧ Sorts less s l sorted := by
  cases l with
  | nil => exact ⟨[], by rw [sortRuns?, cutRuns?]; rfl, .refl .nil⟩
  | cons x xs =>
    have hgood : 0 < goodLength (x :: xs).length := goodLength_pos (Nat.succ_pos _)
    obtain ⟨runs, parts, hruns, hparts, hflat⟩ := cutRuns?_sorts eager h hgood hl
    rw [sortRuns?, hruns, Option.bind_eq_bind, Option.bind_some]
    cases hparts with
    | nil => cases hflat
    | @cons run part runs parts hrun hparts =>
      obtain ⟨whole, hwhole, hof⟩ := mergeRuns?_sorts room (x :: xs).length run.elements.length h hdivide
        .nil hrun hparts
      rw [List.reverse_nil, List.flatten_nil, List.nil_append, ← List.flatten_cons, hflat] at hof
      obtain ⟨sorted, hsorted, hsorts⟩ := hof.sort? hdivide
      refine ⟨sorted, ?_, hsorts⟩
      exact Option.bind_eq_some_iff.mpr ⟨whole, hwhole, hsorted⟩

end

/-! ### Dividing at pivots -/

section
variable {pivot : α}

/-- Elements none of which comes before another one are sorted as they are. -/
theorem Sorts.refl_of_level (hlevel : ∀ x ∈ l, ∀ y ∈ l, less x y = false) : Sorts less s l l :=
  .refl (List.pairwise_of_forall_mem_list fun x hx y hy => hlevel y hy x hx)

/-- If nothing comes before the pivot, what does not come after it is level
with it, and sorted as it is. -/
theorem Sorts.divide_of_least (h : OrderedOn less s) (hl : ∀ x ∈ l, x ∈ s) (hp : pivot ∈ s)
    (hleast : ∀ x ∈ l, less x pivot = false) {after : List α}
    (hafter : Sorts less s (l.filter fun x => !!less pivot x) after) :
    Sorts less s l ((l.filter fun x => !less pivot x) ++ after) := by
  have hlevel : ∀ x ∈ l.filter fun x => !less pivot x, x ∈ l ∧ level less pivot x = true := fun x hx => by
    obtain ⟨hx, hpx⟩ := List.mem_filter.mp hx
    exact ⟨hx, by rw [level, hpx, hleast x hx]; rfl⟩
  have hfirst : Sorts less s (l.filter fun x => !less pivot x) (l.filter fun x => !less pivot x) :=
    .refl_of_level fun x hx y hy => not_before_of_level h hp (hl x (hlevel x hx).1) (hl y (hlevel y hy).1)
      (hlevel x hx).2 (hlevel y hy).2
  refine Sorts.divide h hl (fun x hx y hy hxp hyp => ?_) hfirst hafter
  exact h.before_of_le_of_before (hl x hx) hp (hl y hy) (by simpa using hxp) (by simpa using hyp)

theorem divide?_sorts (h : OrderedOn less s) {limit : Nat} {ancestor : Option α} (hl : ∀ x ∈ l, x ∈ s)
    (hancestor : ∀ a ∈ ancestor, a ∈ s ∧ ∀ x ∈ l, less x a = false) :
    ∃ sorted, divide? less room limit ancestor l = some sorted ∧ Sorts less s l sorted := by
  induction limit generalizing ancestor l with
  | zero =>
    by_cases hlong : l.length ≤ smallLength
    · rw [divide?_of_short hlong]
      exact sortHalves?_sorts h hl
    · rw [divide?_zero hlong]
      exact sortRuns?_sorts true h nofun hl
  | succ limit ih =>
    by_cases hlong : l.length ≤ smallLength
    · rw [divide?_of_short hlong]
      exact sortHalves?_sorts h hl
    obtain ⟨pivot, hpivot⟩ := exists_pivot less hlong
    have hp := hl pivot (List.mem_of_getElem? hpivot)
    have hself := h.irrefl hp
    have hfront := splitAtPivot_eq (less · pivot) hpivot hself
    have hupTo := splitAtPivot_eq (fun x => !less pivot x) hpivot (congrArg (!·) hself)
    have hpart : ∀ test : α → Bool, ∀ x ∈ l.filter test, x ∈ s := fun test x hx => hl x (List.mem_filter.mp hx).1
    rw [divide?_succ hlong hpivot hfront hupTo]
    split_ifs with hequal
    · have hleast : ∀ x ∈ l, less x pivot = false := fun x hx => by
        rcases Bool.or_eq_true_iff.mp hequal with hempty | hany
        · simpa using List.filter_eq_nil_iff.mp (List.isEmpty_iff.mp hempty) x hx
        · cases ancestor with
          | none => cases hany
          | some a =>
            obtain ⟨ha, hafter⟩ := hancestor a rfl
            exact h.trans pivot hp a ha x (hl x hx) (by simpa using hany) (hafter x hx)
      obtain ⟨after, hafter, hsorts⟩ := @ih _ none (hpart fun x => !!less pivot x) nofun
      exact ⟨_, by rw [hafter, Option.map_some], Sorts.divide_of_least h hl hp hleast hsorts⟩
    · obtain ⟨after, hafter, hback⟩ := @ih _ (some pivot) (hpart fun x => !less x pivot) fun a ha => by
        obtain rfl := Option.some.inj ha
        exact ⟨hp, fun x hx => by simpa using (List.mem_filter.mp hx).2⟩
      obtain ⟨before, hbefore, hbeforeSorts⟩ := @ih _ ancestor (hpart fun x => less x pivot) fun a ha =>
        ⟨(hancestor a ha).1, fun x hx => (hancestor a ha).2 x (List.mem_filter.mp hx).1⟩
      refine ⟨before ++ after, by rw [hafter, hbefore]; rfl, ?_⟩
      refine Sorts.divide h hl (fun x hx y hy hxp hyp => ?_) hbeforeSorts hback
      exact h.before_of_before_of_le (hl x hx) hp (hl y hy) hxp hyp

end

/-! ### The sort -/

/-- **The sort sorts.** If the comparison orders the elements, there is a
result; it has the same elements in order, and those that are level stay in the
order in which they came. -/
theorem sort?_sorts (h : OrderedOn less s) (hl : ∀ x ∈ l, x ∈ s) :
    ∃ sorted, sort? less room l = some sorted ∧ Sorts less s l sorted := by
  rw [sort?]
  split_ifs
  · have hempty : Sorts less s [] [] := .refl .nil
    exact ⟨_, rfl, hempty.insertAll h (by simp) hl⟩
  · exact sortRuns?_sorts _ h (fun _ part hpart => divide?_sorts h hpart (by simp)) hl

/-- A list that is not much longer is sorted by its halves, unless its first
half is one stretch. -/
theorem sort?_eq_sortHalves? (hlong : insertionLength < l.length) (hshort : l.length ≤ smallLength)
    (hstretch : (firstStretch less l).1 < goodLength l.length) : sort? less room l = sortHalves? less l := by
  have heager : l.length ≤ smallLength * 2 := Nat.le_trans hshort (by decide)
  have hfirst : firstRun? less true (goodLength l.length) l =
      (sortHalves? less l).map fun sorted => (⟨sorted, true⟩, smallLength) := by
    rw [firstRun?]
    dsimp only
    rw [if_neg (Nat.not_le.mpr hstretch), if_pos rfl, List.take_of_length_le hshort]
  rw [sort?, if_neg (Nat.not_le.mpr hlong), decide_eq_true heager, sortRuns?]
  cases l with
  | nil => cases hlong
  | cons x xs =>
    have hrest : xs.drop (smallLength - 1) = [] := List.drop_eq_nil_of_le (by simp [smallLength] at hshort ⊢; omega)
    rw [cutRuns?, hfirst]
    cases sortHalves? less (x :: xs) with
    | none => rfl
    | some sorted =>
      simp only [Option.map_some, Option.bind_eq_bind, Option.bind_some, hrest, cutRuns?]
      rfl

/-- Up to twenty elements are sorted whatever the comparison says. -/
theorem sort?_of_short (hshort : l.length ≤ insertionLength) : sort? less room l = some (insertAll less [] l) := by
  rw [sort?, if_pos hshort]

end Sorting
end Docblock
