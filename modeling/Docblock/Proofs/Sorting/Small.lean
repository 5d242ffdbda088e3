/-
# Halves that are merged from both ends

Taking elements from the front of two lists only divides them, so if the
lengths add up, the two ends of a merge have met in both lists, and nothing is
lost or taken twice (`perm_of_mergeEnds?`). This needs no order.

If the comparison orders the elements, the lengths do add up. What is taken
from one list and what is left of the other are then told apart by the
comparison, at either end in the same way (`exists_of_mergeSteps`). Had an
element been taken from both ends, some element of the other list would have
been taken from neither, and of these two the first would have to come before
the second and not come before it. So at most one element is left between the
ends (`exists_mergeEnds?`), the result is the merge of both lists
(`mergeEnds?_eq_merge`), and halves that are sorted make up a sorted list
(`sortHalves?_sorts`).

Key theorems: `Sorting.perm_of_sortHalves?`, `Sorting.mergeEnds?_eq_merge`,
`Sorting.sortHalves?_sorts`.
-/
import Docblock.Proofs.Sorting.Stable

namespace Docblock
namespace Sorting

variable {α : Type} {less before : α → α → Bool} {s : Set α} {a b c d : α} {l xs ys sorted : List α}

/-! ### Four elements -/

theorem perm_of_mergePairs (less : α → α → Bool) (a b c d : α) : (mergePairs less a b c d).Perm [a, b, c, d] := by
  classical
  refine List.perm_iff_count.mpr fun x => ?_
  rw [mergePairs]
  cases less c a <;> cases less d b <;> simp only [Bool.false_eq_true, if_true, if_false] <;> split_ifs <;>
    simp only [List.count_cons] <;> omega

theorem mergePairs_eq_merge (h : OrderedOn less s) (ha : a ∈ s) (hb : b ∈ s) (hc : c ∈ s) (hd : d ∈ s)
    (hab : less b a = false) (hcd : less d c = false) :
    mergePairs less a b c d = [a, b].merge [c, d] fun x y => !less y x := by
  rw [mergePairs]
  cases hca : less c a <;> cases hdb : less d b
  · cases hcb : less c b <;> simp [hca, hdb, hcb]
  · -- `c` is before `b`, as it is not after `d`
    have hcb := h.before_of_le_of_before hc hd hb hcd hdb
    simp [hca, hdb, hcb, hcd]
  · have hda := h.trans a ha b hb d hd hab hdb
    simp [hca, hdb, hab, hda]
  · cases hda : less d a <;> simp [hca, hdb, hda]

/-- Two elements are sorted as by insertion. -/
theorem sortTwo_eq_insertAll (less : α → α → Bool) (a b : α) :
    [(sortTwo less a b).1, (sortTwo less a b).2] = insertAll less [] [a, b] := by
  simp only [sortTwo, insertAll, List.foldl_cons, List.foldl_nil, List.reverse_nil, insertLast]
  split_ifs <;> rfl

theorem sortTwo_sorts (h : OrderedOn less s) (ha : a ∈ s) (hb : b ∈ s) :
    Sorts less s [a, b] [(sortTwo less a b).1, (sortTwo less a b).2] := by
  rw [sortTwo_eq_insertAll]
  have hempty : Sorts less s [] [] := .refl .nil
  exact hempty.insertAll h (by simp) (by simp [ha, hb])

theorem sortFour_eq (less : α → α → Bool) (a b c d : α) : sortFour less a b c d =
    mergePairs less (sortTwo less a b).1 (sortTwo less a b).2 (sortTwo less c d).1 (sortTwo less c d).2 := rfl

theorem sortFour_perm (less : α → α → Bool) (a b c d : α) : (sortFour less a b c d).Perm [a, b, c, d] := by
  have hpair : ∀ p q, [(sortTwo less p q).1, (sortTwo less p q).2].Perm [p, q] := fun p q => by
    rw [sortTwo_eq_insertAll]
    exact insertAll_perm less [] [p, q]
  rw [sortFour_eq]
  exact (perm_of_mergePairs less _ _ _ _).trans ((hpair a b).append (hpair c d))

theorem sortFour_sorts (h : OrderedOn less s) (ha : a ∈ s) (hb : b ∈ s) (hc : c ∈ s) (hd : d ∈ s) :
    Sorts less s [a, b, c, d] (sortFour less a b c d) := by
  have hab : ∀ x ∈ [a, b], x ∈ s := by simp [ha, hb]
  have hcd : ∀ x ∈ [c, d], x ∈ s := by simp [hc, hd]
  have hfirst := sortTwo_sorts h ha hb
  have hsecond := sortTwo_sorts h hc hd
  have hin := hfirst.mem hab
  have hin' := hsecond.mem hcd
  rw [sortFour_eq, mergePairs_eq_merge h (hin _ List.mem_cons_self) (hin _ (by simp)) (hin' _ List.mem_cons_self)
    (hin' _ (by simp)) (List.rel_of_pairwise_cons hfirst.inOrder (by simp))
    (List.rel_of_pairwise_cons hsecond.inOrder (by simp))]
  exact Sorts.merge h hab hcd hfirst hsecond

/-! ### A half -/

theorem sortHalf_perm (less : α → α → Bool) (inFours : Bool) (half : List α) :
    (sortHalf less inFours half).Perm half := by
  unfold sortHalf
  split
  · rename_i p q r t rest
    split_ifs
    · exact (insertAll_perm less _ rest).trans ((sortFour_perm less p q r t).append_right rest)
    · exact insertAll_perm less [] _
  · exact insertAll_perm less [] _

theorem sortHalf_sorts (h : OrderedOn less s) (inFours : Bool) {half : List α} (hhalf : ∀ x ∈ half, x ∈ s) :
    Sorts less s half (sortHalf less inFours half) := by
  have hempty : Sorts less s [] [] := .refl .nil
  have hinsert : Sorts less s half (insertAll less [] half) := hempty.insertAll h (by simp) hhalf
  unfold sortHalf
  split
  · rename_i p q r t rest
    split_ifs
    · simp only [List.mem_cons, forall_eq_or_imp] at hhalf
      obtain ⟨hp, hq, hr, ht, hrest⟩ := hhalf
      exact (sortFour_sorts h hp hq hr ht).insertAll h (by simp [hp, hq, hr, ht]) hrest
    · exact hinsert
  · exact hinsert

/-! ### Steps of a merge -/

section
variable {n : Nat} {taken xs' ys' : List α}

/-- Taking elements from the front of two lists divides both. If they are in
order, what is taken of the first list comes no later than what is left of the
second one, and what is taken of the second list comes before what is left of
the first one. -/
theorem exists_of_mergeSteps (h : mergeSteps before n xs ys = (taken, xs', ys')) :
    ∃ front front', xs = front ++ xs' ∧ ys = front' ++ ys' ∧ taken.Perm (front ++ front') ∧
      ∀ s, OrderedOn before s → (∀ x ∈ xs, x ∈ s) → (∀ y ∈ ys, y ∈ s) → InOrder before xs → InOrder before ys →
        (∀ x ∈ front, ∀ y ∈ ys', before y x = false) ∧ ∀ y ∈ front', ∀ x ∈ xs', before y x = true := by
  fun_induction mergeSteps before n xs ys generalizing taken with
  | case1 n x xs y ys hyx more rests hsteps ih =>
    cases h
    obtain ⟨front, front', hxs, hys, hperm, hapart⟩ := ih hsteps
    refine ⟨front, y :: front', hxs, by rw [hys, List.cons_append], ?_, fun s h hxmem hymem hx hy => ?_⟩
    · exact (hperm.cons y).trans List.perm_middle.symm
    have hy' := hymem y List.mem_cons_self
    obtain ⟨hle, hlt⟩ := hapart s h hxmem (fun z hz => hymem z (List.mem_cons_of_mem _ hz)) hx hy.of_cons
    refine ⟨hle, fun z hz w hw => ?_⟩
    rcases List.mem_cons.mp hz with rfl | hz
    · -- the rest of the first list comes no earlier than its head, which `y` is before
      have hw' : w ∈ x :: xs := hxs ▸ List.mem_append_right front hw
      rcases List.mem_cons.mp hw' with rfl | hmem
      · exact hyx
      · exact h.before_of_before_of_le hy' (hxmem x List.mem_cons_self) (hxmem w hw') hyx
          (List.rel_of_pairwise_cons hx hmem)
    · exact hlt z hz w hw
  | case2 n x xs y ys hyx more rests hsteps ih =>
    cases h
    obtain ⟨front, front', hxs, hys, hperm, hapart⟩ := ih hsteps
    refine ⟨x :: front, front', by rw [hxs, List.cons_append], hys, hperm.cons x, fun s h hxmem hymem hx hy => ?_⟩
    rw [Bool.not_eq_true] at hyx
    have hx' := hxmem x List.mem_cons_self
    obtain ⟨hle, hlt⟩ := hapart s h (fun z hz => hxmem z (List.mem_cons_of_mem _ hz)) hymem hx.of_cons hy
    refine ⟨fun z hz w hw => ?_, hlt⟩
    rcases List.mem_cons.mp hz with rfl | hz
    · have hw' : w ∈ y :: ys := hys ▸ List.mem_append_right front' hw
      rcases List.mem_cons.mp hw' with rfl | hmem
      · exact hyx
      · exact h.trans z hx' y (hymem y List.mem_cons_self) w (hymem w hw') hyx (List.rel_of_pairwise_cons hy hmem)
    · exact hle z hz w hw
  | case3 n xs ys =>
    cases h
    exact ⟨[], [], rfl, rfl, .refl _, fun _ _ _ _ _ _ => ⟨nofun, nofun⟩⟩

/-- As many elements are taken as are wanted. -/
theorem length_of_mergeSteps (h : mergeSteps before n xs ys = (taken, xs', ys')) (hx : n ≤ xs.length)
    (hy : n ≤ ys.length) : taken.length = n := by
  fun_induction mergeSteps before n xs ys generalizing taken with
  | case1 n x xs y ys hyx more rests hsteps ih =>
    cases h
    rw [List.length_cons] at hx hy ⊢
    rw [ih hsteps (by rw [List.length_cons]; omega) (by omega)]
  | case2 n x xs y ys hyx more rests hsteps ih =>
    cases h
    rw [List.length_cons] at hx hy ⊢
    rw [ih hsteps (by omega) (by rw [List.length_cons]; omega)]
  | case3 n xs ys hnone =>
    obtain ⟨rfl, -⟩ := Prod.mk.inj h
    -- with elements on both sides there is a step left
    match n, xs, ys, hx, hy, hnone with
    | 0, _, _, _, _, _ => rfl
    | n + 1, x :: xs, y :: ys, _, _, hnone => exact (hnone n x xs y ys rfl rfl rfl).elim

/-- A merge goes on with what is left. -/
theorem merge_of_mergeSteps (h : mergeSteps before n xs ys = (taken, xs', ys')) :
    (xs.merge ys fun x y => !before y x) = taken ++ xs'.merge ys' fun x y => !before y x := by
  fun_induction mergeSteps before n xs ys generalizing taken with
  | case1 n x xs y ys hyx more rests hsteps ih =>
    cases h
    rw [List.cons_merge_cons, if_neg (by simp [hyx]), ih hsteps, List.cons_append]
  | case2 n x xs y ys hyx more rests hsteps ih =>
    cases h
    rw [List.cons_merge_cons, if_pos (by simpa using hyx), ih hsteps, List.cons_append]
  | case3 =>
    cases h
    rfl

end

/-! ### Both ends -/

section
variable {front rest back rest' : List α}

/-- What lies between two ends of a list that do not overlap. -/
theorem eq_of_ends (hfront : l = front ++ rest) (hback : l.reverse = back ++ rest')
    (hlength : front.length ≤ rest'.length) : l = front ++ rest'.reverse.drop front.length ++ back.reverse := by
  have hl : front ++ rest = rest'.reverse ++ back.reverse := by
    rw [← hfront, ← List.reverse_append, ← hback, List.reverse_reverse]
  rw [hfront]
  rcases List.append_eq_append_iff.mp hl with ⟨between, hrest', hrest⟩ | ⟨both, hboth, -⟩
  · rw [hrest', List.drop_left, hrest, List.append_assoc]
  · have hnil : both = [] := by
      have hsum := congrArg List.length hboth
      rw [List.length_append, List.length_reverse] at hsum
      exact List.eq_nil_of_length_eq_zero (by omega)
    rw [hnil, List.append_nil] at hboth
    rw [hl, hboth, List.drop_length, List.append_nil]

/-- Two ends of a list overlap, or something lies between them, unless their
lengths add up. -/
theorem exists_mem_of_ends (hfront : l = front ++ rest) (hback : l.reverse = back ++ rest') :
    (rest'.length < front.length → ∃ x ∈ front, x ∈ back) ∧
    (front.length < rest'.length → ∃ x ∈ rest, x ∈ rest') := by
  have hl : front ++ rest = rest'.reverse ++ back.reverse := by
    rw [← hfront, ← List.reverse_append, ← hback, List.reverse_reverse]
  rcases List.append_eq_append_iff.mp hl with ⟨between, hrest', hrest⟩ | ⟨both, hboth, hback'⟩
  · have hsum := congrArg List.length hrest'
    rw [List.length_append, List.length_reverse] at hsum
    refine ⟨fun hlt => absurd hlt (by omega), fun hlt => ?_⟩
    obtain ⟨x, hx⟩ := List.exists_mem_of_length_pos (l := between) (by omega)
    refine ⟨x, hrest ▸ List.mem_append_left _ hx, ?_⟩
    rw [← List.mem_reverse, hrest']
    exact List.mem_append_right _ hx
  · have hsum := congrArg List.length hboth
    rw [List.length_append, List.length_reverse] at hsum
    refine ⟨fun hlt => ?_, fun hlt => absurd hlt (by omega)⟩
    obtain ⟨x, hx⟩ := List.exists_mem_of_length_pos (l := both) (by omega)
    refine ⟨x, hboth ▸ List.mem_append_right _ hx, ?_⟩
    rw [← List.mem_reverse, hback']
    exact List.mem_append_left _ hx

end

/-- **If the lengths add up, the ends have met.** The merge then has the
elements of both lists. -/
theorem perm_of_mergeEnds? {merged : List α} (h : mergeEnds? less xs ys = some merged) : merged.Perm (xs ++ ys) := by
  rw [mergeEnds?] at h
  rcases hfront : mergeSteps less xs.length xs ys with ⟨front, xs', ys'⟩
  rcases hback : mergeSteps (fun x y => less y x) xs.length ys.reverse xs.reverse with ⟨back, ysBefore, xsBefore⟩
  simp only [hfront, hback] at h
  obtain ⟨frontOf, frontOf', hxs, hys, hperm, -⟩ := exists_of_mergeSteps hfront
  obtain ⟨backOf', backOf, hys', hxs', hperm', -⟩ := exists_of_mergeSteps hback
  have hxlen := congrArg List.length hxs
  have hylen := congrArg List.length hys
  have hxlen' := congrArg List.length hxs'
  have hylen' := congrArg List.length hys'
  have hflen := hperm.length_eq
  have hblen := hperm'.length_eq
  simp only [List.length_append, List.length_reverse] at hxlen hylen hxlen' hylen' hflen hblen
  rw [show xs.length - xs'.length = frontOf.length by omega,
    show ys.length - ys'.length = frontOf'.length by omega] at h
  obtain ⟨htotal, heq⟩ := Option.ite_none_right_eq_some.mp h
  obtain rfl := Option.some.inj heq
  simp only [List.length_append, List.length_reverse, List.length_drop] at htotal
  have hx := eq_of_ends hxs hxs' (by omega)
  have hy := eq_of_ends hys hys' (by omega)
  classical
  refine List.perm_iff_count.mpr fun x => ?_
  have hcount := hperm.count_eq x
  have hcount' := hperm'.count_eq x
  have hxcount := congrArg (List.count x) hx
  have hycount := congrArg (List.count x) hy
  simp only [List.count_append, List.count_reverse] at hcount hcount' hxcount hycount ⊢
  omega

section
variable {front back xs' ys' xsBefore ysBefore : List α}

/-- If the lists are in order, the ends meet, and at most one element is left
between them. -/
theorem exists_mergeEnds? (h : OrderedOn less s) (hx : ∀ x ∈ xs, x ∈ s) (hy : ∀ y ∈ ys, y ∈ s)
    (hxs : InOrder less xs) (hys : InOrder less ys) (hle : xs.length ≤ ys.length) (hlast : ys.length ≤ xs.length + 1)
    (hfront : mergeSteps less xs.length xs ys = (front, xs', ys'))
    (hback : mergeSteps (fun x y => less y x) xs.length ys.reverse xs.reverse = (back, ysBefore, xsBefore)) :
    ∃ between, between.length ≤ 1 ∧ mergeEnds? less xs ys = some (front ++ between ++ back.reverse) := by
  obtain ⟨frontOf, frontOf', hxfront, hyfront, hperm, hapart⟩ := exists_of_mergeSteps hfront
  obtain ⟨backOf', backOf, hyback, hxback, hperm', hapart'⟩ := exists_of_mergeSteps hback
  have hflen := length_of_mergeSteps hfront (Nat.le_refl _) hle
  have hblen := length_of_mergeSteps hback (by simpa using hle) (by simp)
  have hflen' := hperm.length_eq
  have hblen' := hperm'.length_eq
  have hxlen := congrArg List.length hxfront
  have hylen := congrArg List.length hyfront
  have hxlen' := congrArg List.length hxback
  have hylen' := congrArg List.length hyback
  simp only [List.length_append, List.length_reverse] at hxlen hylen hxlen' hylen' hflen' hblen' hflen hblen
  obtain ⟨hxboth, hxgap⟩ := exists_mem_of_ends hxfront hxback
  obtain ⟨hyboth, hygap⟩ := exists_mem_of_ends hyfront hyback
  obtain ⟨hfle, hflt⟩ := hapart s h hx hy hxs hys
  obtain ⟨hble, hblt⟩ := hapart' s h.flip (fun y hmem => hy y (List.mem_reverse.mp hmem))
    (fun x hmem => hx x (List.mem_reverse.mp hmem)) hys.reverse hxs.reverse
  -- what is taken from both ends of one list goes with what is taken from no end of the other
  have hxmeet : frontOf.length ≤ xsBefore.length := by
    by_contra hnot
    obtain ⟨x, hxf, hxb⟩ := hxboth (by omega)
    obtain ⟨y, hyr, hyb⟩ := hygap (by omega)
    exact absurd (hfle x hxf y hyr) (by simp [hblt x hxb y hyb])
  have hymeet : frontOf'.length ≤ ysBefore.length := by
    by_contra hnot
    obtain ⟨y, hyf, hyb⟩ := hyboth (by omega)
    obtain ⟨x, hxr, hxb⟩ := hxgap (by omega)
    exact absurd (hflt y hyf x hxr) (by simp [hble y hyb x hxb])
  rw [mergeEnds?]
  simp only [hfront, hback]
  refine ⟨_, ?_, if_pos ?_⟩
  · simp only [List.length_append, List.length_reverse, List.length_drop]
    omega
  · simp only [List.length_append, List.length_reverse, List.length_drop]
    omega

end

theorem eq_of_perm_of_short (h : xs.Perm ys) (hshort : xs.length ≤ 1) : xs = ys := by
  match xs, hshort with
  | [], _ => exact (List.nil_perm.mp h).symm
  | [x], _ => exact List.singleton_perm.mp h

/-- **Merging from both ends is merging,** if the comparison orders the
elements, both lists are in order, and the second is as long as the first or
longer by one. -/
theorem mergeEnds?_eq_merge (h : OrderedOn less s) (hx : ∀ x ∈ xs, x ∈ s) (hy : ∀ y ∈ ys, y ∈ s)
    (hxs : InOrder less xs) (hys : InOrder less ys) (hle : xs.length ≤ ys.length) (hlast : ys.length ≤ xs.length + 1) :
    mergeEnds? less xs ys = some (xs.merge ys fun x y => !less y x) := by
  rcases hfront : mergeSteps less xs.length xs ys with ⟨front, xs', ys'⟩
  rcases hback : mergeSteps (fun x y => less y x) xs.length ys.reverse xs.reverse with ⟨back, ysBefore, xsBefore⟩
  obtain ⟨between, hshort, hmerged⟩ := exists_mergeEnds? h hx hy hxs hys hle hlast hfront hback
  have hflen := length_of_mergeSteps hfront (Nat.le_refl _) hle
  have hblen := length_of_mergeSteps hback (by simpa using hle) (by simp)
  -- the merge too is the two ends with something between them
  have hreverse : (xs.merge ys fun x y => !less y x).reverse =
      back ++ ysBefore.merge xsBefore fun y x => !less y x := by
    rw [← merge_reverse h hx hy hxs hys, List.reverse_reverse, merge_of_mergeSteps hback]
  have hlength := congrArg List.length hreverse
  rw [List.length_reverse, List.length_merge, List.length_append] at hlength
  have hends := eq_of_ends (merge_of_mergeSteps hfront) hreverse (by omega)
  have hperm := (perm_of_mergeEnds? hmerged).trans (List.merge_perm_append fun x y => !less y x).symm
  rw [hends, List.perm_append_right_iff, List.perm_append_left_iff] at hperm
  rw [hmerged, eq_of_perm_of_short hperm hshort, ← hends]

/-! ### Small lists -/

theorem perm_of_sortHalves? (h : sortHalves? less l = some sorted) : sorted.Perm l := by
  rw [sortHalves?] at h
  split_ifs at h
  · cases h
    exact .refl _
  · have hhalves := (sortHalf_perm less (decide (8 ≤ l.length)) (l.take (l.length / 2))).append
      (sortHalf_perm less (decide (8 ≤ l.length)) (l.drop (l.length / 2)))
    rw [List.take_append_drop] at hhalves
    exact (perm_of_mergeEnds? h).trans hhalves

/-- **Small lists are sorted.** -/
theorem sortHalves?_sorts (h : OrderedOn less s) (hl : ∀ x ∈ l, x ∈ s) :
    ∃ sorted, sortHalves? less l = some sorted ∧ Sorts less s l sorted := by
  rw [sortHalves?]
  split_ifs with hshort
  · have hin : InOrder less l := by
      match l, hshort with
      | [], _ => exact .nil
      | [x], _ => exact List.pairwise_singleton _ _
    exact ⟨l, rfl, .refl hin⟩
  · have hx : ∀ x ∈ l.take (l.length / 2), x ∈ s := fun x hmem => hl x (List.mem_of_mem_take hmem)
    have hy : ∀ y ∈ l.drop (l.length / 2), y ∈ s := fun y hmem => hl y (List.mem_of_mem_drop hmem)
    have hfirst := sortHalf_sorts h (decide (8 ≤ l.length)) hx
    have hsecond := sortHalf_sorts h (decide (8 ≤ l.length)) hy
    have hxlen := hfirst.perm.length_eq
    have hylen := hsecond.perm.length_eq
    rw [List.length_take] at hxlen
    rw [List.length_drop] at hylen
    have hmerged := Sorts.merge h hx hy hfirst hsecond
    rw [List.take_append_drop] at hmerged
    refine ⟨_, mergeEnds?_eq_merge h (hfirst.mem hx) (hsecond.mem hy) hfirst.inOrder hsecond.inOrder ?_ ?_, hmerged⟩
    · omega
    · omega

end Sorting
end Docblock
