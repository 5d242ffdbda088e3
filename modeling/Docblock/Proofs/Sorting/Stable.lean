/-
# Stable sorting

A comparison orders some elements if no two of them come before each other and
if not coming before is transitive (`OrderedOn`). A list sorts another one,
stably, if it has the same elements, in order, and if of every element those
that are level with it read the same in both (`Sorts`). There is only one such
list (`eq_of_levels`), so two ways to sort agree as soon as both are stable.

Sorted parts make up a sorted whole. Two sorted lists are merged
(`Sorts.merge`), from either end (`merge_reverse`); a list is divided by a test
such that what passes comes before what does not (`Sorts.divide`); and elements
are inserted one after the other (`Sorts.insertAll`).

Key definitions: `Sorting.OrderedOn`, `Sorting.InOrder`, `Sorting.level`,
`Sorting.Sorts`.
Key theorems: `Sorting.eq_of_levels`, `Sorting.Sorts.merge`,
`Sorting.merge_reverse`, `Sorting.Sorts.divide`, `Sorting.Sorts.insertAll`.
-/
import Docblock.Sorting.Runs
import Mathlib.Data.List.Perm.Basic
import Mathlib.Data.Set.Defs

namespace Docblock
namespace Sorting

/-- Of these elements no two come before each other, and an element that does
not come after another one does not come after those that are not before it. -/
structure OrderedOn (less : α → α → Bool) (s : Set α) : Prop where
  asymm : ∀ a ∈ s, ∀ b ∈ s, less a b = true → less b a = false
  trans : ∀ a ∈ s, ∀ b ∈ s, ∀ c ∈ s, less b a = false → less c b = false → less c a = false

/-- No element comes before one in front of it. -/
def InOrder (less : α → α → Bool) (l : List α) : Prop := l.Pairwise fun a b => less b a = false

/-- Neither of two elements comes before the other. -/
def level (less : α → α → Bool) (a b : α) : Bool := !less a b && !less b a

/-- A list with the same elements in order, those that are level in the order
in which they came. -/
structure Sorts (less : α → α → Bool) (s : Set α) (l sorted : List α) : Prop where
  perm : sorted.Perm l
  inOrder : InOrder less sorted
  levels : ∀ a ∈ s, sorted.filter (level less a) = l.filter (level less a)

variable {less : α → α → Bool} {s : Set α} {a b c x : α} {l xs ys sorted : List α}

/-! ### Orders -/

namespace OrderedOn

theorem irrefl (h : OrderedOn less s) (ha : a ∈ s) : less a a = false := by
  cases haa : less a a with
  | false => rfl
  | true => exact absurd (h.asymm a ha a ha haa) (by simp [haa])

theorem before_of_before_of_le (h : OrderedOn less s) (ha : a ∈ s) (hb : b ∈ s) (hc : c ∈ s)
    (hab : less a b = true) (hbc : less c b = false) : less a c = true := by
  by_contra hac
  exact absurd (h.trans b hb c hc a ha hbc (by simpa using hac)) (by simp [hab])

theorem before_of_le_of_before (h : OrderedOn less s) (ha : a ∈ s) (hb : b ∈ s) (hc : c ∈ s)
    (hab : less b a = false) (hbc : less b c = true) : less a c = true := by
  by_contra hac
  exact absurd (h.trans c hc a ha b hb (by simpa using hac) hab) (by simp [hbc])

/-- The opposite comparison orders the same elements. -/
theorem flip (h : OrderedOn less s) : OrderedOn (fun x y => less y x) s where
  asymm a ha b hb := h.asymm b hb a ha
  trans a ha b hb c hc hab hbc := h.trans c hc b hb a ha hbc hab

end OrderedOn

theorem level_flip : level (fun x y => less y x) = level less := by
  funext a b
  rw [level, level, Bool.and_comm]

theorem level_self (h : OrderedOn less s) (ha : a ∈ s) : level less a a = true := by
  rw [level, h.irrefl ha]
  rfl

/-- Of two elements that are level with a third, neither comes before the other. -/
theorem not_before_of_level (h : OrderedOn less s) (ha : a ∈ s) (hb : b ∈ s) (hc : c ∈ s)
    (hab : level less a b = true) (hac : level less a c = true) : less b c = false := by
  simp only [level, Bool.and_eq_true, Bool.not_eq_true'] at hab hac
  exact h.trans c hc a ha b hb hac.1 hab.2

theorem InOrder.reverse (h : InOrder less l) : InOrder (fun x y => less y x) l.reverse :=
  List.pairwise_reverse.mpr h

/-! ### Sorted lists -/

/-- Two lists in order are the same if of every element those level with it are. -/
theorem eq_of_levels (h : OrderedOn less s) : ∀ {xs ys : List α}, (∀ x ∈ xs, x ∈ s) → (∀ y ∈ ys, y ∈ s) →
    InOrder less xs → InOrder less ys →
    (∀ a ∈ s, xs.filter (level less a) = ys.filter (level less a)) → xs = ys
  | [], [], _, _, _, _, _ => rfl
  | [], y :: ys, _, hys, _, _, hlevels => by
    have hy := hys y List.mem_cons_self
    have hfilter := hlevels y hy
    rw [List.filter_cons_of_pos (level_self h hy)] at hfilter
    cases hfilter
  | x :: xs, [], hxs, _, _, _, hlevels => by
    have hx := hxs x List.mem_cons_self
    have hfilter := hlevels x hx
    rw [List.filter_cons_of_pos (level_self h hx)] at hfilter
    cases hfilter
  | x :: xs, y :: ys, hxs, hys, hx, hy, hlevels => by
    have hxmem := hxs x List.mem_cons_self
    have hymem := hys y List.mem_cons_self
    -- each list starts with an element that is level with the head of the other
    have hfirst : level less x y = true := by
      have hyx : y ∈ (x :: xs).filter (level less y) := by
        rw [hlevels y hymem]
        exact List.mem_filter.mpr ⟨List.mem_cons_self, level_self h hymem⟩
      have hxy : x ∈ (y :: ys).filter (level less x) := by
        rw [← hlevels x hxmem]
        exact List.mem_filter.mpr ⟨List.mem_cons_self, level_self h hxmem⟩
      have hle : less y x = false := by
        rcases List.mem_cons.mp (List.mem_filter.mp hyx).1 with rfl | hmem
        · exact h.irrefl hymem
        · exact List.rel_of_pairwise_cons hx hmem
      have hge : less x y = false := by
        rcases List.mem_cons.mp (List.mem_filter.mp hxy).1 with rfl | hmem
        · exact h.irrefl hxmem
        · exact List.rel_of_pairwise_cons hy hmem
      simp [level, hle, hge]
    have heq : x = y := by
      have hfilter := hlevels x hxmem
      rw [List.filter_cons_of_pos (level_self h hxmem), List.filter_cons_of_pos hfirst] at hfilter
      exact (List.cons.inj hfilter).1
    subst heq
    rw [eq_of_levels h (fun a ha => hxs a (List.mem_cons_of_mem _ ha)) (fun a ha => hys a (List.mem_cons_of_mem _ ha))
      hx.of_cons hy.of_cons fun a ha => ?_]
    have hfilter := hlevels a ha
    rw [List.filter_cons, List.filter_cons] at hfilter
    split_ifs at hfilter
    · exact (List.cons.inj hfilter).2
    · exact hfilter

namespace Sorts

theorem refl (h : InOrder less l) : Sorts less s l l := ⟨.refl _, h, fun _ _ => rfl⟩

theorem mem (h : Sorts less s l sorted) (hl : ∀ a ∈ l, a ∈ s) : ∀ a ∈ sorted, a ∈ s :=
  fun a ha => hl a (h.perm.mem_iff.mp ha)

/-- What sorts a list sorts it backwards in the opposite order. -/
theorem reverse (h : Sorts less s l sorted) : Sorts (fun x y => less y x) s l.reverse sorted.reverse where
  perm := (List.reverse_perm _).trans (h.perm.trans (List.reverse_perm _).symm)
  inOrder := h.inOrder.reverse
  levels a ha := by rw [level_flip, List.filter_reverse, List.filter_reverse, h.levels a ha]

/-- There is one list only that sorts another one. -/
theorem unique {other : List α} (horder : OrderedOn less s) (hl : ∀ a ∈ l, a ∈ s) (h : Sorts less s l sorted)
    (hother : Sorts less s l other) : sorted = other :=
  eq_of_levels horder (h.mem hl) (hother.mem hl) h.inOrder hother.inOrder fun a ha =>
    (h.levels a ha).trans (hother.levels a ha).symm

end Sorts

/-! ### Merging -/

theorem inOrder_merge (h : OrderedOn less s) : ∀ {xs ys : List α}, (∀ x ∈ xs, x ∈ s) → (∀ y ∈ ys, y ∈ s) →
    InOrder less xs → InOrder less ys → InOrder less (xs.merge ys fun x y => !less y x)
  | [], ys, _, _, _, hys => by simpa using hys
  | x :: xs, [], _, _, hxs, _ => by simpa using hxs
  | x :: xs, y :: ys, hxmem, hymem, hxs, hys => by
    have hx := hxmem x List.mem_cons_self
    have hy := hymem y List.mem_cons_self
    rw [List.cons_merge_cons]
    cases hyx : less y x with
    | false =>
      refine List.pairwise_cons.mpr ⟨fun z hz => ?_, inOrder_merge h (fun a ha => hxmem a (List.mem_cons_of_mem _ ha))
        hymem hxs.of_cons hys⟩
      rcases List.mem_merge.mp hz with hz | hz
      · exact List.rel_of_pairwise_cons hxs hz
      · rcases List.mem_cons.mp hz with rfl | hz'
        · exact hyx
        · exact h.trans x hx y hy z (hymem z hz) hyx (List.rel_of_pairwise_cons hys hz')
    | true =>
      refine List.pairwise_cons.mpr ⟨fun z hz => ?_, inOrder_merge h hxmem
        (fun a ha => hymem a (List.mem_cons_of_mem _ ha)) hxs hys.of_cons⟩
      have hxy := h.asymm y hy x hx hyx
      rcases List.mem_merge.mp hz with hz | hz
      · rcases List.mem_cons.mp hz with rfl | hz'
        · exact hxy
        · exact h.trans y hy x hx z (hxmem z hz) hxy (List.rel_of_pairwise_cons hxs hz')
      · exact List.rel_of_pairwise_cons hys hz

/-- Of elements that are level, merging takes those of the first list first. -/
theorem filter_merge (h : OrderedOn less s) (ha : a ∈ s) : ∀ {xs ys : List α}, (∀ x ∈ xs, x ∈ s) → (∀ y ∈ ys, y ∈ s) →
    InOrder less xs → (xs.merge ys fun x y => !less y x).filter (level less a) =
      xs.filter (level less a) ++ ys.filter (level less a)
  | [], ys, _, _, _ => by simp
  | x :: xs, [], _, _, _ => by simp
  | x :: xs, y :: ys, hxmem, hymem, hxs => by
    have hy := hymem y List.mem_cons_self
    rw [List.cons_merge_cons]
    cases hyx : less y x with
    | false =>
      have ih := filter_merge h ha (fun a ha => hxmem a (List.mem_cons_of_mem _ ha)) hymem hxs.of_cons
      rw [Bool.not_false, if_pos rfl]
      by_cases hlevel : level less a x = true
      · rw [List.filter_cons_of_pos hlevel, ih, List.filter_cons_of_pos hlevel, List.cons_append]
      · rw [List.filter_cons_of_neg hlevel, ih, List.filter_cons_of_neg hlevel]
    | true =>
      have ih := filter_merge h ha hxmem (fun a ha => hymem a (List.mem_cons_of_mem _ ha)) hxs
      rw [Bool.not_true, if_neg Bool.false_ne_true]
      by_cases hlevel : level less a y = true
      · -- the whole first list comes after an element that is level with `a`
        have hnone : (x :: xs).filter (level less a) = [] := by
          refine List.filter_eq_nil_iff.mpr fun z hz hza => ?_
          have hzmem := hxmem z hz
          have hxz : less z x = false := by
            rcases List.mem_cons.mp hz with rfl | hz
            · exact h.irrefl hzmem
            · exact List.rel_of_pairwise_cons hxs hz
          have hyz := h.before_of_before_of_le hy (hxmem x List.mem_cons_self) hzmem hyx hxz
          rw [not_before_of_level h ha hy hzmem hlevel hza] at hyz
          cases hyz
        rw [List.filter_cons_of_pos hlevel, ih, List.filter_cons_of_pos hlevel, hnone, List.nil_append, List.nil_append]
      · rw [List.filter_cons_of_neg hlevel, ih, List.filter_cons_of_neg hlevel]

/-- **Merging sorts.** -/
theorem Sorts.merge {xs' ys' : List α} (h : OrderedOn less s) (hx : ∀ x ∈ xs, x ∈ s) (hy : ∀ y ∈ ys, y ∈ s)
    (hxs : Sorts less s xs xs') (hys : Sorts less s ys ys') :
    Sorts less s (xs ++ ys) (xs'.merge ys' fun x y => !less y x) where
  perm := (List.merge_perm_append _).trans (hxs.perm.append hys.perm)
  inOrder := inOrder_merge h (hxs.mem hx) (hys.mem hy) hxs.inOrder hys.inOrder
  levels a ha := by
    rw [filter_merge h ha (hxs.mem hx) (hys.mem hy) hxs.inOrder, hxs.levels a ha, hys.levels a ha, List.filter_append]

/-- Merging from the back gives the same. -/
theorem merge_reverse (h : OrderedOn less s) (hx : ∀ x ∈ xs, x ∈ s) (hy : ∀ y ∈ ys, y ∈ s)
    (hxs : InOrder less xs) (hys : InOrder less ys) :
    (ys.reverse.merge xs.reverse fun y x => !less y x).reverse = xs.merge ys fun x y => !less y x := by
  have hback := Sorts.merge h.flip (fun y hy' => hy y (List.mem_reverse.mp hy'))
    (fun x hx' => hx x (List.mem_reverse.mp hx')) (.refl hys.reverse) (.refl hxs.reverse)
  rw [← List.reverse_append] at hback
  have hfront := Sorts.merge h hx hy (.refl hxs) (.refl hys)
  have hmem : ∀ z ∈ xs ++ ys, z ∈ s := fun z hz => (List.mem_append.mp hz).elim (hx z) (hy z)
  refine Sorts.unique h hmem ?_ hfront
  rw [← List.reverse_reverse (xs ++ ys)]
  exact hback.reverse

/-! ### Dividing -/

theorem filter_filter_of_imp {p q : α → Bool} (h : ∀ x ∈ l, q x = true → p x = true) :
    (l.filter p).filter q = l.filter q := by
  rw [List.filter_filter]
  refine List.filter_congr fun x hx => ?_
  cases hq : q x with
  | false => rfl
  | true => rw [h x hx hq, Bool.true_and]

/-- **Dividing sorts**, if what passes the test comes before what does not, and
both are sorted. -/
theorem Sorts.divide {test : α → Bool} {front back : List α} (h : OrderedOn less s) (hl : ∀ a ∈ l, a ∈ s)
    (htest : ∀ x ∈ l, ∀ y ∈ l, test x = true → test y = false → less x y = true)
    (hfront : Sorts less s (l.filter test) front) (hback : Sorts less s (l.filter fun x => !test x) back) :
    Sorts less s l (front ++ back) where
  perm := (hfront.perm.append hback.perm).trans (List.filter_append_perm test l)
  inOrder := by
    refine List.pairwise_append.mpr ⟨hfront.inOrder, hback.inOrder, fun x hx y hy => ?_⟩
    obtain ⟨hx, hpx⟩ := List.mem_filter.mp (hfront.perm.mem_iff.mp hx)
    obtain ⟨hy, hpy⟩ := List.mem_filter.mp (hback.perm.mem_iff.mp hy)
    exact h.asymm x (hl x hx) y (hl y hy) (htest x hx y hy hpx (by simpa using hpy))
  levels a ha := by
    rw [List.filter_append, hfront.levels a ha, hback.levels a ha]
    by_cases hsome : ∃ x ∈ l, level less a x = true ∧ test x = true
    · -- then all that are level with `a` pass
      obtain ⟨x, hx, hax, hpx⟩ := hsome
      have hall : ∀ y ∈ l, level less a y = true → test y = true := fun y hy hay => by
        by_contra hpy
        have hxy := htest x hx y hy hpx (by simpa using hpy)
        rw [not_before_of_level h ha (hl x hx) (hl y hy) hax hay] at hxy
        cases hxy
      have hnone : (l.filter fun x => !test x).filter (level less a) = [] := by
        refine List.filter_eq_nil_iff.mpr fun y hy hay => ?_
        obtain ⟨hy, hpy⟩ := List.mem_filter.mp hy
        simp [hall y hy hay] at hpy
      rw [filter_filter_of_imp hall, hnone, List.append_nil]
    · have hall : ∀ y ∈ l, level less a y = true → (!test y) = true := fun y hy hay => by
        by_contra hpy
        exact hsome ⟨y, hy, hay, by simpa using hpy⟩
      have hnone : (l.filter test).filter (level less a) = [] := by
        refine List.filter_eq_nil_iff.mpr fun y hy hay => ?_
        obtain ⟨hy, hpy⟩ := List.mem_filter.mp hy
        exact hsome ⟨y, hy, hay, hpy⟩
      rw [filter_filter_of_imp hall, hnone, List.nil_append]

/-! ### Inserting -/

theorem insertLast_perm (less : α → α → Bool) (x : α) : ∀ back : List α, (insertLast less x back).Perm (x :: back)
  | [] => .refl _
  | last :: before => by
    rw [insertLast]
    split_ifs
    · exact ((insertLast_perm less x before).cons last).trans (.swap x last before)
    · exact .refl _

theorem insertAll_perm (less : α → α → Bool) (sorted elements : List α) :
    (insertAll less sorted elements).Perm (sorted ++ elements) := by
  have hback : ∀ (elements back : List α),
      (elements.foldl (fun back x => insertLast less x back) back).Perm (elements.reverse ++ back) := by
    intro elements
    induction elements with
    | nil => exact fun _ => .refl _
    | cons x elements ih =>
      intro back
      rw [List.foldl_cons, List.reverse_cons, List.append_assoc]
      exact (ih _).trans ((insertLast_perm less x back).append_left _)
  rw [insertAll, ← List.reverse_reverse (sorted ++ elements), List.reverse_append]
  exact (List.reverse_perm _).trans ((hback elements sorted.reverse).trans (List.reverse_perm _).symm)

theorem inOrder_insertLast (h : OrderedOn less s) (hx : x ∈ s) : ∀ {back : List α}, (∀ a ∈ back, a ∈ s) →
    InOrder (fun x y => less y x) back → InOrder (fun x y => less y x) (insertLast less x back)
  | [], _, _ => List.pairwise_singleton _ _
  | last :: before, hmem, hin => by
    have hlast := hmem last List.mem_cons_self
    rw [insertLast]
    split_ifs with hxlast
    · refine List.pairwise_cons.mpr ⟨fun y hy => ?_,
        inOrder_insertLast h hx (fun a ha => hmem a (List.mem_cons_of_mem _ ha)) hin.of_cons⟩
      rcases List.mem_cons.mp ((insertLast_perm less x before).mem_iff.mp hy) with rfl | hy
      · exact h.asymm y hx last hlast hxlast
      · exact List.rel_of_pairwise_cons hin hy
    · rw [Bool.not_eq_true] at hxlast
      refine List.pairwise_cons.mpr ⟨fun y hy => ?_, hin⟩
      rcases List.mem_cons.mp hy with rfl | hy'
      · exact hxlast
      · exact h.trans y (hmem y hy) last hlast x hx (List.rel_of_pairwise_cons hin hy') hxlast

/-- The new element comes behind those that are level with it. -/
theorem filter_insertLast (h : OrderedOn less s) (ha : a ∈ s) (hx : x ∈ s) : ∀ {back : List α}, (∀ a ∈ back, a ∈ s) →
    (insertLast less x back).filter (level less a) = (x :: back).filter (level less a)
  | [], _ => rfl
  | last :: before, hmem => by
    rw [insertLast]
    split_ifs with hxlast
    · rw [List.filter_cons, filter_insertLast h ha hx fun a ha => hmem a (List.mem_cons_of_mem _ ha)]
      -- only one of the two is level with `a`
      by_cases hax : level less a x = true
      · have hnot : ¬ level less a last = true := fun halast => by
          rw [not_before_of_level h ha hx (hmem last List.mem_cons_self) hax halast] at hxlast
          cases hxlast
        rw [if_neg hnot, List.filter_cons_of_pos hax, List.filter_cons_of_pos hax, List.filter_cons_of_neg hnot]
      · rw [List.filter_cons_of_neg hax, List.filter_cons_of_neg hax, List.filter_cons]
    · rfl

/-- Inserting sorts. The list that is inserted into runs backwards, so it is
sorted in the opposite order. -/
theorem Sorts.insertLast {back : List α} (h : OrderedOn less s) (hl : ∀ a ∈ l, a ∈ s) (hx : x ∈ s)
    (hback : Sorts (fun x y => less y x) s l back) :
    Sorts (fun x y => less y x) s (x :: l) (insertLast less x back) where
  perm := (insertLast_perm less x back).trans (hback.perm.cons x)
  inOrder := inOrder_insertLast h hx (hback.mem hl) hback.inOrder
  levels a ha := by
    have hlevels := hback.levels a ha
    rw [level_flip] at hlevels ⊢
    rw [filter_insertLast h ha hx (hback.mem hl), List.filter_cons, List.filter_cons, hlevels]

/-- **Inserting elements one after the other sorts.** -/
theorem Sorts.insertAll {elements : List α} (h : OrderedOn less s) (hl : ∀ a ∈ l, a ∈ s)
    (helements : ∀ a ∈ elements, a ∈ s) (hsorted : Sorts less s l sorted) :
    Sorts less s (l ++ elements) (insertAll less sorted elements) := by
  have hback : ∀ {elements l back : List α}, (∀ a ∈ l, a ∈ s) → (∀ a ∈ elements, a ∈ s) →
      Sorts (fun x y => less y x) s l back → Sorts (fun x y => less y x) s (elements.reverse ++ l)
        (elements.foldl (fun back x => Sorting.insertLast less x back) back) := by
    intro elements
    induction elements with
    | nil => exact fun _ _ hback => hback
    | cons x elements ih =>
      intro l back hl helements hback
      have hx := helements x List.mem_cons_self
      rw [List.foldl_cons, List.reverse_cons, List.append_assoc]
      refine ih (fun a ha => ?_) (fun a ha => helements a (List.mem_cons_of_mem _ ha)) (hback.insertLast h hl hx)
      rcases List.mem_cons.mp ha with rfl | ha
      · exact hx
      · exact hl a ha
  have hfold := (hback (fun a ha => hl a (List.mem_reverse.mp ha)) helements hsorted.reverse).reverse
  rwa [List.reverse_append, List.reverse_reverse, List.reverse_reverse] at hfold

end Sorting
end Docblock
