/-
# Versions among other texts

Texts that are versions are compared as versions, and any other pair as
texts. Both orders are total, and exchanging two texts always exchanges the
answer (`compareTexts_swap`). Put together they are an order no longer:
`1.9.0` comes before `1.10.0` as a version, `1.10.0` before `1.5` as a text,
and `1.5` before `1.9.0` (`compareTexts_not_transitive`).

What goes wrong is always this. A text that is no version stands between two
versions, and as versions these do not come in the order in which they come
as texts. Where no such three meet, the comparison is a total preorder, and
where they do it is none (`compareTexts_preorder_iff`).

Key definitions: `Version.PreorderedOn`, `Version.Misplaced`.
Key theorems: `Version.compareTexts_preorder_iff`,
`Version.compareTexts_not_transitive`.
-/
import Docblock.Proofs.Version.Order
import Mathlib.Data.Set.Defs

namespace Docblock

open Std

/-- In a total order, what is not after a thing is not after those that are
not before it. -/
theorem ne_gt_trans {cmp : α → α → Ordering} [TransCmp cmp] {a b c : α} (hab : cmp a b ≠ .gt)
    (hbc : cmp b c ≠ .gt) : cmp a c ≠ .gt :=
  Ordering.isLE_iff_ne_gt.mp
    (TransCmp.isLE_trans (Ordering.isLE_iff_ne_gt.mpr hab) (Ordering.isLE_iff_ne_gt.mpr hbc))

namespace Text

theorem eq_of_compareChars : ∀ {as bs : List Char}, compareChars as bs = .eq → as = bs
  | [], [], _ => rfl
  | a :: as, b :: bs, h => by
    rw [compareChars] at h
    split at h
    · rename_i heq
      rw [Nat.compare_eq_eq, Char.toNat_inj] at heq
      rw [heq, eq_of_compareChars h]
    · rename_i hne
      exact absurd h hne

/-- Different texts are never level. -/
theorem eq_of_order {a b : String} (h : order a b = .eq) : a = b :=
  String.toList_inj.mp (eq_of_compareChars h)

theorem order_swap (a b : String) : order a b = (order b a).swap := OrientedCmp.eq_swap

theorem order_self (a : String) : order a a = .eq := ReflCmp.compare_self

end Text

namespace Version

theorem order_swap (v w : Version) : order v w = (order w v).swap := OrientedCmp.eq_swap

theorem order_self (v : Version) : order v v = .eq := ReflCmp.compare_self

/-- Of these texts, what is not after a text is not after those that are not
before it. -/
def PreorderedOn (texts : Set String) : Prop :=
  ∀ a ∈ texts, ∀ b ∈ texts, ∀ c ∈ texts,
    compareTexts a b ≠ .gt → compareTexts b c ≠ .gt → compareTexts a c ≠ .gt

/-- A text that is no version stands between two versions, and these do not
come in the same order as versions. -/
def Misplaced (a x b : String) : Prop :=
  parse? x = none ∧ Text.order a x = .lt ∧ Text.order x b = .lt ∧
    ∃ v w, parse? a = some v ∧ parse? b = some w ∧ order v w ≠ .lt

/-! ### Pairs of both kinds -/

theorem compareTexts_of_left {a : String} (ha : parse? a = none) (b : String) :
    compareTexts a b = Text.order a b := by
  simp only [compareTexts, ha]

theorem compareTexts_of_right (a : String) {b : String} (hb : parse? b = none) :
    compareTexts a b = Text.order a b := by
  cases ha : parse? a <;> simp only [compareTexts, ha, hb]

theorem compareTexts_of_versions {a b : String} {v w : Version} (ha : parse? a = some v)
    (hb : parse? b = some w) : compareTexts a b = order v w := by
  simp only [compareTexts, ha, hb]

/-- A version and another text are never level. -/
theorem order_eq_lt {a b : String} (hne : parse? a ≠ parse? b) (h : Text.order a b ≠ .gt) :
    Text.order a b = .lt := by
  cases hab : Text.order a b with
  | lt => rfl
  | eq => exact absurd (congrArg parse? (Text.eq_of_order hab)) hne
  | gt => exact absurd hab h

theorem order_swap_lt {a b : String} (h : Text.order a b = .gt) : Text.order b a = .lt := by
  rw [Text.order_swap, h]
  rfl

/-! ### Three texts -/

/-- Three texts of which at most one is a version are compared as texts. -/
theorem compareTexts_trans_of_texts {a b c : String}
    (h : (parse? a = none ∧ parse? b = none) ∨ (parse? a = none ∧ parse? c = none) ∨
      (parse? b = none ∧ parse? c = none))
    (hab : compareTexts a b ≠ .gt) (hbc : compareTexts b c ≠ .gt) : compareTexts a c ≠ .gt := by
  rcases h with ⟨ha, hb⟩ | ⟨ha, hc⟩ | ⟨hb, hc⟩
  · rw [compareTexts_of_left ha] at hab ⊢
    rw [compareTexts_of_left hb] at hbc
    exact ne_gt_trans hab hbc
  · rw [compareTexts_of_left ha] at hab ⊢
    rw [compareTexts_of_right b hc] at hbc
    exact ne_gt_trans hab hbc
  · rw [compareTexts_of_right a hb] at hab
    rw [compareTexts_of_right b hc] at hbc
    rw [compareTexts_of_right a hc]
    exact ne_gt_trans hab hbc

/-- Three versions are compared as versions. -/
theorem compareTexts_trans_of_versions {a b c : String} {u v w : Version} (ha : parse? a = some u)
    (hb : parse? b = some v) (hc : parse? c = some w)
    (hab : compareTexts a b ≠ .gt) (hbc : compareTexts b c ≠ .gt) : compareTexts a c ≠ .gt := by
  rw [compareTexts_of_versions ha hb] at hab
  rw [compareTexts_of_versions hb hc] at hbc
  rw [compareTexts_of_versions ha hc]
  exact ne_gt_trans hab hbc

/-- Where two versions meet a text that is none, the order fails only if the
text is between them and they are misplaced. -/
theorem compareTexts_trans_of_mixture {a b c : String} {v w : Version}
    (h : (parse? a = none ∧ parse? b = some v ∧ parse? c = some w ∧ ¬ Misplaced c a b) ∨
      (parse? b = none ∧ parse? a = some v ∧ parse? c = some w ∧ ¬ Misplaced a b c) ∨
      (parse? c = none ∧ parse? a = some v ∧ parse? b = some w ∧ ¬ Misplaced b c a))
    (hab : compareTexts a b ≠ .gt) (hbc : compareTexts b c ≠ .gt) : compareTexts a c ≠ .gt := by
  rcases h with ⟨ha, hb, hc, hm⟩ | ⟨hb, ha, hc, hm⟩ | ⟨hc, ha, hb, hm⟩
  · rw [compareTexts_of_left ha] at hab ⊢
    rw [compareTexts_of_versions hb hc] at hbc
    intro hca
    have hlt := order_eq_lt (by simp [ha, hb]) hab
    refine hm ⟨ha, order_swap_lt hca, hlt, w, v, hc, hb, fun hwv => hbc ?_⟩
    rw [order_swap, hwv]
    rfl
  · rw [compareTexts_of_right a hb] at hab
    rw [compareTexts_of_left hb] at hbc
    rw [compareTexts_of_versions ha hc]
    intro hvw
    have hlt := order_eq_lt (by simp [ha, hb]) hab
    have hlt' := order_eq_lt (by simp [hb, hc]) hbc
    exact hm ⟨hb, hlt, hlt', v, w, ha, hc, by simp [hvw]⟩
  · rw [compareTexts_of_versions ha hb] at hab
    rw [compareTexts_of_right b hc] at hbc
    rw [compareTexts_of_right a hc]
    intro hac
    have hlt := order_eq_lt (by simp [hb, hc]) hbc
    refine hm ⟨hc, hlt, order_swap_lt hac, w, v, hb, ha, fun hwv => hab ?_⟩
    rw [order_swap, hwv]
    rfl

/-- Misplaced texts are not ordered. -/
theorem not_preorderedOn_of_misplaced {texts : Set String} {a x b : String} (ha : a ∈ texts)
    (hx : x ∈ texts) (hb : b ∈ texts) (h : Misplaced a x b) : ¬ PreorderedOn texts := by
  obtain ⟨hnone, hax, hxb, v, w, hv, hw, hvw⟩ := h
  intro hpre
  have hab : compareTexts a b ≠ .gt := by
    refine hpre a ha x hx b hb ?_ ?_
    · simp [compareTexts_of_right a hnone, hax]
    · simp [compareTexts_of_left hnone, hxb]
  rw [compareTexts_of_versions hv hw] at hab
  -- what is left is that both are level as versions, and then the way back is open
  have hxa : compareTexts x a ≠ .gt := by
    refine hpre x hx b hb a ha ?_ ?_
    · simp [compareTexts_of_left hnone, hxb]
    · rw [compareTexts_of_versions hw hv, order_swap]
      cases horder : order v w <;> simp_all
  rw [compareTexts_of_left hnone, Text.order_swap, hax] at hxa
  exact hxa rfl

/-- **When version texts are ordered.** Exchanging two texts exchanges the
answer of the comparison, whatever they are. On a collection of texts it is a
total preorder exactly if no text that is no version stands, as a text,
between two versions that do not come in the same order as versions. -/
theorem compareTexts_preorder_iff (texts : Set String) :
    (∀ a b, compareTexts b a = (compareTexts a b).swap) ∧
    (PreorderedOn texts ↔ ∀ a ∈ texts, ∀ x ∈ texts, ∀ b ∈ texts, ¬ Misplaced a x b) := by
  refine ⟨fun a b => compareTexts_swap b a, fun hpre a ha x hx b hb hm => ?_, ?_⟩
  · exact not_preorderedOn_of_misplaced ha hx hb hm hpre
  · intro h a ha b hb c hc hab hbc
    cases hpa : parse? a with
    | none =>
      cases hpb : parse? b with
      | none => exact compareTexts_trans_of_texts (.inl ⟨hpa, hpb⟩) hab hbc
      | some v =>
        cases hpc : parse? c with
        | none => exact compareTexts_trans_of_texts (.inr (.inl ⟨hpa, hpc⟩)) hab hbc
        | some w =>
          exact compareTexts_trans_of_mixture (.inl ⟨hpa, hpb, hpc, h c hc a ha b hb⟩) hab hbc
    | some u =>
      cases hpb : parse? b with
      | none =>
        cases hpc : parse? c with
        | none => exact compareTexts_trans_of_texts (.inr (.inr ⟨hpb, hpc⟩)) hab hbc
        | some w =>
          exact compareTexts_trans_of_mixture (.inr (.inl ⟨hpb, hpa, hpc, h a ha b hb c hc⟩)) hab hbc
      | some v =>
        cases hpc : parse? c with
        | none =>
          exact compareTexts_trans_of_mixture (.inr (.inr ⟨hpc, hpa, hpb, h b hb c hc a ha⟩)) hab hbc
        | some w => exact compareTexts_trans_of_versions hpa hpb hpc hab hbc

/-- Between two versions stands a text that is none, and the comparison goes
round in a circle. -/
theorem compareTexts_not_transitive :
    compareTexts "1.9.0" "1.10.0" = .lt ∧ compareTexts "1.10.0" "1.5" = .lt ∧
      compareTexts "1.9.0" "1.5" = .gt ∧ ¬ PreorderedOn Set.univ := by
  have h1 : compareTexts "1.9.0" "1.10.0" = .lt := by decide +kernel
  have h2 : compareTexts "1.10.0" "1.5" = .lt := by decide +kernel
  have h3 : compareTexts "1.9.0" "1.5" = .gt := by decide +kernel
  refine ⟨h1, h2, h3, fun hpre => ?_⟩
  refine hpre "1.9.0" trivial "1.10.0" trivial "1.5" trivial ?_ ?_ h3
  · simp [h1]
  · simp [h2]

end Version
end Docblock
