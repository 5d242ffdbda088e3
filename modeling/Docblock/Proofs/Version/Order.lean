/-
# The order of versions is total

Versions are compared part by part, and each part by a total order: numbers,
texts by their characters, identifiers with numbers before words. So versions
are totally ordered (`Version.order` is a `Std.TransCmp`). On texts that are
versions the order of texts is this one, and `Version.atLeast` is a total
preorder there (`atLeast_total`, `atLeast_trans`, `compareTexts_of_atLeast`).

Texts that are no versions are compared as texts, which does not fit the
other order: nothing is said here about a mixture of both.

Key theorems: `Version.atLeast_refl`, `Version.atLeast_total`,
`Version.atLeast_trans`, `Version.compareTexts_of_atLeast`.
-/
import Docblock.Version

namespace Docblock

open Std

/-! ### Texts -/

theorem Text.compareChars_eq : ∀ as bs : List Char,
    Text.compareChars as bs = List.compareLex (compareOn Char.toNat) as bs
  | [], [] => rfl
  | [], _ :: _ => rfl
  | _ :: _, [] => rfl
  | a :: as, b :: bs => by
    rw [Text.compareChars, List.compareLex, Text.compareChars_eq as bs, compareOn]
    cases compare a.toNat b.toNat <;> rfl

instance : TransCmp Text.compareChars := by
  have h : Text.compareChars = List.compareLex (compareOn Char.toNat) :=
    funext fun as => funext fun bs => Text.compareChars_eq as bs
  rw [h]
  infer_instance

/-- An order of what is read off, as an order of what it is read off from. -/
theorem transCmp_comap (order : β → β → Ordering) [TransCmp order] (f : α → β) :
    TransCmp fun a b => order (f a) (f b) where
  eq_swap := OrientedCmp.eq_swap
  isLE_trans := TransCmp.isLE_trans

instance : TransCmp Text.order := transCmp_comap Text.compareChars String.toList

namespace Version

/-! ### Identifiers -/

instance : TransCmp compareDigits :=
  inferInstanceAs (TransCmp (compareLex (compareOn List.length) Text.compareChars))

instance : TransCmp compareNumerals :=
  have := transCmp_comap compareDigits (List.dropWhile (· == '0'))
  inferInstanceAs (TransCmp (compareLex (fun a b : List Char =>
    compareDigits (a.dropWhile (· == '0')) (b.dropWhile (· == '0'))) (compareOn List.length)))

section
variable (numbers : List Char → List Char → Ordering)

instance [TransCmp numbers] : TransCmp (compareIdentifiers numbers) where
  eq_swap {a b} := by
    cases ha : isNumeric a <;> cases hb : isNumeric b <;> simp only [compareIdentifiers, ha, hb]
    · exact OrientedCmp.eq_swap
    · rfl
    · rfl
    · exact OrientedCmp.eq_swap
  isLE_trans {a b c} hab hbc := by
    -- what is left are words only and numbers only
    cases ha : isNumeric a <;> cases hb : isNumeric b <;> cases hc : isNumeric c <;>
      simp [compareIdentifiers, ha, hb, hc] at hab hbc ⊢
    · exact TransCmp.isLE_trans hab hbc
    · exact TransCmp.isLE_trans hab hbc

theorem compareLists_eq : ∀ as bs : List String, compareLists numbers as bs =
    List.compareLex (fun a b => compareIdentifiers numbers a.toList b.toList) as bs
  | [], [] => rfl
  | [], _ :: _ => rfl
  | _ :: _, [] => rfl
  | a :: as, b :: bs => by
    rw [compareLists, List.compareLex, compareLists_eq as bs]
    cases compareIdentifiers numbers a.toList b.toList <;> rfl

instance [TransCmp numbers] : TransCmp (compareLists numbers) := by
  have h : compareLists numbers =
      List.compareLex fun a b => compareIdentifiers numbers a.toList b.toList :=
    funext fun as => funext fun bs => compareLists_eq numbers as bs
  have := transCmp_comap (compareIdentifiers numbers) String.toList
  rw [h]
  infer_instance

end

/-! ### Versions -/

instance : TransCmp comparePre where
  eq_swap {a b} := by
    cases a <;> cases b
    · rfl
    · rfl
    · rfl
    · simp only [comparePre]
      exact OrientedCmp.eq_swap
  isLE_trans {a b c} hab hbc := by
    cases a <;> cases b <;> cases c <;> simp [comparePre] at hab hbc ⊢
    exact TransCmp.isLE_trans hab hbc

instance : TransCmp order := by
  have := transCmp_comap comparePre Version.pre
  have := transCmp_comap (compareLists compareNumerals) Version.build
  exact inferInstanceAs (TransCmp (compareLex (compareOn Version.major) (compareLex (compareOn Version.minor)
    (compareLex (compareOn Version.patch) (compareLex (fun a b : Version => comparePre a.pre b.pre)
      fun a b : Version => compareLists compareNumerals a.build b.build)))))

/-! ### Texts that are versions -/

theorem compareTexts_swap (a b : String) : compareTexts a b = (compareTexts b a).swap := by
  unfold compareTexts
  cases parse? a <;> cases parse? b <;> dsimp only
  all_goals exact OrientedCmp.eq_swap

/-- The later one of two is at least the other. -/
theorem atLeast_total (a b : String) : atLeast a b = true ∨ atLeast b a = true := by
  unfold atLeast
  rw [compareTexts_swap a b]
  cases compareTexts b a <;> simp

theorem atLeast_refl (a : String) : atLeast a a = true :=
  (atLeast_total a a).elim id id

/-- Of two that are at least each other, neither is later. -/
theorem compareTexts_of_atLeast {a b : String} (hab : atLeast a b = true) (hba : atLeast b a = true) :
    compareTexts a b = .eq := by
  unfold atLeast at hab hba
  rw [compareTexts_swap a b] at hab ⊢
  cases h : compareTexts b a <;> simp [h] at hab hba ⊢

theorem compareTexts_self (a : String) : compareTexts a a = .eq :=
  compareTexts_of_atLeast (atLeast_refl a) (atLeast_refl a)

theorem atLeast_iff_isGE {a b : String} {v w : Version} (ha : parse? a = some v) (hb : parse? b = some w) :
    atLeast a b = true ↔ (order v w).isGE = true := by
  simp only [atLeast, compareTexts, ha, hb]
  cases order v w <;> simp

/-- Texts that are versions are compared as a total order does it. -/
theorem atLeast_trans {a b c : String} (ha : isValid a) (hb : isValid b) (hc : isValid c)
    (hab : atLeast a b = true) (hbc : atLeast b c = true) : atLeast a c = true := by
  obtain ⟨u, hu⟩ := Option.isSome_iff_exists.mp ha
  obtain ⟨v, hv⟩ := Option.isSome_iff_exists.mp hb
  obtain ⟨w, hw⟩ := Option.isSome_iff_exists.mp hc
  rw [atLeast_iff_isGE hu hv] at hab
  rw [atLeast_iff_isGE hv hw] at hbc
  rw [atLeast_iff_isGE hu hw]
  exact TransCmp.isGE_trans hab hbc

end Version
end Docblock
