/-
# The order of the records

Which of two records comes first is decided by group and name, then by the
version, the latest first; exchanging two records exchanges the answer
(`order_swap`). This orders a list of records as soon as it orders the version
texts of those with one group and name (`orderedOn_of_comparable`), and texts
that are versions it always orders. The stable sort then has a result
(`sort_of_comparable`): any two records come out in order, and those that are
level stay in the order in which they came.

Other version texts may go round in a circle, and the sort of more than twenty
records may find that out, and then it has no result. If it has one, it has only
changed the order (`perm_of_sort?`).

Key definitions: `Record.isLevel`, `Record.Comparable`.
Key theorems: `Record.perm_of_sort?`, `Record.orderedOn_of_comparable`,
`Record.sort_of_comparable`, `Record.sort_in_order`.
-/
import Docblock.Proofs.Sorting.Sort
import Docblock.Proofs.Version.Mixture
import Docblock.Record.Order

namespace Docblock
namespace Record

open Std

variable {a b c : Fields} {records sorted : List Fields}

/-! ### Comparing records -/

/-- Equal version texts are level, so they need no case of their own. -/
theorem latestFirst_eq (v w : String) : latestFirst v w = Version.compareTexts w v := by
  rw [latestFirst]
  split_ifs with h
  · rw [eq_of_beq h, Version.compareTexts_self]
  · rfl

theorem order_eq (a b : Fields) : order a b = (Text.order (sortKey a) (sortKey b)).then
    (Version.compareTexts (text "version" b) (text "version" a)) := by
  rw [order, latestFirst_eq]

theorem order_swap (a b : Fields) : order a b = (order b a).swap := by
  rw [order_eq, order_eq, Ordering.swap_then, Text.order_swap, Version.compareTexts_swap]

/-- Group and name are the same, and the versions are equal. -/
def isLevel (a b : Fields) : Bool :=
  sortKey a == sortKey b && Version.compareTexts (text "version" a) (text "version" b) == .eq

/-- Records are level if neither comes before the other. -/
theorem level_eq_isLevel (a b : Fields) : Sorting.level comesBefore a b = isLevel b a := by
  have heq : Sorting.level comesBefore a b = (order a b == .eq) := by
    rw [Sorting.level, comesBefore, comesBefore, order_swap b a]
    cases order a b <;> rfl
  rw [heq, order_eq, isLevel]
  cases hkey : Text.order (sortKey a) (sortKey b) with
  | eq => simp [Text.eq_of_order hkey]
  | lt =>
    have hne : ¬ sortKey b = sortKey a := fun h => by simp [h, Text.order_self] at hkey
    simp [hne]
  | gt =>
    have hne : ¬ sortKey b = sortKey a := fun h => by simp [h, Text.order_self] at hkey
    simp [hne]

/-- What does not come before another record comes no earlier by group and
name, and if these are the same it is no later version. -/
theorem in_order_of_not_before (h : comesBefore b a = false) :
    Text.order (sortKey a) (sortKey b) ≠ .gt ∧
      (sortKey a = sortKey b → Version.atLeast (text "version" a) (text "version" b) = true) := by
  have hne : order b a ≠ .lt := by simpa [comesBefore] using h
  rw [order_eq] at hne
  constructor
  · intro hgt
    rw [Version.order_swap_lt hgt] at hne
    exact hne rfl
  · intro hkey
    rw [hkey, Text.order_self, Ordering.eq_then] at hne
    simpa [Version.atLeast] using hne

/-! ### When records are ordered -/

/-- The version texts of the records with a group and name. -/
def versionsOf (records : List Fields) (key : String) : Set String :=
  fun v => ∃ r ∈ records, sortKey r = key ∧ text "version" r = v

/-- The version texts of the records with one group and name are ordered. -/
def Comparable (records : List Fields) : Prop := ∀ key, Version.PreorderedOn (versionsOf records key)

theorem order_trans (h : Comparable records) (ha : a ∈ records) (hb : b ∈ records) (hc : c ∈ records)
    (hab : order a b ≠ .gt) (hbc : order b c ≠ .gt) : order a c ≠ .gt := by
  rw [order_eq] at hab hbc ⊢
  cases hkab : Text.order (sortKey a) (sortKey b) with
  | gt => exact absurd rfl (hkab ▸ hab)
  | lt =>
    have hkbc : Text.order (sortKey b) (sortKey c) ≠ .gt := fun hgt => hbc (by rw [hgt]; rfl)
    rw [TransCmp.lt_of_lt_of_isLE hkab (Ordering.isLE_iff_ne_gt.mpr hkbc)]
    nofun
  | eq =>
    have hkey := Text.eq_of_order hkab
    rw [hkey]
    cases hkbc : Text.order (sortKey b) (sortKey c) with
    | gt => exact absurd rfl (hkbc ▸ hbc)
    | lt => nofun
    | eq =>
      -- with one group and name, the versions decide
      rw [hkab, Ordering.eq_then] at hab
      rw [hkbc, Ordering.eq_then] at hbc
      rw [Ordering.eq_then]
      exact h (sortKey a) _ ⟨c, hc, (hkey.trans (Text.eq_of_order hkbc)).symm, rfl⟩ _ ⟨b, hb, hkey.symm, rfl⟩ _
        ⟨a, ha, rfl, rfl⟩ hbc hab

/-- Records are ordered where the version texts of one group and name are. -/
theorem orderedOn_of_comparable (h : Comparable records) : Sorting.OrderedOn comesBefore {r | r ∈ records} where
  asymm a _ b _ hab := by
    have hlt : order a b = .lt := by simpa [comesBefore] using hab
    rw [comesBefore, order_swap, hlt]
    rfl
  trans a ha b hb c hc hab hbc := by
    have hne : ∀ {x y}, comesBefore y x = false ↔ order x y ≠ .gt := fun {x y} => by
      rw [comesBefore, order_swap]
      cases order x y <;> simp
    rw [hne] at hab hbc ⊢
    exact order_trans h ha hb hc hab hbc

theorem comparable_of_versions (h : ∀ r ∈ records, Version.isValid (text "version" r)) : Comparable records := by
  rintro key _ ⟨a, ha, -, rfl⟩ _ ⟨b, hb, -, rfl⟩ _ ⟨c, hc, -, rfl⟩ hab hbc
  obtain ⟨u, hu⟩ := Option.isSome_iff_exists.mp (h a ha)
  obtain ⟨v, hv⟩ := Option.isSome_iff_exists.mp (h b hb)
  obtain ⟨w, hw⟩ := Option.isSome_iff_exists.mp (h c hc)
  exact Version.compareTexts_trans_of_versions hu hv hw hab hbc

/-! ### The sorted records -/

/-- Sorting only changes the order. -/
theorem perm_of_sort? (h : sort? records = some sorted) : sorted.Perm records := Sorting.perm_of_sort? h

/-- Up to twenty records are sorted in any case. -/
theorem exists_of_short (h : records.length ≤ Sorting.insertionLength) : ∃ sorted, sort? records = some sorted :=
  ⟨_, Sorting.sort?_of_short h⟩

/-- Comparable records come out in order, and those that are level in the order
in which they came. -/
theorem sort_of_comparable (h : Comparable records) :
    ∃ sorted, sort? records = some sorted ∧ sorted.Perm records ∧
      sorted.Pairwise (fun a b => Text.order (sortKey a) (sortKey b) ≠ .gt ∧
        (sortKey a = sortKey b → Version.atLeast (text "version" a) (text "version" b) = true)) ∧
      ∀ r ∈ records, sorted.filter (isLevel · r) = records.filter (isLevel · r) := by
  obtain ⟨sorted, hsorted, hsorts⟩ := Sorting.sort?_sorts (orderedOn_of_comparable h) fun _ hr => hr
  refine ⟨sorted, hsorted, hsorts.perm, hsorts.inOrder.imp fun hab => in_order_of_not_before hab, fun r hr => ?_⟩
  have hlevels := hsorts.levels r hr
  rwa [show Sorting.level comesBefore r = (isLevel · r) from funext (level_eq_isLevel r)] at hlevels

/-- **Sorted records are in order, and the sorting is stable.** If the version
texts of all records are versions, sorting gives the same records in another
order. Of two of them, the earlier one has no later group and name; if both are
the same, it has no lower version. Records that are level in both come in the
order in which they came before. -/
theorem sort_in_order (h : ∀ r ∈ records, Version.isValid (text "version" r)) :
    ∃ sorted, sort? records = some sorted ∧ sorted.Perm records ∧
      sorted.Pairwise (fun a b => Text.order (sortKey a) (sortKey b) ≠ .gt ∧
        (sortKey a = sortKey b → Version.atLeast (text "version" a) (text "version" b) = true)) ∧
      ∀ r ∈ records, sorted.filter (isLevel · r) = records.filter (isLevel · r) :=
  sort_of_comparable (comparable_of_versions h)

/-- A record with a title to tell it from others. -/
def titledRecord (group name version title : String) : Fields :=
  [("group", .str group), ("name", .str name), ("version", .str version), ("title", .str title)]

/-- Records of `UserGet`, whose names begin in two places, at versions with
pre-releases and build identifiers; `v1.0.0` and `1.0.0` are level. -/
def userRecords : List Fields := [
  titledRecord "User" "Get" "v1.0.0" "a", titledRecord "User" "Get" "1.0.0-rc.2" "b",
  titledRecord "Admin" "List" "0.1.0" "c", titledRecord "UserG" "et" "1.0.0+build.5" "d",
  titledRecord "User" "Get" "1.10.0" "e", titledRecord "User" "Get" "1.0.0" "f",
  titledRecord "User" "Get" "1.0.0-rc.10" "g"]

theorem sort_in_order_user :
    (∀ r ∈ userRecords, Version.isValid (text "version" r)) ∧
      ∃ sorted, sort? userRecords = some sorted ∧
        sorted.map (text "title") = ["c", "e", "d", "a", "f", "g", "b"] ∧
        sorted.Perm userRecords ∧
        sorted.filter (isLevel · (titledRecord "User" "Get" "1.0.0" "f")) =
          [titledRecord "User" "Get" "v1.0.0" "a", titledRecord "User" "Get" "1.0.0" "f"] := by
  have hvalid : ∀ r ∈ userRecords, Version.isValid (text "version" r) := by decide
  obtain ⟨sorted, hsorted, hperm, -, hstable⟩ := sort_in_order hvalid
  have htitles : (sort? userRecords).map (List.map (text "title")) = some ["c", "e", "d", "a", "f", "g", "b"] := by
    decide
  rw [hsorted, Option.map_some] at htitles
  exact ⟨hvalid, sorted, hsorted, Option.some.inj htitles, hperm, hstable _ (by simp [userRecords])⟩

end Record
end Docblock
