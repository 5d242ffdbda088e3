/-
# Merging entries, key by key

`mergeFields` stores new entries one after the other. Read as maps, each key
of the result depends on the two values of that key alone
(`get?_mergeFields`), so what the order of the entries is does not matter,
and a key can be left out before or after the merge
(`sameMap_mergeFields_without`).

Key definitions: `Resolve.mergeOptions`, `Resolve.mergeAll`.
Key theorems: `Resolve.get?_mergeFields`, `Resolve.mem_keys_mergeFields`,
`Resolve.sameMap_mergeAll_append`.
-/
import Docblock.Proofs.Json.Fields
import Docblock.Resolve.Merge

namespace Docblock
namespace Resolve

open Fields

/-- What a merge makes of the two values of a key. -/
def mergeOptions : (old new : Option Json) → Option Json
  | old, none => old
  | none, some new => some new
  | some old, some new => some (mergeValue old new)

/-- Entries with others merged into them, one after the other; one key is left
out everywhere. -/
def mergeAll (target : String) (own : Fields) (more : List Fields) : Fields :=
  (more.map (without target)).foldl mergeFields (own.without target)

theorem mergeFields_cons (fields : Fields) (key : String) (new : Json) (rest : Fields) :
    mergeFields fields ((key, new) :: rest) =
      mergeFields (fields.set key (((fields.get? key).map (mergeValue · new)).getD new)) rest := by
  rw [mergeFields]
  cases fields.get? key <;> rfl

/-- Each key of a merge depends on the values of that key alone. -/
theorem get?_mergeFields (key : String) : ∀ (more fields : Fields), Distinct more →
    get? key (mergeFields fields more) = mergeOptions (get? key fields) (get? key more)
  | [], fields, _ => by rw [mergeFields]; rfl
  | (k, new) :: rest, fields, hd => by
    obtain ⟨hk, hrest⟩ := List.nodup_cons.mp hd
    rw [mergeFields_cons, get?_mergeFields key rest _ hrest, get?_set]
    by_cases h : key = k
    · -- the rest of the entries does not come back to this key
      subst h
      have hout : get? key rest = none := (get?_eq_none_iff key rest).mpr hk
      simp only [↓reduceIte, hout, get?, beq_self_eq_true]
      cases get? key fields <;> rfl
    · simp [h, get?, Ne.symm h]

theorem distinct_mergeFields : ∀ {more fields : Fields}, Distinct fields →
    Distinct (mergeFields fields more)
  | [], _, h => by rwa [mergeFields]
  | (k, new) :: rest, _, h => by
    rw [mergeFields_cons]
    exact distinct_mergeFields (h.set _ _)

/-- A merge has the keys of both, and no others. -/
theorem mem_keys_mergeFields (key : String) : ∀ more fields : Fields,
    key ∈ keys (mergeFields fields more) ↔ key ∈ keys fields ∨ key ∈ keys more
  | [], fields => by rw [mergeFields]; simp [keys]
  | (k, new) :: rest, fields => by
    rw [mergeFields_cons, mem_keys_mergeFields key rest, mem_keys_set]
    simp only [keys, List.map_cons, List.mem_cons]
    tauto

theorem sameMap_mergeFields {a b x y : Fields} (hx : Distinct x) (hy : Distinct y)
    (hab : SameMap a b) (hxy : SameMap x y) : SameMap (mergeFields a x) (mergeFields b y) := by
  intro key
  rw [get?_mergeFields key x a hx, get?_mergeFields key y b hy, hab key, hxy key]

/-- A key can be left out before a merge or after it. -/
theorem sameMap_mergeFields_without (target : String) {a x : Fields} (hx : Distinct x) :
    SameMap (without target (mergeFields a x)) (mergeFields (a.without target) (x.without target)) := by
  intro key
  rw [get?_without, get?_mergeFields key _ _ (hx.without target), get?_without, get?_without,
    get?_mergeFields key x a hx]
  by_cases h : key = target <;> simp [h, mergeOptions]

/-! ### Several merges -/

theorem sameMap_foldl_mergeFields : ∀ (xs : List Fields) {a b : Fields}, (∀ x ∈ xs, Distinct x) →
    SameMap a b → SameMap (xs.foldl mergeFields a) (xs.foldl mergeFields b)
  | [], _, _, _, h => h
  | x :: xs, a, b, hd, h => by
    have hx : Distinct x := hd x List.mem_cons_self
    have hstep : SameMap (mergeFields a x) (mergeFields b x) :=
      sameMap_mergeFields hx hx h fun _ => rfl
    exact sameMap_foldl_mergeFields xs (fun y hy => hd y (List.mem_cons_of_mem _ hy)) hstep

theorem distinct_map_without (target : String) {xs : List Fields} (hd : ∀ x ∈ xs, Distinct x) :
    ∀ y ∈ xs.map (without target), Distinct y := by
  intro y hy
  obtain ⟨x, hx, rfl⟩ := List.mem_map.mp hy
  exact (hd x hx).without target

theorem sameMap_foldl_without (target : String) : ∀ (xs : List Fields) (a : Fields),
    (∀ x ∈ xs, Distinct x) → SameMap (without target (xs.foldl mergeFields a))
      ((xs.map (without target)).foldl mergeFields (a.without target))
  | [], _, _ => fun _ => rfl
  | x :: xs, a, hd => by
    have hxs : ∀ y ∈ xs, Distinct y := fun y hy => hd y (List.mem_cons_of_mem _ hy)
    have hstep := sameMap_mergeFields_without target (a := a) (hd x List.mem_cons_self)
    intro key
    rw [List.foldl_cons, sameMap_foldl_without target xs _ hxs key, List.map_cons, List.foldl_cons]
    exact sameMap_foldl_mergeFields _ (distinct_map_without target hxs) hstep key

/-- Definitions that are merged before, target and all, count as the first of
those that are merged without it. -/
theorem sameMap_mergeAll_append (target : String) (own : Fields) {xs ys : List Fields}
    (hxs : ∀ x ∈ xs, Distinct x) (hys : ∀ y ∈ ys, Distinct y) :
    SameMap (mergeAll target (xs.foldl mergeFields own) ys) (mergeAll target own (xs ++ ys)) := by
  have hfirst := sameMap_foldl_without target xs own hxs
  intro key
  rw [mergeAll, sameMap_foldl_mergeFields _ (distinct_map_without target hys) hfirst key, mergeAll,
    List.map_append, List.foldl_append]

/-- Without references there is nothing to follow. -/
theorem mergeLevels_of_get?_none {c : Context} {b : Block} {target : String} {own : Fields}
    (h : own.get? target = none) (n : Nat) : mergeLevels c b target n own = (own, none) := by
  rw [mergeLevels, h]

end Resolve
end Docblock
