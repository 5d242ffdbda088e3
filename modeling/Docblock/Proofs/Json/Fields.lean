/-
# Entries as maps

The entries of an object are a list, and `Fields.get?` reads it as a map. If
each key has one entry (`Fields.Distinct`), the order of the entries does not
matter to the reader (`get?_perm`), removing a key leaves the others as they
are (`get?_swapErase`), and storing a value changes one key (`get?_set`).

Key definitions: `Fields.Distinct`, `Fields.without`, `Fields.Rewritten`,
`Fields.SameMap`.
Key theorems: `Fields.get?_set`, `Fields.swapErase_perm`,
`Fields.get?_swapErase`, `Fields.get?_without`.
-/
import Docblock.Json.Basic
import Mathlib.Data.List.Nodup
import Mathlib.Data.List.Perm.Basic

namespace Docblock
namespace Fields

/-- Each key has one entry. -/
def Distinct (fields : Fields) : Prop := (keys fields).Nodup

instance (fields : Fields) : Decidable (Distinct fields) := inferInstanceAs (Decidable (keys fields).Nodup)

/-- The entries of all keys but one, in order. -/
def without (key : String) (fields : Fields) : Fields :=
  fields.filter fun entry => entry.1 != key

/-- A key that is there may have a new value; nothing else has changed. -/
def Rewritten (key : String) (old new : Fields) : Prop :=
  new = old ∨ ∃ v, key ∈ keys old ∧ new = old.set key v

/-- Both give each key the same value. -/
def SameMap (a b : Fields) : Prop := ∀ key, get? key a = get? key b

/-! ### Reading -/

theorem get?_eq_none_iff (key : String) : ∀ fields : Fields, get? key fields = none ↔ key ∉ keys fields
  | [] => by simp [get?, keys]
  | (k, v) :: rest => by
    have ih := get?_eq_none_iff key rest
    by_cases h : k = key
    · simp [get?, keys, h]
    · simp only [keys] at ih
      simp [get?, keys, h, ih, Ne.symm h]

theorem mem_keys_iff (key : String) (fields : Fields) : key ∈ keys fields ↔ (get? key fields).isSome := by
  rw [Option.isSome_iff_ne_none, ne_eq, get?_eq_none_iff, not_not]

theorem mem_keys_of_get? {key : String} {v : Json} {fields : Fields} (h : get? key fields = some v) :
    key ∈ keys fields := by
  rw [mem_keys_iff, h]
  rfl

theorem ne_nil_of_mem_keys {key : String} {fields : Fields} (h : key ∈ keys fields) : fields ≠ [] := by
  rintro rfl
  cases h

/-- With one entry a key, the entry is what the key reads. -/
theorem get?_eq_some_iff {key : String} {v : Json} :
    ∀ {fields : Fields}, Distinct fields → (get? key fields = some v ↔ (key, v) ∈ fields)
  | [], _ => by simp [get?]
  | (k, w) :: rest, hd => by
    obtain ⟨hk, hrest⟩ := List.nodup_cons.mp hd
    have ih : get? key rest = some v ↔ (key, v) ∈ rest := get?_eq_some_iff hrest
    by_cases h : k = key
    · subst h
      have hout : (k, v) ∉ rest := fun hm => hk (List.mem_map.mpr ⟨_, hm, rfl⟩)
      simp [get?, hout, eq_comm]
    · simp [get?, h, ih, Ne.symm h]

theorem Distinct.perm {a b : Fields} (h : a.Perm b) (hd : Distinct a) : Distinct b :=
  (h.map Prod.fst).nodup hd

/-- The order of the entries does not matter to the reader. -/
theorem get?_perm {a b : Fields} (h : a.Perm b) (hd : Distinct a) : SameMap a b := by
  intro key
  refine Option.ext fun v => ?_
  rw [get?_eq_some_iff hd, get?_eq_some_iff (hd.perm h), h.mem_iff]

/-- A list without repetitions gets longer only by what is new. -/
theorem eraseDups_concat (names : List String) (name : String) :
    (names ++ [name]).eraseDups = names.eraseDups ++ if name ∈ names then [] else [name] := by
  rw [List.eraseDups_append]
  by_cases h : name ∈ names <;> simp [List.removeAll, List.eraseDups_cons, h]

/-! ### Storing -/

theorem get?_set (key other : String) (value : Json) (fields : Fields) :
    get? other (set key value fields) = if other = key then some value else get? other fields := by
  by_cases h : other = key
  · rw [if_pos h, h, get?_set_self]
  · rw [if_neg h, get?_set_of_ne value h]

theorem mem_keys_set (key other : String) (value : Json) (fields : Fields) :
    other ∈ keys (set key value fields) ↔ other = key ∨ other ∈ keys fields := by
  rw [mem_keys_iff, mem_keys_iff, get?_set]
  by_cases h : other = key <;> simp [h]

theorem mem_keys_set? (key other : String) (value : Option Json) (fields : Fields) :
    other ∈ keys (set? key value fields) ↔ (other = key ∧ value.isSome) ∨ other ∈ keys fields := by
  cases value with
  | none => simp [set?]
  | some v => simp [set?, mem_keys_set]

theorem set_ne_nil (key : String) (value : Json) (fields : Fields) : set key value fields ≠ [] := by
  intro h
  have := get?_set_self key value fields
  rw [h] at this
  simp [get?] at this

theorem get?_setAll_of_not_mem {key : String} : ∀ {new fields : Fields}, key ∉ keys new →
    (fields.setAll new).get? key = fields.get? key
  | [], _, _ => rfl
  | (k, v) :: new, fields, h => by
    simp only [keys, List.map_cons, List.mem_cons, not_or] at h
    have ih : ((fields.set k v).setAll new).get? key = (fields.set k v).get? key := get?_setAll_of_not_mem h.2
    exact ih.trans (get?_set_of_ne v h.1 fields)

/-- Storing what is there already changes nothing. -/
theorem set_of_get? {key : String} {v : Json} : ∀ {fields : Fields}, get? key fields = some v →
    set key v fields = fields
  | [], h => by simp [get?] at h
  | (k, w) :: rest, h => by
    by_cases hk : k = key
    · simp only [get?, hk, beq_self_eq_true, ↓reduceIte, Option.some.injEq] at h
      simp [set, hk, h]
    · simp only [get?, beq_iff_eq, hk, ↓reduceIte] at h
      simp [set, hk, set_of_get? h]

/-- A new key is stored behind all entries in front. -/
theorem set_append_of_not_mem {key : String} (v : Json) : ∀ {front : Fields} (rest : Fields),
    key ∉ keys front → set key v (front ++ rest) = front ++ set key v rest
  | [], _, _ => rfl
  | (k, w) :: front, rest, h => by
    simp only [keys, List.map_cons, List.mem_cons, not_or] at h
    simp [set, Ne.symm h.1, set_append_of_not_mem v rest h.2]

theorem get?_append_of_not_mem {key : String} : ∀ {front : Fields} (rest : Fields),
    key ∉ keys front → get? key (front ++ rest) = get? key rest
  | [], _, _ => rfl
  | (k, w) :: front, rest, h => by
    simp only [keys, List.map_cons, List.mem_cons, not_or] at h
    simp [get?, Ne.symm h.1, get?_append_of_not_mem rest h.2]

/-- Entries that are made of keys are read by their keys. -/
theorem get?_map_pair (value : String → Json) (key : String) : ∀ names : List String,
    get? key (names.map fun name => (name, value name)) = if key ∈ names then some (value key) else none
  | [] => rfl
  | name :: names => by
    have ih := get?_map_pair value key names
    by_cases h : name = key
    · simp [get?, h]
    · simp [get?, h, Ne.symm h, ih]

/-- Storing under a key that is there changes its value only. -/
theorem set_map_pair (value : String → Json) {key : String} (v : Json) : ∀ {names : List String}, names.Nodup →
    key ∈ names → set key v (names.map fun name => (name, value name)) =
      names.map fun name => (name, if name = key then v else value name)
  | [], _, h => absurd h List.not_mem_nil
  | name :: names, hd, h => by
    obtain ⟨hname, hrest⟩ := List.nodup_cons.mp hd
    by_cases hkey : name = key
    · subst hkey
      have hsame : ∀ other ∈ names, (other, value other) = (other, if other = name then v else value other) := by
        intro other hother
        have hne : other ≠ name := fun heq => hname (heq ▸ hother)
        rw [if_neg hne]
      simp [set, List.map_congr_left hsame]
    · have hmem : key ∈ names := (List.mem_cons.mp h).resolve_left (Ne.symm hkey)
      simp [set, hkey, set_map_pair value v hrest hmem]

/-- With one entry a key, the new entries count before the old ones. -/
theorem get?_setAll (key : String) : ∀ {new : Fields} (fields : Fields), Distinct new →
    (fields.setAll new).get? key = (new.get? key).or (fields.get? key)
  | [], _, _ => rfl
  | (k, v) :: new, fields, hd => by
    obtain ⟨hk, hnew⟩ := List.nodup_cons.mp hd
    have ih : get? key ((fields.set k v).setAll new) = (get? key new).or (get? key (fields.set k v)) :=
      get?_setAll key (fields.set k v) hnew
    refine ih.trans ?_
    by_cases h : k = key
    · subst h
      have hnone : get? k new = none := (get?_eq_none_iff k new).mpr hk
      simp [hnone, get?, get?_set_self]
    · simp [get?, h, get?_set_of_ne v (Ne.symm h)]

/-- Entries with new keys come behind the old ones. -/
theorem setAll_eq_append : ∀ {new fields : Fields}, Distinct new → (∀ key ∈ keys new, key ∉ keys fields) →
    fields.setAll new = fields ++ new
  | [], fields, _, _ => (List.append_nil fields).symm
  | (k, v) :: new, fields, hd, hout => by
    obtain ⟨hk, hnew⟩ := List.nodup_cons.mp hd
    have hset : fields.set k v = fields ++ [(k, v)] := by
      have hnew := set_append_of_not_mem v [] (hout k (by simp [keys]))
      rwa [List.append_nil] at hnew
    have hrest : ∀ key ∈ keys new, key ∉ keys (fields ++ [(k, v)]) := by
      intro key hkey hmem
      rw [keys, List.map_append, List.mem_append] at hmem
      rcases hmem with hmem | hmem
      · exact hout key (List.mem_cons_of_mem _ hkey) hmem
      · obtain rfl : key = k := by simpa using hmem
        exact hk hkey
    have ih : (fields ++ [(k, v)]).setAll new = fields ++ [(k, v)] ++ new := setAll_eq_append hnew hrest
    calc fields.setAll ((k, v) :: new) = (fields.set k v).setAll new := rfl
      _ = fields ++ (k, v) :: new := by rw [hset, ih, List.append_assoc, List.singleton_append]

theorem Distinct.set {fields : Fields} (key : String) (value : Json) (hd : Distinct fields) :
    Distinct (fields.set key value) := by
  induction fields with
  | nil => simp [Fields.set, Distinct, keys]
  | cons entry rest ih =>
    obtain ⟨k, v⟩ := entry
    obtain ⟨hk, hrest⟩ := List.nodup_cons.mp hd
    by_cases h : k = key
    · simp only [Fields.set, h, beq_self_eq_true, ↓reduceIte]
      exact List.nodup_cons.mpr ⟨h ▸ hk, hrest⟩
    · simp only [Fields.set, beq_iff_eq, h, ↓reduceIte]
      refine List.nodup_cons.mpr ⟨fun hm => ?_, ih hrest⟩
      rcases (mem_keys_set key k value rest).mp hm with hm | hm
      · exact h hm
      · exact hk hm

theorem Distinct.setAll : ∀ {new fields : Fields}, Distinct fields → Distinct (fields.setAll new)
  | [], _, hd => hd
  | (k, v) :: new, fields, hd => by
    change Distinct ((fields.set k v).setAll new)
    exact (hd.set k v).setAll

/-- Writing a key that is there changes no keys. -/
theorem Rewritten.mem_keys_iff {key other : String} {old new : Fields} (h : Rewritten key old new) :
    other ∈ keys new ↔ other ∈ keys old := by
  rcases h with rfl | ⟨v, hmem, rfl⟩
  · rfl
  · rw [mem_keys_set]
    exact ⟨fun h => h.elim (· ▸ hmem) id, .inr⟩

theorem Rewritten.isEmpty_eq {key : String} {old new : Fields} (h : Rewritten key old new) :
    new.isEmpty = old.isEmpty := by
  rcases h with rfl | ⟨v, hmem, rfl⟩
  · rfl
  · rw [List.isEmpty_eq_false_iff.mpr (set_ne_nil key v old),
      List.isEmpty_eq_false_iff.mpr (ne_nil_of_mem_keys hmem)]

/-! ### Removing -/

theorem swapErase_of_get?_none {key : String} :
    ∀ {fields : Fields}, get? key fields = none → swapErase key fields = fields
  | [], _ => rfl
  | (k, v) :: rest, h => by
    by_cases hk : k = key
    · simp [get?, hk] at h
    · simp only [get?, beq_iff_eq, hk, ↓reduceIte] at h
      simp [swapErase, hk, swapErase_of_get?_none h]

/-- Removing a key takes away its first entry; the others change places. -/
theorem swapErase_perm {key : String} {v : Json} :
    ∀ {fields : Fields}, get? key fields = some v → fields.Perm ((key, v) :: swapErase key fields)
  | [], h => by simp [get?] at h
  | (k, w) :: rest, h => by
    by_cases hk : k = key
    · simp only [get?, hk, beq_self_eq_true, ↓reduceIte, Option.some.injEq] at h
      subst hk h
      simp only [swapErase, beq_self_eq_true, ↓reduceIte]
      refine List.Perm.cons _ ?_
      rcases List.eq_nil_or_concat rest with rfl | ⟨front, last, rfl⟩
      · simp
      · simp [List.perm_append_singleton]
    · simp only [get?, beq_iff_eq, hk, ↓reduceIte] at h
      simp only [swapErase, beq_iff_eq, hk, ↓reduceIte]
      exact ((swapErase_perm h).cons _).trans (.swap _ _ _)

theorem mem_keys_swapErase {key other : String} (hne : other ≠ key) (fields : Fields) :
    other ∈ keys (swapErase key fields) ↔ other ∈ keys fields := by
  cases h : get? key fields with
  | none => rw [swapErase_of_get?_none h]
  | some v =>
    have := (swapErase_perm h).map Prod.fst
    simp only [keys, this.mem_iff, List.map_cons, List.mem_cons, hne, false_or]

theorem mem_keys_of_swapErase {key other : String} {fields : Fields}
    (h : other ∈ keys (swapErase key fields)) : other ∈ keys fields := by
  cases hv : get? key fields with
  | none => rwa [swapErase_of_get?_none hv] at h
  | some v =>
    have hperm := (swapErase_perm hv).map Prod.fst
    exact hperm.mem_iff.mpr (List.mem_cons_of_mem _ h)

theorem Distinct.swapErase {fields : Fields} (key : String) (hd : Distinct fields) :
    Distinct (fields.swapErase key) := by
  cases h : get? key fields with
  | none => rwa [swapErase_of_get?_none h]
  | some v => exact (List.nodup_cons.mp (hd.perm (swapErase_perm h))).2

theorem get?_swapErase_self (key : String) {fields : Fields} (hd : Distinct fields) :
    get? key (swapErase key fields) = none := by
  cases h : get? key fields with
  | none => rw [swapErase_of_get?_none h, h]
  | some v =>
    rw [get?_eq_none_iff]
    exact (List.nodup_cons.mp (hd.perm (swapErase_perm h))).1

/-- Removing a key leaves the other keys as they are. -/
theorem get?_swapErase (key other : String) {fields : Fields} (hd : Distinct fields) :
    get? other (swapErase key fields) = if other = key then none else get? other fields := by
  by_cases hne : other = key
  · rw [if_pos hne, hne, get?_swapErase_self key hd]
  · rw [if_neg hne]
    cases h : get? key fields with
    | none => rw [swapErase_of_get?_none h]
    | some v =>
      rw [get?_perm (swapErase_perm h) hd other]
      simp [get?, Ne.symm hne]

/-! ### Leaving a key out -/

theorem get?_without (key other : String) : ∀ fields : Fields,
    get? other (without key fields) = if other = key then none else get? other fields
  | [] => by simp [without, get?]
  | (k, v) :: rest => by
    have ih := get?_without key other rest
    simp only [without] at ih
    by_cases h : k = key
    · subst h
      simp only [without, List.filter_cons, bne_self_eq_false, Bool.false_eq_true, ↓reduceIte, ih]
      by_cases ho : other = k
      · simp [ho]
      · simp [get?, ho, Ne.symm ho]
    · by_cases ho : k = other
      · subst ho
        simp [without, get?, h]
      · simp [without, get?, h, ho, ih]

theorem Distinct.without {fields : Fields} (key : String) (hd : Distinct fields) :
    Distinct (fields.without key) :=
  hd.sublist (List.filter_sublist.map _)

end Fields
end Docblock
