/-
# References are followed level by level

The names to which a block refers are its first level; the names to which
the definitions of one level refer are the next (`levelFrom`). Following the
references of a block merges the definitions of its levels in this order,
and succeeds exactly if the first ten levels can be resolved and the
eleventh is empty (`mergeReferences_level_order`). A name that leads back to
itself has no last level (`levelFrom_ne_nil_of_cycle`), so it is refused.

The statements are about blocks and definitions that list their references:
the key, if it is there, holds an array with at least one element
(`ListsReferences`). An empty array would use up a level of its own.

Key definitions: `Resolve.Context.resolve?`, `Resolve.levelFrom`,
`Resolve.ownOfLevels`, `Resolve.Refers`.
Key theorems: `Resolve.mergeLevels_eq_none_iff`,
`Resolve.sameMap_mergeLevels`, `Resolve.levelFrom_ne_nil_of_cycle`,
`Resolve.mergeReferences_level_order`.
-/
import Docblock.Proofs.Resolve.Merge
import Docblock.Proofs.Resolve.Table
import Mathlib.Logic.Relation

namespace Docblock
namespace Resolve

open Fields

/-- The definition that a name means for a block, if it means one. -/
def Context.resolve? (c : Context) (b : Block) (name : String) : Option Definition :=
  match c.find b name with
  | .ok d => d
  | .error _ => none

/-- The names to which entries refer under a key. -/
def namesUnder (target : String) (own : Fields) : List String :=
  ((own.get? target).map referenceNames).getD []

/-- The names to which the definitions of these names refer. -/
def nextNames (c : Context) (b : Block) (target : String) (names : List String) : List String :=
  names.flatMap fun name => ((c.resolve? b name).map fun d => namesUnder target d.own).getD []

/-- The names that are some steps away from those at the start. -/
def levelFrom (c : Context) (b : Block) (target : String) (start : List String) : Nat → List String
  | 0 => start
  | i + 1 => nextNames c b target (levelFrom c b target start i)

/-- What the definitions of these names document. -/
def ownOf (c : Context) (b : Block) (names : List String) : List Fields :=
  names.filterMap fun name => (c.resolve? b name).map Definition.own

/-- What the definitions of the first levels document, level by level. -/
def ownOfLevels (c : Context) (b : Block) (target : String) (start : List String) (n : Nat) :
    List Fields :=
  ownOf c b ((List.range n).flatMap (levelFrom c b target start))

/-- An array with at least one element. -/
def isFilledArray : Json → Bool
  | .arr (_ :: _) => true
  | _ => false

/-- Each key has one entry, and the one of the target, if there is one, is an
array with at least one element. -/
def ListsReferences (target : String) (own : Fields) : Prop :=
  Distinct own ∧ ∀ v ∈ own.get? target, isFilledArray v

instance (target : String) (own : Fields) : Decidable (ListsReferences target own) :=
  inferInstanceAs (Decidable (_ ∧ ∀ v ∈ own.get? target, isFilledArray v))

/-- Every definition of the table lists its references. -/
def TableLists (target : String) (c : Context) : Prop :=
  ∀ entry ∈ c.definitions.byName, ∀ d ∈ entry.2, ListsReferences target d.own

instance (target : String) (c : Context) : Decidable (TableLists target c) :=
  inferInstanceAs (Decidable (∀ entry ∈ c.definitions.byName, ∀ d ∈ entry.2,
    ListsReferences target d.own))

/-- The definition of the first name refers to the second one. -/
def Refers (c : Context) (b : Block) (target : String) (name other : String) : Prop :=
  ∃ d, c.resolve? b name = some d ∧ other ∈ namesUnder target d.own

variable {c : Context} {b : Block} {target : String}

theorem resolve?_eq_some_iff {name : String} {d : Definition} :
    c.resolve? b name = some d ↔ c.find b name = .ok (some d) := by
  unfold Context.resolve?
  cases c.find b name <;> simp

/-! ### Levels -/

theorem levelFrom_succ (start : List String) : ∀ i : Nat,
    levelFrom c b target start (i + 1) = levelFrom c b target (nextNames c b target start) i
  | 0 => rfl
  | i + 1 => by rw [levelFrom, levelFrom_succ start i, levelFrom]

theorem levelFrom_nil : ∀ i : Nat, levelFrom c b target [] i = []
  | 0 => rfl
  | i + 1 => by rw [levelFrom, levelFrom_nil i]; rfl

theorem mem_nextNames {names : List String} {other : String} :
    other ∈ nextNames c b target names ↔ ∃ name ∈ names, Refers c b target name other := by
  simp only [nextNames, List.mem_flatMap, Refers]
  refine exists_congr fun name => and_congr_right fun _ => ?_
  cases c.resolve? b name <;> simp

theorem ownOfLevels_succ (start : List String) (n : Nat) :
    ownOfLevels c b target start (n + 1) =
      ownOf c b start ++ ownOfLevels c b target (nextNames c b target start) n := by
  simp only [ownOfLevels, ownOf, List.range_succ_eq_map, List.flatMap_cons, List.filterMap_append,
    List.flatMap_map, levelFrom_succ]
  rfl

theorem ownOfLevels_nil : ∀ n : Nat, ownOfLevels c b target [] n = []
  | 0 => rfl
  | n + 1 => by rw [ownOfLevels_succ]; exact ownOfLevels_nil n

/-- A name that leads to itself has a name of every level before it. -/
theorem levelFrom_ne_nil_of_cycle {start : List String} {name other : String}
    (hname : name ∈ start) (hreach : Relation.ReflTransGen (Refers c b target) name other)
    (hcycle : Relation.TransGen (Refers c b target) other other) (i : Nat) :
    levelFrom c b target start i ≠ [] := by
  have hstep : ∀ i, ∃ n ∈ levelFrom c b target start i,
      Relation.ReflTransGen (Refers c b target) n other := by
    intro i
    induction i with
    | zero => exact ⟨name, hname, hreach⟩
    | succ i ih =>
      obtain ⟨n, hn, hr⟩ := ih
      -- a name that has arrived goes once more round the cycle
      have hmore : Relation.TransGen (Refers c b target) n other := by
        rcases Relation.reflTransGen_iff_eq_or_transGen.mp hr with rfl | hr
        · exact hcycle
        · exact hr
      obtain ⟨m, hnm, hm⟩ := Relation.TransGen.head'_iff.mp hmore
      exact ⟨m, mem_nextNames.mpr ⟨n, hn, hnm⟩, hm⟩
  obtain ⟨n, hn, -⟩ := hstep i
  exact List.ne_nil_of_mem hn

/-! ### Entries that list references -/

theorem ListsReferences.eq_arr {own : Fields} {v : Json} (h : ListsReferences target own)
    (hv : own.get? target = some v) : ∃ r rs, v = .arr (r :: rs) := by
  have hfilled := h.2 v hv
  unfold isFilledArray at hfilled
  split at hfilled
  · exact ⟨_, _, rfl⟩
  · cases hfilled

theorem namesUnder_eq_nil_iff {own : Fields} (h : ListsReferences target own) :
    namesUnder target own = [] ↔ own.get? target = none := by
  cases hv : own.get? target with
  | none => simp [namesUnder, hv]
  | some v =>
    obtain ⟨r, rs, rfl⟩ := h.eq_arr hv
    simp [namesUnder, hv, referenceNames, Json.arr?]

/-- A merge continues the list of references. -/
theorem namesUnder_mergeFields {a x : Fields} (ha : ListsReferences target a)
    (hx : ListsReferences target x) :
    namesUnder target (mergeFields a x) = namesUnder target a ++ namesUnder target x := by
  rw [namesUnder, get?_mergeFields target x a hx.1]
  cases hva : a.get? target with
  | none => cases hvx : x.get? target <;> simp [namesUnder, hva, hvx, mergeOptions]
  | some v =>
    obtain ⟨r, rs, rfl⟩ := ha.eq_arr hva
    cases hvx : x.get? target with
    | none => simp [namesUnder, hva, hvx, mergeOptions]
    | some w =>
      obtain ⟨s, ss, rfl⟩ := hx.eq_arr hvx
      simp [namesUnder, hva, hvx, mergeOptions, mergeValue, referenceNames, Json.arr?]

theorem ListsReferences.mergeFields {a x : Fields} (ha : ListsReferences target a)
    (hx : ListsReferences target x) : ListsReferences target (Resolve.mergeFields a x) := by
  refine ⟨distinct_mergeFields ha.1, fun v hv => ?_⟩
  rw [Option.mem_def, get?_mergeFields target x a hx.1] at hv
  cases hva : a.get? target with
  | none =>
    rw [hva] at hv
    cases hvx : x.get? target with
    | none => simp [hvx, mergeOptions] at hv
    | some w => exact hx.2 v (by simpa [hvx, mergeOptions] using hv)
  | some u =>
    obtain ⟨r, rs, rfl⟩ := ha.eq_arr hva
    rw [hva] at hv
    cases hvx : x.get? target with
    | none =>
      simp only [hvx, mergeOptions, Option.some.injEq] at hv
      rw [← hv]
      rfl
    | some w =>
      obtain ⟨s, ss, rfl⟩ := hx.eq_arr hvx
      simp only [hvx, mergeOptions, mergeValue, Option.some.injEq] at hv
      rw [← hv]
      rfl

theorem listsReferences_swapErase {own : Fields} (h : ListsReferences target own) :
    ListsReferences target (own.swapErase target) ∧ namesUnder target (own.swapErase target) = [] := by
  have hnone := get?_swapErase_self target h.1
  exact ⟨⟨h.1.swapErase target, fun v hv => by simp [hnone] at hv⟩, by simp [namesUnder, hnone]⟩

/-! ### One level -/

theorem TableLists.ownOf (hc : TableLists target c) (names : List String) :
    ∀ x ∈ ownOf c b names, ListsReferences target x := by
  intro x hx
  obtain ⟨name, -, hx⟩ := List.mem_filterMap.mp hx
  obtain ⟨d, hd, rfl⟩ := Option.map_eq_some_iff.mp hx
  obtain ⟨versions, hversions, hmem⟩ := Context.has_of_find (resolve?_eq_some_iff.mp hd)
  exact hc _ hversions d hmem

/-- A level is merged if all its names can be resolved. -/
theorem mergeLevel_of_resolve : ∀ (names : List String) (own : Fields),
    (∀ name ∈ names, (c.resolve? b name).isSome) →
    mergeLevel c b own names = ((ownOf c b names).foldl mergeFields own, none)
  | [], _, _ => rfl
  | name :: names, own, h => by
    obtain ⟨d, hd⟩ := Option.isSome_iff_exists.mp (h name List.mem_cons_self)
    have hrest : ∀ n ∈ names, (c.resolve? b n).isSome := fun n hn => h n (List.mem_cons_of_mem _ hn)
    have hown : ownOf c b (name :: names) = d.own :: ownOf c b names := by simp [ownOf, hd]
    rw [mergeLevel, resolve?_eq_some_iff.mp hd, hown, List.foldl_cons]
    exact mergeLevel_of_resolve names _ hrest

/-- A level that is merged has no name that cannot be resolved. -/
theorem resolve_of_mergeLevel : ∀ (names : List String) (own : Fields),
    (mergeLevel c b own names).2 = none → ∀ name ∈ names, (c.resolve? b name).isSome
  | [], _, _ => by simp
  | name :: names, own, h => by
    rw [mergeLevel] at h
    cases hfind : c.find b name with
    | error cause => simp [hfind] at h
    | ok found =>
      cases found with
      | none => simp [hfind] at h
      | some d =>
        simp only [hfind] at h
        intro n hn
        rcases List.mem_cons.mp hn with rfl | hn
        · simp [Context.resolve?, hfind]
        · exact resolve_of_mergeLevel names _ h n hn

/-- What a level leaves under the target is the next level. -/
theorem namesUnder_foldl_mergeFields : ∀ (xs : List Fields) {own : Fields}, ListsReferences target own →
    (∀ x ∈ xs, ListsReferences target x) → ListsReferences target (xs.foldl mergeFields own) ∧
      namesUnder target (xs.foldl mergeFields own) =
        namesUnder target own ++ xs.flatMap (namesUnder target)
  | [], own, ho, _ => ⟨ho, by simp⟩
  | x :: xs, own, ho, hx => by
    have hx1 := hx x List.mem_cons_self
    obtain ⟨h1, h2⟩ := namesUnder_foldl_mergeFields xs (ho.mergeFields hx1)
      fun y hy => hx y (List.mem_cons_of_mem _ hy)
    refine ⟨h1, ?_⟩
    rw [List.foldl_cons, h2, namesUnder_mergeFields ho hx1, List.flatMap_cons, List.append_assoc]

theorem flatMap_ownOf (names : List String) :
    (ownOf c b names).flatMap (namesUnder target) = nextNames c b target names := by
  induction names with
  | nil => rfl
  | cons name names ih =>
    rw [nextNames, List.flatMap_cons, ← nextNames, ← ih]
    cases h : c.resolve? b name <;> simp [ownOf, h]

/-- Entries after one level of their references has been merged. -/
def afterLevel (c : Context) (b : Block) (target : String) (own : Fields) : Fields :=
  (ownOf c b (namesUnder target own)).foldl mergeFields (own.swapErase target)

theorem namesUnder_afterLevel (hc : TableLists target c) {own : Fields} (ho : ListsReferences target own) :
    ListsReferences target (afterLevel c b target own) ∧
      namesUnder target (afterLevel c b target own) = nextNames c b target (namesUnder target own) := by
  obtain ⟨he, hnil⟩ := listsReferences_swapErase ho
  obtain ⟨h1, h2⟩ := namesUnder_foldl_mergeFields _ he (hc.ownOf (b := b) (namesUnder target own))
  refine ⟨h1, ?_⟩
  rw [afterLevel, h2, hnil, flatMap_ownOf, List.nil_append]

theorem sameMap_mergeAll_swapErase (target : String) {own : Fields} (ho : Distinct own) {xs : List Fields}
    (hx : ∀ x ∈ xs, Distinct x) :
    SameMap (mergeAll target (own.swapErase target) xs) (mergeAll target own xs) := by
  refine sameMap_foldl_mergeFields _ (distinct_map_without target hx) fun key => ?_
  rw [get?_without, get?_without, get?_swapErase target key ho]
  by_cases h : key = target <;> simp [h]

/-! ### All levels -/

theorem mergeLevels_zero {own : Fields} {v : Json} (h : own.get? target = some v) :
    (mergeLevels c b target 0 own).2 ≠ none := by
  simp [mergeLevels, h]

theorem namesUnder_of_get? {own : Fields} {v : Json} (h : own.get? target = some v) :
    namesUnder target own = referenceNames v := by
  simp [namesUnder, h]

/-- A round of the loop: one level fewer to go, from where this one ends. -/
theorem mergeLevels_succ {own : Fields} {v : Json} (h : own.get? target = some v) (n : Nat)
    (hres : ∀ name ∈ namesUnder target own, (c.resolve? b name).isSome) :
    mergeLevels c b target (n + 1) own = mergeLevels c b target n (afterLevel c b target own) := by
  rw [mergeLevels, h]
  simp only [← namesUnder_of_get? h, mergeLevel_of_resolve _ _ hres, afterLevel]

theorem resolve_of_mergeLevels {own : Fields} {v : Json} (h : own.get? target = some v) {n : Nat}
    (hok : (mergeLevels c b target (n + 1) own).2 = none) :
    ∀ name ∈ namesUnder target own, (c.resolve? b name).isSome := by
  rw [mergeLevels, h] at hok
  simp only [← namesUnder_of_get? h] at hok
  refine resolve_of_mergeLevel _ (own.swapErase target) ?_
  split at hok
  · cases hok
  · rename_i hlevel
    rw [hlevel]

/-- The loop with `n` levels left succeeds exactly if these levels can be
resolved and none comes after them. -/
theorem mergeLevels_eq_none_iff (hc : TableLists target c) : ∀ (n : Nat) {own : Fields},
    ListsReferences target own → ((mergeLevels c b target n own).2 = none ↔
      (∀ i < n, ∀ name ∈ levelFrom c b target (namesUnder target own) i, (c.resolve? b name).isSome) ∧
        levelFrom c b target (namesUnder target own) n = []) := by
  intro n
  induction n with
  | zero =>
    intro own ho
    cases hv : own.get? target with
    | none => simp [mergeLevels_of_get?_none hv, levelFrom, (namesUnder_eq_nil_iff ho).mpr hv]
    | some v =>
      have hne : namesUnder target own ≠ [] := fun h => by simp [(namesUnder_eq_nil_iff ho).mp h] at hv
      simp [mergeLevels_zero hv, levelFrom, hne]
  | succ n ih =>
    intro own ho
    cases hv : own.get? target with
    | none =>
      simp [mergeLevels_of_get?_none hv, (namesUnder_eq_nil_iff ho).mpr hv, levelFrom_nil]
    | some v =>
      obtain ⟨hafter, hnext⟩ := namesUnder_afterLevel (b := b) hc ho
      have hrest := ih hafter
      rw [hnext] at hrest
      constructor
      · intro hok
        have hres := resolve_of_mergeLevels hv hok
        rw [mergeLevels_succ hv n hres] at hok
        obtain ⟨h1, h2⟩ := hrest.mp hok
        refine ⟨fun i hi => ?_, by rw [levelFrom_succ]; exact h2⟩
        cases i with
        | zero => exact hres
        | succ i => rw [levelFrom_succ]; exact h1 i (by omega)
      · rintro ⟨hall, hlast⟩
        rw [mergeLevels_succ hv n (hall 0 (by omega))]
        refine hrest.mpr ⟨fun i hi => ?_, by rw [← levelFrom_succ]; exact hlast⟩
        rw [← levelFrom_succ]
        exact hall (i + 1) (by omega)

theorem sameMap_without_of_get?_none {own : Fields} (h : own.get? target = none) :
    SameMap own (own.without target) := by
  intro key
  rw [get?_without]
  by_cases hk : key = target <;> simp [hk, h]

/-- A loop that succeeds has merged what its levels document, in order. -/
theorem sameMap_mergeLevels (hc : TableLists target c) : ∀ (n : Nat) {own : Fields},
    ListsReferences target own → (mergeLevels c b target n own).2 = none →
      SameMap (mergeLevels c b target n own).1
        (mergeAll target own (ownOfLevels c b target (namesUnder target own) n)) := by
  intro n
  induction n with
  | zero =>
    intro own ho hok
    cases hv : own.get? target with
    | none =>
      rw [mergeLevels_of_get?_none hv]
      exact sameMap_without_of_get?_none hv
    | some v => exact absurd hok (mergeLevels_zero hv)
  | succ n ih =>
    intro own ho hok
    cases hv : own.get? target with
    | none =>
      rw [mergeLevels_of_get?_none hv, (namesUnder_eq_nil_iff ho).mpr hv, ownOfLevels_nil]
      exact sameMap_without_of_get?_none hv
    | some v =>
      obtain ⟨hafter, hnext⟩ := namesUnder_afterLevel (b := b) hc ho
      have hres := resolve_of_mergeLevels hv hok
      rw [mergeLevels_succ hv n hres] at hok ⊢
      have hrest := ih hafter hok
      rw [hnext] at hrest
      have hd : ∀ names, ∀ x ∈ ownOf c b names, Distinct x := fun names x hx => (hc.ownOf names x hx).1
      have hlater : ∀ x ∈ ownOfLevels c b target (nextNames c b target (namesUnder target own)) n,
          Distinct x := hd _
      have hall := List.forall_mem_append.mpr ⟨hd (namesUnder target own), hlater⟩
      intro key
      rw [hrest key, afterLevel, sameMap_mergeAll_append target _ (hd _) hlater key, ownOfLevels_succ]
      exact sameMap_mergeAll_swapErase target ho.1 hall key

/-- **References are followed level by level, ten levels deep.** Where blocks
and definitions list their references, the references of a block can be
followed exactly if every name of its first ten levels can be resolved and
the eleventh level is empty. What the block has then is, key by key, what it
had, with the definitions of its levels merged into it in order, the target
left out everywhere. A block from which a name that leads back to itself can
be reached is refused. -/
theorem mergeReferences_level_order (c : Context) (b : Block) (target : String)
    (hb : ListsReferences target b.own) (hc : TableLists target c) :
    ((mergeReferences c target b).2 = none ↔
      (∀ i < 10, ∀ name ∈ levelFrom c b target (namesUnder target b.own) i,
        (c.resolve? b name).isSome) ∧
      levelFrom c b target (namesUnder target b.own) 10 = []) ∧
    ((mergeReferences c target b).2 = none →
      SameMap (mergeReferences c target b).1.own
        (mergeAll target b.own (ownOfLevels c b target (namesUnder target b.own) 10))) ∧
    (∀ name ∈ namesUnder target b.own, ∀ other,
      Relation.ReflTransGen (Refers c b target) name other →
      Relation.TransGen (Refers c b target) other other →
      (mergeReferences c target b).2 ≠ none) := by
  have hiff := mergeLevels_eq_none_iff (b := b) hc 10 hb
  refine ⟨hiff, sameMap_mergeLevels hc 10 hb, fun name hname other hreach hcycle hok => ?_⟩
  exact levelFrom_ne_nil_of_cycle hname hreach hcycle 10 (hiff.mp hok).2

/-- A definition of the first version, under its name. -/
def diamondEntry (name : String) (own : Fields) : String × List Definition :=
  (name, [⟨"0.0.0", .obj [("name", .str name)], own⟩])

/-- `Left` and `Right` both refer to `Base`. -/
def diamondContext : Context where
  definitions := ⟨[
    diamondEntry "Left" [("use", .arr [.obj [("name", .str "Base")]]), ("note", .arr [.str "left"])],
    diamondEntry "Right" [("use", .arr [.obj [("name", .str "Base")]]), ("title", .str "right")],
    diamondEntry "Base" [("note", .arr [.str "base"]), ("title", .str "base")]]⟩
  defaultVersion := "0.0.0"
  sampleUrl := none

/-- A block that refers to both sides. -/
def diamondBlock : Block where
  own := [("use", .arr [.obj [("name", .str "Left")], .obj [("name", .str "Right")]]),
    ("url", .str "/a")]

theorem mergeReferences_diamond :
    ListsReferences "use" diamondBlock.own ∧ TableLists "use" diamondContext ∧
      (mergeReferences diamondContext "use" diamondBlock).2 = none ∧
      SameMap (mergeReferences diamondContext "use" diamondBlock).1.own
        [("url", .str "/a"), ("note", .arr [.str "left", .str "base", .str "base"]),
          ("title", .str "right")] := by
  have hb : ListsReferences "use" diamondBlock.own := by decide
  have hc : TableLists "use" diamondContext := by decide
  obtain ⟨hiff, hmap, -⟩ := mergeReferences_level_order diamondContext diamondBlock "use" hb hc
  have hok : (mergeReferences diamondContext "use" diamondBlock).2 = none :=
    hiff.mpr ⟨by decide +kernel, by decide +kernel⟩
  exact ⟨hb, hc, hok, hmap hok⟩

end Resolve
end Docblock
