/-
# Facts that merges collect

A block documents parameters, and it refers to definitions under several keys.
These are facts that merges collect: where parameters stand in groups and
references in lists (`WellFormed`), a merge says what either part says, and
nothing else (`Fact.holdsIn_mergeFields`). So a block whose references have been
followed says what it said itself, and what the definitions say to which they
lead (`holdsIn_mergeReferences`).

No other action changes such facts (`Action.saysSame_apply`). The titles of
groups only put parameters into other groups.

Key definitions: `Resolve.WellFormed`, `Resolve.Fact`, `Resolve.SaysSame`.
Key theorems: `Resolve.Fact.holdsIn_mergeFields`,
`Resolve.exists_mem_levelFrom_iff`, `Resolve.holdsIn_mergeReferences`,
`Resolve.Action.saysSame_apply`.
-/
import Docblock.Proofs.Resolve.Level
import Docblock.Proofs.Resolve.Title
import Docblock.Source.UrlParameter

namespace Docblock
namespace Resolve

open Fields

/-! ### Groups of fields -/

/-- Each group holds a list. -/
def HoldLists (groups : Fields) : Prop := Distinct groups ∧ ∀ entry ∈ groups, ∃ fields, entry.2 = .arr fields

/-- The fields of one group. -/
def listAt (groups : Fields) (key : String) : List Json := ((groups.get? key).bind Json.arr?).getD []

theorem holdLists_nil : HoldLists [] := ⟨List.nodup_nil, by simp⟩

theorem holdLists_of_get? {groups : Fields} (hd : Distinct groups)
    (h : ∀ key v, groups.get? key = some v → ∃ fields, v = .arr fields) : HoldLists groups :=
  ⟨hd, fun entry hentry => h entry.1 entry.2 ((get?_eq_some_iff hd).mpr hentry)⟩

theorem HoldLists.eq_arr {groups : Fields} (h : HoldLists groups) {key : String} {v : Json}
    (hv : groups.get? key = some v) : v = .arr (listAt groups key) := by
  obtain ⟨fields, hfields⟩ := h.2 (key, v) ((get?_eq_some_iff h.1).mp hv)
  dsimp only at hfields
  simp [listAt, hv, hfields, Json.arr?]

theorem HoldLists.mem_contents {groups : Fields} (h : HoldLists groups) {field : Json} :
    field ∈ contents groups ↔ ∃ key, field ∈ listAt groups key := by
  simp only [contents, List.mem_flatMap]
  constructor
  · rintro ⟨⟨key, v⟩, hentry, hfield⟩
    have hv : groups.get? key = some v := (get?_eq_some_iff h.1).mpr hentry
    exact ⟨key, by simpa [listAt, hv] using hfield⟩
  · rintro ⟨key, hfield⟩
    cases hv : groups.get? key with
    | none => simp [listAt, hv] at hfield
    | some v =>
      refine ⟨(key, v), (get?_eq_some_iff h.1).mp hv, ?_⟩
      rw [h.eq_arr hv]
      exact hfield

/-- A merge of groups continues each of them. -/
theorem HoldLists.mergeFields {groups more : Fields} (h : HoldLists groups) (hm : HoldLists more) :
    HoldLists (Resolve.mergeFields groups more) ∧
      ∀ key, listAt (Resolve.mergeFields groups more) key = listAt groups key ++ listAt more key := by
  have hget : ∀ key, get? key (Resolve.mergeFields groups more) = none ∧ listAt groups key ++ listAt more key = [] ∨
      get? key (Resolve.mergeFields groups more) = some (.arr (listAt groups key ++ listAt more key)) := by
    intro key
    rw [get?_mergeFields key more groups hm.1]
    cases hold : groups.get? key with
    | none =>
      have hnil : listAt groups key = [] := by simp [listAt, hold]
      cases hnew : more.get? key with
      | none => exact .inl ⟨rfl, by simp [listAt, hold, hnew]⟩
      | some w =>
        refine .inr ?_
        rw [hm.eq_arr hnew, hnil]
        rfl
    | some v =>
      cases hnew : more.get? key with
      | none =>
        have hnil : listAt more key = [] := by simp [listAt, hnew]
        refine .inr ?_
        rw [h.eq_arr hold, hnil, List.append_nil]
        rfl
      | some w =>
        refine .inr ?_
        rw [h.eq_arr hold, hm.eq_arr hnew]
        rfl
  refine ⟨holdLists_of_get? (distinct_mergeFields h.1) fun key v hv => ?_, fun key => ?_⟩
  · rcases hget key with ⟨hnone, -⟩ | hsome
    · rw [hnone] at hv
      cases hv
    · rw [hsome] at hv
      exact ⟨_, (Option.some.inj hv).symm⟩
  · rcases hget key with ⟨hnone, hnil⟩ | hsome
    · rw [hnil, listAt, hnone]
      rfl
    · rw [listAt, hsome]
      rfl

theorem HoldLists.mem_contents_mergeFields {groups more : Fields} (h : HoldLists groups) (hm : HoldLists more)
    (field : Json) :
    field ∈ contents (Resolve.mergeFields groups more) ↔ field ∈ contents groups ∨ field ∈ contents more := by
  obtain ⟨hlists, hat⟩ := h.mergeFields hm
  rw [hlists.mem_contents, h.mem_contents, hm.mem_contents, ← exists_or]
  exact exists_congr fun key => by rw [hat, List.mem_append]

theorem HoldLists.addToGroup {groups : Fields} (h : HoldLists groups) (title : String) (field : Json) :
    HoldLists (Resolve.addToGroup title field groups) ∧
      ∀ f, f ∈ contents (Resolve.addToGroup title field groups) ↔ f ∈ contents groups ∨ f = field := by
  have hget : ∀ key, (Resolve.addToGroup title field groups).get? key =
      if key = title then some (.arr (listAt groups title ++ [field])) else groups.get? key :=
    fun key => get?_set _ _ _ _
  have hlists : HoldLists (Resolve.addToGroup title field groups) := by
    refine holdLists_of_get? (h.1.set _ _) fun key v hv => ?_
    rw [hget] at hv
    split_ifs at hv with hkey
    · exact ⟨_, (Option.some.inj hv).symm⟩
    · exact ⟨_, h.eq_arr hv⟩
  refine ⟨hlists, fun f => ?_⟩
  rw [hlists.mem_contents, h.mem_contents]
  have hat : ∀ key, listAt (Resolve.addToGroup title field groups) key =
      if key = title then listAt groups title ++ [field] else listAt groups key := by
    intro key
    rw [listAt, hget]
    split_ifs
    · rfl
    · rfl
  constructor
  · rintro ⟨key, hf⟩
    rw [hat] at hf
    split_ifs at hf with hkey
    · exact (List.mem_append.mp hf).imp (fun hold => ⟨title, hold⟩) List.mem_singleton.mp
    · exact .inl ⟨key, hf⟩
  · rintro (⟨key, hf⟩ | rfl)
    · refine ⟨key, ?_⟩
      rw [hat]
      split_ifs with hkey
      · exact List.mem_append_left _ (hkey ▸ hf)
      · exact hf
    · exact ⟨title, by rw [hat, if_pos rfl]; simp⟩

/-- Setting titles keeps the fields. -/
theorem mem_contents_regroup {c : Context} {b : Block} {fields : List Json} {groups : Fields}
    (h : regroup c b fields = .ok groups) :
    HoldLists groups ∧ ∀ f, f ∈ contents groups ↔ f ∈ fields := by
  have hrun : ∀ (fields : List Json) {before groups : Fields}, HoldLists before →
      fields.foldlM (fun groups field => do
        return addToGroup (← titleOf c b (groupOf field)) field groups) before = .ok groups →
      HoldLists groups ∧ ∀ f, f ∈ contents groups ↔ f ∈ contents before ∨ f ∈ fields := by
    intro fields
    induction fields with
    | nil =>
      rintro before groups hbefore ⟨⟩
      exact ⟨hbefore, by simp⟩
    | cons field fields ih =>
      intro before groups hbefore hfold
      rw [List.foldlM_cons] at hfold
      obtain ⟨next, hnext, hfold⟩ := bind_eq_ok hfold
      obtain ⟨title, -, hadd⟩ := bind_eq_ok hnext
      cases hadd
      obtain ⟨hlists, hmem⟩ := hbefore.addToGroup title field
      obtain ⟨hafter, hcontents⟩ := ih hlists hfold
      refine ⟨hafter, fun f => ?_⟩
      rw [hcontents, hmem, List.mem_cons, or_assoc]
  obtain ⟨hlists, hmem⟩ := hrun fields holdLists_nil h
  exact ⟨hlists, fun f => by rw [hmem]; simp [contents]⟩

/-! ### Blocks with parameters and references -/

/-- Groups of fields. -/
def IsGroups (v : Json) : Prop := ∃ groups, v = .obj groups ∧ HoldLists groups

/-- Data in which the fields, if there are any, stand in groups. -/
def IsSection (v : Json) : Prop :=
  ∃ part : Fields, v = .obj part ∧ Distinct part ∧ ∀ w ∈ part.get? "fields", IsGroups w

/-- The groups of fields in data that may be there. -/
def groupsIn (v : Option Json) : Fields := ((v.bind (Json.get? "fields")).bind Json.obj?).getD []

/-- Each key has one entry, parameters stand in groups, and references are
listed. -/
structure WellFormed (own : Fields) : Prop where
  distinct : Distinct own
  parameter : ∀ v ∈ own.get? "parameter", IsSection v
  references : ∀ key ∈ referenceKeys, ∀ v ∈ own.get? key, isFilledArray v

theorem WellFormed.lists {own : Fields} (h : WellFormed own) {key : String} (hkey : key ∈ referenceKeys) :
    ListsReferences key own :=
  ⟨h.distinct, h.references key hkey⟩

/-- What a block can say that counts for its parameters. -/
inductive Fact where
  /-- It has a parameter of this name. -/
  | documents (name : String)
  /-- It refers to this name under a key. -/
  | refers (key name : String)

namespace Fact

/-- The key under which a fact stands. -/
def key : Fact → String
  | .documents _ => "parameter"
  | .refers key _ => key

/-- Parameters, and references under the keys for them. -/
def IsKnown : Fact → Prop
  | .documents _ => True
  | .refers key _ => key ∈ referenceKeys

def HoldsIn (own : Fields) : Fact → Prop
  | .documents name => Source.documents (Source.parameterFields own) name = true
  | .refers key name => name ∈ namesUnder key own

theorem documents_iff (own : Fields) (name : String) :
    (Fact.documents name).HoldsIn own ↔
      ∃ field ∈ contents (groupsIn (own.get? "parameter")), field.getStr? "field" = some name := by
  rw [HoldsIn, Source.documents, List.any_eq_true]
  exact exists_congr fun field => and_congr Iff.rfl beq_iff_eq

/-- A fact depends on what is under its key. -/
theorem holdsIn_congr {fact : Fact} {own own' : Fields} (h : own'.get? fact.key = own.get? fact.key) :
    fact.HoldsIn own' ↔ fact.HoldsIn own := by
  cases fact with
  | documents name =>
    have hget : own'.get? "parameter" = own.get? "parameter" := h
    rw [documents_iff, documents_iff, hget]
  | refers key name =>
    have hget : own'.get? key = own.get? key := h
    rw [HoldsIn, HoldsIn, namesUnder, namesUnder, hget]

end Fact

/-! ### Merging -/

theorem mergeOptions_obj (fields more : Fields) :
    mergeOptions (some (.obj fields)) (some (.obj more)) = some (.obj (mergeFields fields more)) := by
  rw [mergeOptions, mergeValue]

/-- A merge of two lots of groups has the fields of both. -/
theorem isGroups_mergeOptions {old new : Option Json} (hold : ∀ v ∈ old, IsGroups v) (hnew : ∀ v ∈ new, IsGroups v) :
    (∀ v ∈ mergeOptions old new, IsGroups v) ∧
      ∀ f, f ∈ contents (((mergeOptions old new).bind Json.obj?).getD []) ↔
        f ∈ contents ((old.bind Json.obj?).getD []) ∨ f ∈ contents ((new.bind Json.obj?).getD []) := by
  cases new with
  | none => exact ⟨hold, by simp [mergeOptions, contents]⟩
  | some w =>
    cases old with
    | none => exact ⟨hnew, by simp [mergeOptions, contents]⟩
    | some v =>
      obtain ⟨groups, rfl, hgroups⟩ := hold v rfl
      obtain ⟨more, rfl, hmore⟩ := hnew w rfl
      rw [mergeOptions_obj]
      refine ⟨?_, hgroups.mem_contents_mergeFields hmore⟩
      rintro v ⟨⟩
      exact ⟨_, rfl, (hgroups.mergeFields hmore).1⟩

theorem groupsIn_obj (part : Fields) :
    groupsIn (some (.obj part)) = ((part.get? "fields").bind Json.obj?).getD [] := rfl

/-- So has a merge of the parts that they stand in. -/
theorem isSection_mergeOptions {old new : Option Json} (hold : ∀ v ∈ old, IsSection v) (hnew : ∀ v ∈ new, IsSection v) :
    (∀ v ∈ mergeOptions old new, IsSection v) ∧ ∀ f, f ∈ contents (groupsIn (mergeOptions old new)) ↔
      f ∈ contents (groupsIn old) ∨ f ∈ contents (groupsIn new) := by
  cases new with
  | none => exact ⟨hold, by simp [mergeOptions, groupsIn, contents]⟩
  | some w =>
    cases old with
    | none => exact ⟨hnew, by simp [mergeOptions, groupsIn, contents]⟩
    | some v =>
      obtain ⟨part, rfl, hd, hfields⟩ := hold v rfl
      obtain ⟨more, rfl, hd', hfields'⟩ := hnew w rfl
      have hget : Fields.get? "fields" (mergeFields part more) =
          mergeOptions (part.get? "fields") (more.get? "fields") := get?_mergeFields "fields" more part hd'
      obtain ⟨hgroups, hmem⟩ := isGroups_mergeOptions hfields hfields'
      rw [mergeOptions_obj, groupsIn_obj, groupsIn_obj, groupsIn_obj, hget]
      refine ⟨?_, hmem⟩
      rintro v ⟨⟩
      exact ⟨_, rfl, distinct_mergeFields hd, by rwa [hget]⟩

theorem WellFormed.mergeFields {own more : Fields} (h : WellFormed own) (hm : WellFormed more) :
    WellFormed (Resolve.mergeFields own more) where
  distinct := distinct_mergeFields h.distinct
  parameter := by
    rw [get?_mergeFields "parameter" more own hm.distinct]
    exact (isSection_mergeOptions h.parameter hm.parameter).1
  references key hkey := ((h.lists hkey).mergeFields (hm.lists hkey)).2

/-- **A merge says what either part says.** -/
theorem Fact.holdsIn_mergeFields {own more : Fields} (h : WellFormed own) (hm : WellFormed more) {fact : Fact}
    (hknown : fact.IsKnown) :
    fact.HoldsIn (Resolve.mergeFields own more) ↔ fact.HoldsIn own ∨ fact.HoldsIn more := by
  cases fact with
  | documents name =>
    have hmem := (isSection_mergeOptions h.parameter hm.parameter).2
    rw [documents_iff, documents_iff, documents_iff, get?_mergeFields "parameter" more own hm.distinct, ← exists_or]
    exact exists_congr fun field => by rw [hmem, or_and_right]
  | refers key name =>
    rw [HoldsIn, HoldsIn, HoldsIn, namesUnder_mergeFields (h.lists hknown) (hm.lists hknown), List.mem_append]

theorem WellFormed.of_get? {own own' : Fields} (h : WellFormed own) (hd : Distinct own')
    (hget : ∀ key ∈ "parameter" :: referenceKeys, ∀ v ∈ own'.get? key, own.get? key = some v) : WellFormed own' where
  distinct := hd
  parameter v hv := h.parameter v (hget "parameter" List.mem_cons_self v hv)
  references key hkey v hv := h.references key hkey v (hget key (List.mem_cons_of_mem _ hkey) v hv)

theorem WellFormed.swapErase {own : Fields} (h : WellFormed own) (target : String) :
    WellFormed (own.swapErase target) := by
  refine h.of_get? (h.distinct.swapErase target) fun key _ v hv => ?_
  rw [get?_swapErase target key h.distinct] at hv
  split_ifs at hv
  · cases hv
  · exact hv

theorem WellFormed.without {own : Fields} (h : WellFormed own) (target : String) :
    WellFormed (own.without target) := by
  refine h.of_get? (h.distinct.without target) fun key _ v hv => ?_
  rw [get?_without] at hv
  split_ifs at hv
  · cases hv
  · exact hv

theorem Fact.holdsIn_foldl_mergeFields {fact : Fact} (hknown : fact.IsKnown) : ∀ (xs : List Fields) {own : Fields},
    WellFormed own → (∀ x ∈ xs, WellFormed x) →
      (fact.HoldsIn (xs.foldl mergeFields own) ↔ fact.HoldsIn own ∨ ∃ x ∈ xs, fact.HoldsIn x)
  | [], own, _, _ => by simp
  | x :: xs, own, h, hxs => by
    rw [List.forall_mem_cons] at hxs
    rw [List.foldl_cons, holdsIn_foldl_mergeFields hknown xs (h.mergeFields hxs.1) hxs.2,
      holdsIn_mergeFields h hxs.1 hknown, or_assoc, List.exists_mem_cons_iff]

/-- Leaving out a key does not change what stands under others. -/
theorem Fact.holdsIn_without {fact : Fact} {target : String} (hne : fact.key ≠ target) (own : Fields) :
    fact.HoldsIn (own.without target) ↔ fact.HoldsIn own :=
  holdsIn_congr (by rw [get?_without, if_neg hne])

theorem Fact.holdsIn_mergeAll {fact : Fact} (hknown : fact.IsKnown) {target : String} (hne : fact.key ≠ target)
    {own : Fields} (h : WellFormed own) {xs : List Fields} (hxs : ∀ x ∈ xs, WellFormed x) :
    fact.HoldsIn (mergeAll target own xs) ↔ fact.HoldsIn own ∨ ∃ x ∈ xs, fact.HoldsIn x := by
  have hwithout : ∀ y ∈ xs.map (Fields.without target), WellFormed y := by
    intro y hy
    obtain ⟨x, hx, rfl⟩ := List.mem_map.mp hy
    exact (hxs x hx).without target
  rw [mergeAll, holdsIn_foldl_mergeFields hknown _ (h.without target) hwithout, holdsIn_without hne]
  simp only [List.mem_map, exists_exists_and_eq_and, holdsIn_without hne]

/-! ### Following references -/

section
variable {c : Context} {b : Block} {target : String}

theorem levelFrom_add_eq_nil {start : List String} {n : Nat} (h : levelFrom c b target start n = []) :
    ∀ m, levelFrom c b target start (n + m) = []
  | 0 => h
  | m + 1 => by
    rw [← Nat.add_assoc, levelFrom, levelFrom_add_eq_nil h m]
    rfl

/-- If no level comes after the first ones, they hold all names to which the
references lead. -/
theorem exists_mem_levelFrom_iff {start : List String} {n : Nat} (h : levelFrom c b target start n = [])
    {name : String} : (∃ i < n, name ∈ levelFrom c b target start i) ↔
      ∃ first ∈ start, Relation.ReflTransGen (Refers c b target) first name := by
  constructor
  · rintro ⟨i, -, hname⟩
    induction i generalizing name with
    | zero => exact ⟨name, hname, .refl⟩
    | succ i ih =>
      obtain ⟨before, hbefore, hrefers⟩ := mem_nextNames.mp hname
      obtain ⟨first, hfirst, hreach⟩ := ih hbefore
      exact ⟨first, hfirst, hreach.tail hrefers⟩
  · rintro ⟨first, hfirst, hreach⟩
    have hlevel : ∃ i, name ∈ levelFrom c b target start i := by
      induction hreach with
      | refl => exact ⟨0, hfirst⟩
      | tail _ hrefers ih =>
        obtain ⟨i, hi⟩ := ih
        exact ⟨i + 1, mem_nextNames.mpr ⟨_, hi, hrefers⟩⟩
    obtain ⟨i, hi⟩ := hlevel
    refine ⟨i, ?_, hi⟩
    by_contra hge
    obtain ⟨m, rfl⟩ := Nat.exists_eq_add_of_le (Nat.not_lt.mp hge)
    rw [levelFrom_add_eq_nil h m] at hi
    cases hi

theorem mem_ownOfLevels {start : List String} {n : Nat} {own : Fields} :
    own ∈ ownOfLevels c b target start n ↔
      ∃ i < n, ∃ name ∈ levelFrom c b target start i, ∃ d, c.resolve? b name = some d ∧ d.own = own := by
  simp only [ownOfLevels, ownOf, List.mem_filterMap, List.mem_flatMap, List.mem_range, Option.map_eq_some_iff]
  constructor
  · rintro ⟨name, ⟨i, hi, hname⟩, hd⟩
    exact ⟨i, hi, name, hname, hd⟩
  · rintro ⟨i, hi, name, hname, hd⟩
    exact ⟨name, ⟨i, hi, hname⟩, hd⟩

/-- What the definitions say to which the references of a block lead. -/
theorem exists_mem_ownOfLevels_iff {start : List String} {n : Nat} (h : levelFrom c b target start n = [])
    (motive : Fields → Prop) : (∃ own ∈ ownOfLevels c b target start n, motive own) ↔
      ∃ first ∈ start, ∃ last, Relation.ReflTransGen (Refers c b target) first last ∧
        ∃ d, c.resolve? b last = some d ∧ motive d.own := by
  constructor
  · rintro ⟨own, hown, hmotive⟩
    obtain ⟨i, hi, last, hlast, d, hd, rfl⟩ := mem_ownOfLevels.mp hown
    obtain ⟨first, hfirst, hreach⟩ := (exists_mem_levelFrom_iff h).mp ⟨i, hi, hlast⟩
    exact ⟨first, hfirst, last, hreach, d, hd, hmotive⟩
  · rintro ⟨first, hfirst, last, hreach, d, hd, hmotive⟩
    obtain ⟨i, hi, hlast⟩ := (exists_mem_levelFrom_iff h).mpr ⟨first, hfirst, hreach⟩
    exact ⟨d.own, mem_ownOfLevels.mpr ⟨i, hi, last, hlast, d, hd, rfl⟩, hmotive⟩

/-- The definitions of a table are well-formed. -/
def TableWellFormed (c : Context) : Prop := ∀ name d, c.definitions.Has name d → WellFormed d.own

theorem TableWellFormed.of_resolve? (hc : TableWellFormed c) {name : String} {d : Definition}
    (hd : c.resolve? b name = some d) : WellFormed d.own :=
  hc name d (Context.has_of_find (resolve?_eq_some_iff.mp hd))

theorem WellFormed.mergeReferences (hb : WellFormed b.own) (hc : TableWellFormed c) (target : String) :
    WellFormed (Resolve.mergeReferences c target b).1.own :=
  mergeLevels_keeps (motive := WellFormed) (fun _ hown => hown.swapErase target)
    (fun _ name d hd hown => hown.mergeFields (hc name d hd)) maxLevels b.own hb

/-- The names to which a block refers can be resolved, if its references can be
followed. -/
theorem resolve?_of_mergeReferences (hok : (mergeReferences c target b).2 = none) :
    ∀ name ∈ namesUnder target b.own, (c.resolve? b name).isSome := by
  cases hget : b.own.get? target with
  | none => simp [namesUnder, hget]
  | some v => exact resolve_of_mergeLevels (n := 9) hget hok

/-- **A block says what it said itself, and what the definitions say to which
its references lead.** -/
theorem holdsIn_mergeReferences (htarget : target ∈ referenceKeys) (hb : WellFormed b.own) (hc : TableWellFormed c)
    (hok : (mergeReferences c target b).2 = none) {fact : Fact} (hknown : fact.IsKnown) (hne : fact.key ≠ target) :
    fact.HoldsIn (mergeReferences c target b).1.own ↔ fact.HoldsIn b.own ∨
      ∃ first ∈ namesUnder target b.own, ∃ last, Relation.ReflTransGen (Refers c b target) first last ∧
        ∃ d, c.resolve? b last = some d ∧ fact.HoldsIn d.own := by
  have htable : TableLists target c := by
    intro entry hentry d hd
    exact (hc entry.1 d ⟨entry.2, hentry, hd⟩).lists htarget
  have hlast : levelFrom c b target (namesUnder target b.own) maxLevels = [] :=
    ((mergeLevels_eq_none_iff htable maxLevels (hb.lists htarget)).mp hok).2
  have hmap := sameMap_mergeLevels htable maxLevels (hb.lists htarget) hok
  have hlevels : ∀ x ∈ ownOfLevels c b target (namesUnder target b.own) maxLevels, WellFormed x := by
    intro x hx
    obtain ⟨_, _, name, _, d, hd, rfl⟩ := mem_ownOfLevels.mp hx
    exact hc.of_resolve? hd
  rw [← exists_mem_ownOfLevels_iff hlast fact.HoldsIn, ← Fact.holdsIn_mergeAll hknown hne hb hlevels]
  exact Fact.holdsIn_congr (hmap fact.key)

end

/-! ### Other actions -/

/-- Data that are well-formed stay so, and say the same. -/
def SaysSame (own own' : Fields) : Prop :=
  WellFormed own → WellFormed own' ∧ ∀ fact : Fact, fact.IsKnown → (fact.HoldsIn own' ↔ fact.HoldsIn own)

theorem SaysSame.refl (own : Fields) : SaysSame own own := fun h => ⟨h, fun _ _ => Iff.rfl⟩

theorem SaysSame.trans {own own' own'' : Fields} (h : SaysSame own own') (h' : SaysSame own' own'') :
    SaysSame own own'' := by
  intro hown
  obtain ⟨hown', hsame⟩ := h hown
  obtain ⟨hown'', hsame'⟩ := h' hown'
  exact ⟨hown'', fun fact hknown => (hsame' fact hknown).trans (hsame fact hknown)⟩

theorem Fact.IsKnown.key_mem {fact : Fact} (h : fact.IsKnown) : fact.key ∈ "parameter" :: referenceKeys := by
  cases fact with
  | documents name => exact List.mem_cons_self
  | refers key name => exact List.mem_cons_of_mem _ h

theorem saysSame_of_get? {own own' : Fields} (hd : Distinct own → Distinct own')
    (hget : Distinct own → ∀ key ∈ "parameter" :: referenceKeys, own'.get? key = own.get? key) :
    SaysSame own own' := by
  intro h
  have hsame := hget h.distinct
  refine ⟨h.of_get? (hd h.distinct) fun key hkey v hv => ?_, fun fact hknown => ?_⟩
  · rw [← hsame key hkey]
    exact hv
  · exact Fact.holdsIn_congr (hsame _ hknown.key_mem)

theorem saysSame_set {key : String} (hkey : key ∉ "parameter" :: referenceKeys) (v : Json) (own : Fields) :
    SaysSame own (own.set key v) := by
  refine saysSame_of_get? (fun hd => hd.set key v) fun _ other hother => ?_
  rw [get?_set, if_neg]
  rintro rfl
  exact hkey hother

theorem saysSame_swapErase {key : String} (hkey : key ∉ "parameter" :: referenceKeys) (own : Fields) :
    SaysSame own (own.swapErase key) := by
  refine saysSame_of_get? (fun hd => hd.swapErase key) fun hd other hother => ?_
  rw [get?_swapErase key other hd, if_neg]
  rintro rfl
  exact hkey hother

/-- Titles put parameters into other groups. -/
theorem saysSame_titles_parameter (c : Context) (b : Block) :
    SaysSame b.own (titles c "parameter" b).1.own := by
  cases hget : b.own.get? "parameter" with
  | none =>
    have htitles : (titles c "parameter" b).1 = b := by simp [titles, hget]
    rw [htitles]
    exact .refl _
  | some v =>
    intro h
    obtain ⟨part, rfl, hd, hfields⟩ := h.parameter v hget
    cases hgroups : Fields.get? "fields" part with
    | none =>
      have htitles : (titles c "parameter" b).1 = b := by simp [titles, hget, hgroups]
      rw [htitles]
      exact SaysSame.refl _ h
    | some w =>
      obtain ⟨groups, rfl, hlists⟩ := hfields w hgroups
      cases hregroup : regroup c b (contents groups) with
      | error cause =>
        have htitles : (titles c "parameter" b).1 = b := by
          unfold contents at hregroup
          simp [titles, hget, hgroups, Json.obj?, hregroup, withOwn, bind, Except.bind]
        rw [htitles]
        exact SaysSame.refl _ h
      | ok sorted =>
        have htitles : (titles c "parameter" b).1.own =
            b.own.set "parameter" (.obj (Fields.set "fields" (.obj sorted) part)) := by
          unfold contents at hregroup
          simp [titles, hget, hgroups, Json.obj?, hregroup, withOwn, bind, Except.bind, pure, Except.pure]
        obtain ⟨hsorted, hmem⟩ := mem_contents_regroup hregroup
        have hother : ∀ key ∈ referenceKeys, key ≠ "parameter" := by decide
        rw [htitles]
        refine ⟨⟨h.distinct.set _ _, fun v hv => ?_, fun key hkey v hv => ?_⟩, fun fact hknown => ?_⟩
        · rw [Option.mem_def, get?_set, if_pos rfl] at hv
          cases hv
          refine ⟨_, rfl, hd.set _ _, fun w hw => ?_⟩
          rw [Option.mem_def, get?_set, if_pos rfl] at hw
          exact ⟨sorted, (Option.some.inj hw).symm, hsorted⟩
        · rw [Option.mem_def, get?_set, if_neg (hother key hkey)] at hv
          exact h.references key hkey v hv
        · cases fact with
          | documents name =>
            rw [Fact.documents_iff, Fact.documents_iff, get?_set, if_pos rfl, hget, groupsIn_obj, groupsIn_obj,
              get?_set, if_pos rfl, hgroups]
            exact exists_congr fun field => and_congr_left fun _ => hmem field
          | refers key name => exact Fact.holdsIn_congr (by rw [get?_set]; exact if_neg (hother key hknown))

/-- Merges follow the keys of references, and titles are of other data. -/
def Action.Fits : Action → Prop
  | .titles target => target ∉ referenceKeys
  | .merge target => target ∈ referenceKeys
  | _ => True

instance : (a : Action) → Decidable a.Fits
  | .titles target => inferInstanceAs (Decidable (target ∉ referenceKeys))
  | .merge target => inferInstanceAs (Decidable (target ∈ referenceKeys))
  | .permissions | .sampleRequests | .name | .group => .isTrue trivial

/-- **No action but a merge changes what a block says.** -/
theorem Action.saysSame_apply {a : Action} (hfits : a.Fits) (hmerge : ∀ target, a ≠ .merge target) (c : Context)
    (filename : String) (b : Block) : SaysSame b.own (a.apply c filename b).1.own := by
  by_cases htitles : a = .titles "parameter"
  · subst htitles
    exact saysSame_titles_parameter c b
  · have hwrites : ∀ key ∈ a.writes, key ∉ "parameter" :: referenceKeys := by
      cases a with
      | titles target =>
        rintro key hkey hknown
        obtain rfl : key = target := List.mem_singleton.mp hkey
        rcases List.mem_cons.mp hknown with rfl | hreferences
        · exact htitles rfl
        · exact hfits hreferences
      | merge target => exact absurd rfl (hmerge target)
      | _ => decide
    have hremoves : ∀ key ∈ a.removes, key ∉ "parameter" :: referenceKeys := by
      cases a with
      | titles target => exact fun key hkey => absurd hkey List.not_mem_nil
      | merge target => exact absurd rfl (hmerge target)
      | _ => decide
    exact a.own_induction (fun key hkey own v h => h.trans (saysSame_set (hwrites key hkey) v own))
      (fun key hkey own h => h.trans (saysSame_swapErase (hremoves key hkey) own))
      (fun target heq => absurd heq (hmerge target)) (.refl b.own)

end Resolve
end Docblock
