/-
# Each field once

Within a group a field is dropped if one before it has the same name, written
as JSON, and fields without a name count as fields of one name
(`firstByName_eq`). That is all that becomes of a block: its groups of
parameters, results, errors and headers are the places that change, wherever
they are arrays, and at every other place it reads as before, with the same keys
in the same order (`onceOf_dedupBlock`). A second run finds nothing to drop
(`dedupFiles_dedupFiles`), and the records are the data of the blocks that
describe endpoints, in order (`each_field_once`).

Key definitions: `Record.firstOfEach`, `Record.OnceOf`.
Key theorems: `Record.firstByName_eq`, `Record.onceOf_dedupBlock`,
`Record.dedupFiles_dedupFiles`, `Record.each_field_once`.
-/
import Docblock.Proofs.Json.Numeral
import Docblock.Proofs.Json.Path
import Docblock.Proofs.Record.Inherit
import Mathlib.Data.List.Forall2

namespace Docblock

theorem Json.compact_ne_empty (v : Json) : v.compact ≠ "" := by
  intro h
  have hlist := congrArg String.toList h
  cases v with
  | num n =>
    have hnumeral := isNumeral_render n
    rw [show n.render.toList = [] from hlist] at hnumeral
    cases hnumeral with
    | unsigned hdigits =>
      obtain ⟨d, ds, hcons, -⟩ := hdigits.exists_cons
      cases hcons
  | null => simp [compact] at hlist
  | bool b => cases b <;> simp [compact] at hlist
  | str s => simp [compact, toList_quote] at hlist
  | arr xs => cases xs <;> simp [compact] at hlist
  | obj fields => cases fields <;> simp [compact] at hlist

namespace Record

open Fields

/-! ### The first of each name -/

/-- The name of a field as written, if it has one. -/
def nameText? (field : Json) : Option String := (field.get? "field").map Json.compact

/-- No field in front has the name of this one. -/
def isFirst (front : List Json) (field : Json) : Bool :=
  front.all fun earlier => nameText? earlier != nameText? field

/-- The fields that have no field of the same name before them. -/
def firstOfEach (fields : List Json) : List Json :=
  (fields.zipIdx.filter fun entry => isFirst (fields.take entry.2) entry.1).map Prod.fst

/-- A missing name is written like no other. -/
theorem fieldKey_eq_iff (field other : Json) : fieldKey field = fieldKey other ↔ nameText? field = nameText? other := by
  unfold fieldKey nameText?
  cases field.get? "field" with
  | none => cases other.get? "field" with
    | none => simp
    | some w => simpa using (Json.compact_ne_empty w).symm
  | some v => cases other.get? "field" with
    | none => simpa using Json.compact_ne_empty v
    | some w => simp

theorem isFirst_iff (front : List Json) (field : Json) :
    isFirst front field = true ↔ fieldKey field ∉ front.map fieldKey := by
  simp only [isFirst, List.all_eq_true, bne_iff_ne, ne_eq, List.mem_map, not_exists, not_and, fieldKey_eq_iff]

/-- The fields behind others, if those have the names that came up before. -/
theorem firstByName_behind (fields : List Json) (front : List Json) (seen : List String)
    (hseen : ∀ key, key ∈ seen ↔ key ∈ front.map fieldKey) :
    firstByName seen fields =
      ((fields.zipIdx front.length).filter fun entry => isFirst ((front ++ fields).take entry.2) entry.1).map
        Prod.fst := by
  induction fields generalizing front seen with
  | nil => rfl
  | cons field fields ih =>
    have htake : (front ++ field :: fields).take front.length = front := List.take_left
    have hlength : (front ++ [field]).length = front.length + 1 := by simp
    have hmore : front ++ [field] ++ fields = front ++ field :: fields := by simp
    simp only [firstByName, List.contains_iff_mem, List.zipIdx_cons]
    -- the field joins those in front whether it stays or goes
    by_cases hfield : fieldKey field ∈ seen
    · have hnot : ¬ isFirst front field = true := by rw [isFirst_iff, ← hseen, not_not]; exact hfield
      have hnext := ih (front ++ [field]) seen fun key => by
        rw [List.map_append, List.mem_append, ← hseen, List.map_singleton, List.mem_singleton]
        exact ⟨.inl, fun h => h.elim id fun heq => heq ▸ hfield⟩
      rw [hlength, hmore] at hnext
      rw [if_pos hfield, hnext, List.filter_cons_of_neg (by rwa [htake])]
    · have hfirst : isFirst front field = true := by rw [isFirst_iff, ← hseen]; exact hfield
      have hnext := ih (front ++ [field]) (fieldKey field :: seen) fun key => by
        rw [List.map_append, List.mem_append, ← hseen, List.map_singleton, List.mem_singleton, List.mem_cons, or_comm]
      rw [hlength, hmore] at hnext
      rw [if_neg hfield, hnext, List.filter_cons_of_pos (by rwa [htake]), List.map_cons]

/-- **Of each name the first field is left,** and fields without a name count
as fields of one name. -/
theorem firstByName_eq (fields : List Json) : firstByName [] fields = firstOfEach fields :=
  firstByName_behind fields [] [] fun _ => Iff.rfl

example : firstByName [] [.null, .obj [("field", .str "id")], .obj [],
    .obj [("field", .str "id"), ("size", .str "5")]] = [.null, .obj [("field", .str "id")]] := rfl

/-- What is left has nothing to drop. -/
theorem firstByName_firstByName : ∀ (fields : List Json) (seen : List String),
    firstByName seen (firstByName seen fields) = firstByName seen fields
  | [], _ => rfl
  | field :: fields, seen => by
    rw [firstByName]
    split_ifs with hseen
    · exact firstByName_firstByName fields seen
    · rw [firstByName, if_neg hseen, firstByName_firstByName fields]

/-! ### What becomes of a block -/

/-- What becomes of a group. -/
def groupOnce : Json → Json
  | .arr fields => .arr (firstByName [] fields)
  | group => group

/-- What becomes of the groups of a part. -/
def groupsOnce : Json → Json
  | .obj groups => .obj (dedupGroups groups)
  | v => v

theorem dedupGroups_eq (groups : Fields) :
    dedupGroups groups = groups.map fun entry => (entry.1, groupOnce entry.2) := by
  refine List.map_congr_left fun entry _ => ?_
  obtain ⟨title, group⟩ := entry
  cases group <;> rfl

theorem get?_map_value (f : Json → Json) (key : String) (fields : Fields) :
    Fields.get? key (fields.map fun entry => (entry.1, f entry.2)) = (Fields.get? key fields).map f := by
  induction fields with
  | nil => rfl
  | cons entry fields ih =>
    obtain ⟨k, v⟩ := entry
    by_cases h : k = key
    · simp [Fields.get?, h]
    · simpa [Fields.get?, h] using ih

theorem get?_groupsOnce (group : String) (v : Json) : (groupsOnce v).get? group = (v.get? group).map groupOnce := by
  cases v with
  | obj groups =>
    rw [groupsOnce, dedupGroups_eq]
    exact get?_map_value groupOnce group groups
  | _ => rfl

theorem outline_groupsOnce (v : Json) : (groupsOnce v).outline = v.outline := by
  cases v with
  | obj groups =>
    refine Json.outline_obj_eq ?_
    rw [dedupGroups_eq, keys, List.map_map]
    rfl
  | _ => rfl

theorem partOnce_of_get? {entries : Fields} {v : Json} (h : get? "fields" entries = some v) :
    partOnce (.obj entries) = .obj (set "fields" (groupsOnce v) entries) := by
  rw [partOnce, h, Option.bind_some]
  cases v with
  | obj groups => rfl
  | _ => exact congrArg Json.obj (set_of_get? h).symm

theorem partOnce_of_get?_none {entries : Fields} (h : get? "fields" entries = none) :
    partOnce (.obj entries) = .obj entries := by
  rw [partOnce, h, Option.bind_none]

theorem get?_partOnce (key : String) (v : Json) :
    (partOnce v).get? key = if key = "fields" then (v.get? key).map groupsOnce else v.get? key := by
  cases v with
  | obj entries =>
    cases h : get? "fields" entries with
    | none =>
      rw [partOnce_of_get?_none h]
      split_ifs with hkey
      · rw [hkey, Json.get?, h, Option.map_none]
      · rfl
    | some w =>
      rw [partOnce_of_get? h, Json.get?, Json.get?, get?_set]
      split_ifs with hkey
      · rw [hkey, h, Option.map_some]
      · rfl
  | _ => simp [partOnce, Json.get?]

theorem outline_partOnce (v : Json) : (partOnce v).outline = v.outline := by
  cases v with
  | obj entries =>
    cases h : get? "fields" entries with
    | none => rw [partOnce_of_get?_none h]
    | some w =>
      rw [partOnce_of_get? h]
      exact Json.outline_obj_eq (keys_set_of_contains _ _ _ (by rw [contains, h]; rfl))
  | _ => rfl

theorem get?_dedupBlock (b : Block) (key : String) :
    (dedupBlock b).own.get? key = if key ∈ fieldParts then (b.own.get? key).map partOnce else b.own.get? key := by
  rw [dedupBlock]
  split_ifs with hpart
  · exact get?_foldl_dedupPart b.own (by decide) hpart
  · exact get?_foldl_dedupPart_of_not_mem b.own hpart

theorem keys_dedupPart (own : Fields) (part : String) : (dedupPart own part).keys = own.keys := by
  rcases rewritten_dedupPart own part with h | ⟨v, hmem, h⟩
  · rw [h]
  · rw [h, keys_set_of_contains _ _ _ ((mem_keys_iff part own).mp hmem)]

theorem keys_foldl_dedupPart : ∀ (parts : List String) (own : Fields), (parts.foldl dedupPart own).keys = own.keys
  | [], _ => rfl
  | part :: parts, own => by rw [List.foldl_cons, keys_foldl_dedupPart parts, keys_dedupPart]

/-! ### What stays of a block -/

/-- A place of a block with a group of fields: a list below the `fields` of a
part. -/
def IsGroup (b : Block) (path : List String) : Prop :=
  ∃ part ∈ fieldParts, ∃ group fields, path = [part, "fields", group] ∧
    (Json.obj b.own).getAt? path = some (.arr fields)

/-- A block and what is left of it when each of its fields counts once. -/
structure OnceOf (b once : Block) : Prop where
  shared : once.shared = b.shared
  index : once.index = b.index
  root : once.root = b.root
  /-- Of the fields of a group, the first of each name are left. -/
  groups : ∀ part ∈ fieldParts, ∀ group fields,
    (Json.obj b.own).getAt? [part, "fields", group] = some (.arr fields) →
    (Json.obj once.own).getAt? [part, "fields", group] = some (.arr (firstOfEach fields))
  /-- At every other place there is the same: an object with the same keys, in
  order, or the same value, or nothing. -/
  others : ∀ path, ¬ IsGroup b path →
    ((Json.obj once.own).getAt? path).map Json.outline = ((Json.obj b.own).getAt? path).map Json.outline

theorem outline_getAt?_groupOnce {path : List String} {v : Json} (h : path = [] → v.arr? = none) :
    ((groupOnce v).getAt? path).map Json.outline = (v.getAt? path).map Json.outline := by
  cases v with
  | arr fields =>
    cases path with
    | nil => cases h rfl
    | cons key path => rfl
  | _ => rfl

theorem outline_getAt?_groupsOnce {path : List String} {v : Json}
    (h : ∀ group fields, path = [group] → v.get? group ≠ some (.arr fields)) :
    ((groupsOnce v).getAt? path).map Json.outline = (v.getAt? path).map Json.outline := by
  cases path with
  | nil => exact congrArg some (outline_groupsOnce v)
  | cons group path =>
    rw [Json.getAt?, Json.getAt?, get?_groupsOnce]
    cases hv : v.get? group with
    | none => rfl
    | some w =>
      refine outline_getAt?_groupOnce fun hpath => ?_
      cases w with
      | arr fields => exact absurd hv (h group fields (by rw [hpath]))
      | _ => rfl

theorem outline_getAt?_partOnce {path : List String} {v : Json}
    (h : ∀ group fields, path = ["fields", group] → v.getAt? path ≠ some (.arr fields)) :
    ((partOnce v).getAt? path).map Json.outline = (v.getAt? path).map Json.outline := by
  cases path with
  | nil => exact congrArg some (outline_partOnce v)
  | cons key path =>
    rw [Json.getAt?, Json.getAt?, get?_partOnce]
    split_ifs with hkey
    · cases hv : v.get? key with
      | none => rfl
      | some w =>
        refine outline_getAt?_groupsOnce fun group fields hpath hw => ?_
        refine h group fields (by rw [hkey, hpath]) ?_
        rw [hpath, Json.getAt?, hv, Option.bind_some, Json.getAt?, hw]
        rfl
    · rfl

/-- **Groups have the first field of each name, and nothing else changes.** -/
theorem onceOf_dedupBlock (b : Block) : OnceOf b (dedupBlock b) where
  shared := rfl
  index := rfl
  root := rfl
  groups part hpart group fields h := by rw [← firstByName_eq, getAt?_dedupBlock hpart h]
  others path hpath := by
    cases path with
    | nil => exact congrArg some (Json.outline_obj_eq (keys_foldl_dedupPart fieldParts b.own))
    | cons part path =>
      rw [Json.getAt?, Json.getAt?, Json.get?, Json.get?, get?_dedupBlock]
      split_ifs with hpart
      · cases hv : b.own.get? part with
        | none => rfl
        | some v =>
          refine outline_getAt?_partOnce fun group fields heq hv' => ?_
          refine hpath ⟨part, hpart, group, fields, by rw [heq], ?_⟩
          rw [Json.getAt?, Json.get?, hv]
          exact hv'
      · rfl

/-! ### A second run -/

theorem groupsOnce_groupsOnce (v : Json) : groupsOnce (groupsOnce v) = groupsOnce v := by
  cases v with
  | obj groups =>
    have hgroup : ∀ group, groupOnce (groupOnce group) = groupOnce group := fun group => by
      cases group with
      | arr fields => exact congrArg Json.arr (firstByName_firstByName fields [])
      | _ => rfl
    simp only [groupsOnce, dedupGroups_eq, List.map_map]
    exact congrArg Json.obj (List.map_congr_left fun entry _ => congrArg (Prod.mk entry.1) (hgroup entry.2))
  | _ => rfl

theorem partOnce_partOnce (v : Json) : partOnce (partOnce v) = partOnce v := by
  cases v with
  | obj entries =>
    cases h : get? "fields" entries with
    | none => rw [partOnce_of_get?_none h, partOnce_of_get?_none h]
    | some w =>
      have hself := get?_set_self "fields" (groupsOnce w) entries
      rw [partOnce_of_get? h, partOnce_of_get? hself, groupsOnce_groupsOnce, set_of_get? hself]
  | _ => rfl

theorem dedupPart_of_fixed {own : Fields} {part : String} (h : ∀ v, own.get? part = some v → partOnce v = v) :
    dedupPart own part = own := by
  rcases rewritten_dedupPart own part with hsame | ⟨v, hmem, hset⟩
  · exact hsame
  · obtain ⟨w, hw⟩ := Option.isSome_iff_exists.mp ((mem_keys_iff part own).mp hmem)
    have hself := get?_dedupPart_self own part
    rw [hset, get?_set_self, hw, Option.map_some, h w hw] at hself
    rw [hset, Option.some.inj hself, set_of_get? hw]

theorem foldl_dedupPart_of_fixed {own : Fields} : ∀ {parts : List String},
    (∀ part ∈ parts, ∀ v, own.get? part = some v → partOnce v = v) → parts.foldl dedupPart own = own
  | [], _ => rfl
  | part :: parts, h => by
    rw [List.forall_mem_cons] at h
    rw [List.foldl_cons, dedupPart_of_fixed h.1, foldl_dedupPart_of_fixed h.2]

theorem dedupBlock_dedupBlock (b : Block) : dedupBlock (dedupBlock b) = dedupBlock b := by
  have hfixed : fieldParts.foldl dedupPart (dedupBlock b).own = (dedupBlock b).own := by
    refine foldl_dedupPart_of_fixed fun part hpart v hv => ?_
    rw [get?_dedupBlock, if_pos hpart, Option.map_eq_some_iff] at hv
    obtain ⟨w, -, rfl⟩ := hv
    exact partOnce_partOnce w
  exact congrArg (fun own => { b with own }) hfixed

/-- **A second run changes nothing.** -/
theorem dedupFiles_dedupFiles (files : List BlockFile) : dedupFiles (dedupFiles files) = dedupFiles files := by
  simp only [dedupFiles, List.map_map, Function.comp_def, dedupBlock_dedupBlock]

/-! ### All files -/

/-- **Each field counts once.** In every block of every file, each group of
parameters, results, errors and headers is left with the first field of each
name, and nothing else changes. The records are what the blocks that describe
endpoints, the same as before, then have of their own, in order. A second run
changes no block and gives the same records. -/
theorem each_field_once (files : List BlockFile) :
    List.Forall₂ (List.Forall₂ OnceOf) files (dedupFiles files) ∧
    (dedupFiles files).map (List.map Block.isEndpoint) = files.map (List.map Block.isEndpoint) ∧
    ofFiles files = ((dedupFiles files).flatten.filter Block.isEndpoint).map Block.own ∧
    dedupFiles (dedupFiles files) = dedupFiles files ∧
    ofFiles (dedupFiles files) = ofFiles files := by
  have hagain := dedupFiles_dedupFiles files
  refine ⟨?_, ?_, rfl, hagain, ?_⟩
  · rw [dedupFiles, List.forall₂_map_right_iff, List.forall₂_same]
    intro file _
    rw [List.forall₂_map_right_iff, List.forall₂_same]
    exact fun b _ => onceOf_dedupBlock b
  · simp only [dedupFiles, List.map_map, Function.comp_def, isEndpoint_dedupBlock]
  · rw [ofFiles, ofFiles, hagain]

end Record
end Docblock
