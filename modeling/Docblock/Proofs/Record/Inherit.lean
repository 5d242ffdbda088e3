/-
# Fields of its own come first

A record has each field of a group once. Where a block and the definitions to
which it refers document fields of one group, those of the block come first
(`Resolve.keeps_mergeReferences`), and of each name the first field is the
only one that is left (`filter_firstByName`). So the block's own field is
kept as it is written, and what it would inherit under the same name is gone
(`own_documentation_wins`).

Names are compared as they are written, which is the same as comparing them
(`fieldKey_eq_quote_iff`).

Key definitions: `Record.hasName`.
Key theorems: `Record.filter_firstByName`, `Record.getAt?_dedupBlock`,
`Record.own_documentation_wins`.
-/
import Docblock.Proofs.Json.Quote
import Docblock.Proofs.Record.Endpoint
import Docblock.Proofs.Resolve.Inherit

namespace Docblock
namespace Record

open Fields Resolve

/-- Whether a field has this name. -/
def hasName (name : String) (field : Json) : Bool := field.getStr? "field" == some name

/-! ### The first of each name -/

theorem fieldKey_eq_quote_iff (field : Json) (name : String) :
    fieldKey field = Json.quote name ↔ field.getStr? "field" = some name := by
  unfold fieldKey Json.getStr?
  cases field.get? "field" with
  | none =>
    have hne : "" ≠ Json.quote name := fun h => by
      simpa [Json.toList_quote] using congrArg String.toList h
    simp [hne]
  | some v =>
    rw [Option.map_some, Option.getD_some, Json.compact_eq_quote_iff, Option.bind_some]
    cases v <;> simp [Json.str?]

theorem fieldKey_beq_quote (name : String) :
    (fun field => fieldKey field == Json.quote name) = hasName name := by
  funext field
  rw [Bool.eq_iff_iff, beq_iff_eq, fieldKey_eq_quote_iff, hasName, beq_iff_eq]

/-- Of the fields of a name, the first is left, and none if the name came up
before. -/
theorem filter_firstByName (key : String) : ∀ (fields : List Json) (seen : List String),
    (firstByName seen fields).filter (fieldKey · == key) =
      if key ∈ seen then [] else (fields.find? (fieldKey · == key)).toList
  | [], seen => by simp [firstByName]
  | field :: fields, seen => by
    have ih := filter_firstByName key fields
    simp only [firstByName, List.contains_iff_mem]
    by_cases hseen : fieldKey field ∈ seen
    · rw [if_pos hseen, ih]
      by_cases hkey : fieldKey field = key
      · rw [if_pos (hkey ▸ hseen), if_pos (hkey ▸ hseen)]
      · rw [List.find?_cons_of_neg (by simpa using hkey)]
    · rw [if_neg hseen]
      by_cases hkey : fieldKey field = key
      · subst hkey
        rw [if_neg hseen, List.filter_cons_of_pos (by simp), ih, if_pos List.mem_cons_self,
          List.find?_cons_of_pos (by simp), Option.toList_some]
      · rw [List.filter_cons_of_neg (by simpa using hkey), ih, List.find?_cons_of_neg (by simpa using hkey)]
        simp [Ne.symm hkey]

theorem firstByName_sublist : ∀ (fields : List Json) (seen : List String),
    (firstByName seen fields).Sublist fields
  | [], _ => .slnil
  | field :: fields, seen => by
    rw [firstByName]
    split_ifs
    · exact (firstByName_sublist fields seen).cons field
    · exact (firstByName_sublist fields _).cons_cons field

/-! ### Parts and groups -/

/-- One kind of fields, with each field of a group once. -/
def partOnce : Json → Json
  | .obj fields =>
    match (Fields.get? "fields" fields).bind Json.obj? with
    | some groups => .obj (Fields.set "fields" (.obj (dedupGroups groups)) fields)
    | none => .obj fields
  | v => v

theorem get?_dedupGroups {group : String} {fields : List Json} : ∀ {groups : Fields},
    groups.get? group = some (.arr fields) →
      (dedupGroups groups).get? group = some (.arr (firstByName [] fields))
  | (title, v) :: groups, h => by
    rw [get?] at h
    split_ifs at h with htitle
    · cases Option.some.inj h
      simp [dedupGroups, get?, htitle]
    · have ih := get?_dedupGroups h
      simpa [dedupGroups, get?, htitle] using ih

theorem get?_dedupPart_of_ne {part other : String} (hne : other ≠ part) (own : Fields) :
    (dedupPart own part).get? other = own.get? other := by
  rcases rewritten_dedupPart own part with h | ⟨v, -, h⟩
  · rw [h]
  · rw [h, get?_set_of_ne v hne]

theorem get?_foldl_dedupPart_of_not_mem {other : String} : ∀ {parts : List String} (own : Fields),
    other ∉ parts → (parts.foldl dedupPart own).get? other = own.get? other
  | [], _, _ => rfl
  | part :: parts, own, h => by
    rw [List.mem_cons, not_or] at h
    rw [List.foldl_cons, get?_foldl_dedupPart_of_not_mem _ h.2, get?_dedupPart_of_ne h.1]

theorem get?_dedupPart_self (own : Fields) (part : String) :
    (dedupPart own part).get? part = (own.get? part).map partOnce := by
  unfold dedupPart
  split
  · rename_i fields hpart
    rw [hpart, Option.map_some, partOnce]
    cases (get? "fields" fields).bind Json.obj? with
    | none => exact hpart
    | some groups => exact get?_set_self _ _ _
  · rename_i hpart
    cases hv : own.get? part with
    | none => rfl
    | some v =>
      cases v with
      | obj fields => exact absurd hv (hpart fields)
      | _ => rfl

/-- A part of a record is not touched by the others. -/
theorem get?_foldl_dedupPart {part : String} : ∀ {parts : List String} (own : Fields), parts.Nodup →
    part ∈ parts → (parts.foldl dedupPart own).get? part = (own.get? part).map partOnce
  | first :: parts, own, hnodup, hmem => by
    obtain ⟨hfirst, hparts⟩ := List.nodup_cons.mp hnodup
    rw [List.foldl_cons]
    by_cases h : part = first
    · subst h
      rw [get?_foldl_dedupPart_of_not_mem _ hfirst, get?_dedupPart_self]
    · rw [get?_foldl_dedupPart _ hparts (List.mem_of_ne_of_mem h hmem), get?_dedupPart_of_ne h]

/-- The fields of a group, where an object has parts and a part has groups. -/
theorem getAt?_group {part group : String} {own : Fields} {fields : List Json}
    (h : (Json.obj own).getAt? [part, "fields", group] = some (.arr fields)) :
    ∃ entries groups, own.get? part = some (.obj entries) ∧
      Fields.get? "fields" entries = some (.obj groups) ∧
      Fields.get? group groups = some (.arr fields) := by
  obtain ⟨v, hv, h⟩ := Option.bind_eq_some_iff.mp h
  obtain ⟨w, hw, h⟩ := Option.bind_eq_some_iff.mp h
  obtain ⟨x, hx, h⟩ := Option.bind_eq_some_iff.mp h
  cases Option.some.inj h
  cases v with
  | obj entries =>
    cases w with
    | obj groups => exact ⟨entries, groups, hv, hw, hx⟩
    | _ => cases hx
  | _ => cases hw

/-- A group of a record has the first field of each name. -/
theorem getAt?_dedupBlock {part group : String} (hpart : part ∈ fieldParts) {b : Block} {fields : List Json}
    (h : (Json.obj b.own).getAt? [part, "fields", group] = some (.arr fields)) :
    (Json.obj (dedupBlock b).own).getAt? [part, "fields", group] =
      some (.arr (firstByName [] fields)) := by
  obtain ⟨entries, groups, hentries, hgroups, hgroup⟩ := getAt?_group h
  have hsection : (dedupBlock b).own.get? part =
      some (.obj (Fields.set "fields" (.obj (dedupGroups groups)) entries)) := by
    rw [dedupBlock, get?_foldl_dedupPart _ (by decide) hpart, hentries, Option.map_some, partOnce, hgroups]
    rfl
  simp only [Json.getAt?, Json.get?, hsection, Option.bind_some, get?_set_self, get?_dedupGroups hgroup]

/-! ### Fields of its own -/

/-- If a block has a field of a name among its own, the first of them is all
that is left of the name. -/
theorem filter_firstByName_append {own : List Json} {name : String}
    (h : ∃ field ∈ own, field.getStr? "field" = some name) (inherited : List Json) :
    (firstByName [] (own ++ inherited)).filter (hasName name) = (own.find? (hasName name)).toList := by
  obtain ⟨field, hmem, hname⟩ := h
  have hsome : (own.find? (hasName name)).isSome := by
    rw [List.find?_isSome]
    exact ⟨field, hmem, by simp [hasName, hname]⟩
  rw [← fieldKey_beq_quote, filter_firstByName, if_neg List.not_mem_nil, fieldKey_beq_quote,
    List.find?_append, Option.or_of_isSome hsome]

/-- **What a block documents itself wins over what it inherits.** Following
references, whatever keys lead to in the block, the target apart, stays what
it is, and an array goes on at most. In its record, of each group of fields
that the block had itself, the first field of a name is kept as it was
written, and it is the only one of this name. -/
theorem own_documentation_wins (c : Context) (target : String) (b : Block) (hd : Distinct b.own) :
    (∀ path x, (Json.obj (b.own.without target)).getAt? path = some x → x.obj? = none →
      ∃ y, (Json.obj (mergeReferences c target b).1.own).getAt? path = some y ∧ x.Continues y) ∧
    (∀ part ∈ fieldParts, ∀ group own,
      (Json.obj (b.own.without target)).getAt? [part, "fields", group] = some (.arr own) →
      ∃ inherited kept,
        (Json.obj (mergeReferences c target b).1.own).getAt? [part, "fields", group] =
          some (.arr (own ++ inherited)) ∧
        (Json.obj (dedupBlock (mergeReferences c target b).1).own).getAt? [part, "fields", group] =
          some (.arr kept) ∧
        kept.Sublist (own ++ inherited) ∧
        ∀ name, (∃ field ∈ own, field.getStr? "field" = some name) →
          kept.filter (hasName name) = (own.find? (hasName name)).toList) ∧
    (∀ files : List BlockFile, (mergeReferences c target b).1 ∈ files.flatten →
      (mergeReferences c target b).1.isEndpoint →
      (dedupBlock (mergeReferences c target b).1).own ∈ ofFiles files) := by
  have hkeeps := keeps_mergeReferences c target hd
  refine ⟨hkeeps, fun part hpart group own hown => ?_, fun files hmem hend => ?_⟩
  · obtain ⟨y, hy, inherited, rfl⟩ := hkeeps _ _ hown rfl
    exact ⟨inherited, firstByName [] (own ++ inherited), hy, getAt?_dedupBlock hpart hy,
      firstByName_sublist _ _, fun name hname => filter_firstByName_append hname inherited⟩
  · rw [ofFiles_eq]
    exact List.mem_map.mpr ⟨_, List.mem_filter.mpr ⟨hmem, hend⟩, rfl⟩

/-- A parameter with its name and what is said about it. -/
def sampleField (name description : String) : Json :=
  .obj [("field", .str name), ("description", .str description)]

/-- The entries of one group of parameters. -/
def sampleParameters (fields : List Json) : String × Json :=
  ("parameter", .obj [("fields", .obj [("Parameter", .arr fields)])])

/-- `Common` documents `id` and `token`. -/
def commonContext : Context where
  definitions := ⟨[("Common", [⟨"0.0.0", .obj [("name", .str "Common")],
    [sampleParameters [sampleField "id" "inherited", sampleField "token" "inherited"]]⟩])]⟩
  defaultVersion := "0.0.0"
  sampleUrl := none

/-- A block that documents `id` itself. -/
def commonBlock : Block where
  own := [("use", .arr [.obj [("name", .str "Common")]]), sampleParameters [sampleField "id" "own"]]

theorem own_documentation_wins_common :
    Distinct commonBlock.own ∧ (mergeReferences commonContext "use" commonBlock).2 = none ∧
      ∃ kept, (Json.obj (dedupBlock (mergeReferences commonContext "use" commonBlock).1).own).getAt?
        ["parameter", "fields", "Parameter"] = some (.arr kept) ∧
        kept.filter (hasName "id") = [sampleField "id" "own"] := by
  have hd : Distinct commonBlock.own := by decide
  obtain ⟨-, hfields, -⟩ := own_documentation_wins commonContext "use" commonBlock hd
  obtain ⟨inherited, kept, -, hkept, -, hname⟩ :=
    hfields "parameter" (by decide) "Parameter" [sampleField "id" "own"] rfl
  exact ⟨hd, rfl, kept, hkept, hname "id" ⟨_, List.mem_singleton_self _, rfl⟩⟩

end Record
end Docblock
