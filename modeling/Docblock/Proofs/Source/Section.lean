/-
# Where the fields of a section are stored

A field of the parameters, results, errors or headers is stored below its
section at its group. The group is part of a dotted path, so a group with a
point is taken apart: its field ends up below the pieces of the group, and
nothing is stored under the group itself. A group without a point keeps its
name, and its fields stand there in the order in which they were read.

Key definitions: `Tag.FieldSection`, `Tag.FieldSection.tag`,
`Source.groupsIn`.
Key theorems: `Tag.FieldSection.find?_builtin`,
`Source.field_stored_under_group`.
-/
import Docblock.Proofs.Block.Attach
import Docblock.Proofs.Source.Joining
import Docblock.Proofs.Tag.Registry

namespace Docblock
namespace Tag

/-! ### Sections -/

/-- The sections of a block whose fields stand in groups. -/
inductive FieldSection where
  | parameter
  | success
  | error
  | header
  deriving DecidableEq, Repr

namespace FieldSection

/-- The key of the section. -/
def key : FieldSection → String
  | .parameter => "parameter"
  | .success => "success"
  | .error => "error"
  | .header => "header"

/-- The tag of its fields as it is written. -/
def written : FieldSection → String
  | .parameter => "apiParam"
  | .success => "apiSuccess"
  | .error => "apiError"
  | .header => "apiHeader"

/-- The tag of its fields in small letters. -/
def tagName : FieldSection → String
  | .parameter => "apiparam"
  | .success => "apisuccess"
  | .error => "apierror"
  | .header => "apiheader"

/-- The group of the fields that name none. -/
def defaultGroup : FieldSection → String
  | .parameter => "Parameter"
  | .success => "Success 200"
  | .error => "Error 4xx"
  | .header => "Header"

/-- The tag of its fields. -/
def tag (sec : FieldSection) : Tag where
  read := parameterReader sec.defaultGroup
  path := groupedIn sec.key
  markdownFields := if sec = .header then ["description"] else ["description", "type"]
  removePTags := if sec = .header then [] else ["type"]

theorem mem_parameterTags (sec : FieldSection) : (sec.written, sec.tag) ∈ parameterTags := by
  cases sec with
  | parameter => exact .head _
  | success => exact .tail _ (.head _)
  | error => exact .tail _ (.tail _ (.head _))
  | header => exact .tail _ (.tail _ (.tail _ (.head _)))

theorem lower_written (sec : FieldSection) : Text.lower sec.written = sec.tagName := by
  cases sec <;> decide +kernel

/-- The tag comes with the program. -/
theorem find?_builtin (tree : FileTree) (sec : FieldSection) :
    (Registry.builtin tree).find? sec.tagName = some sec.tag := by
  have hmem : (sec.written, sec.tag) ∈ Registry.builtinTags tree := by
    simp only [Registry.builtinTags, List.mem_append, sec.mem_parameterTags, true_or, or_true]
  rw [← sec.lower_written]
  exact Registry.find?_builtin_of_mem hmem

theorem read_tag (sec : FieldSection) (content source : String) (memory : Memory) :
    sec.tag.read content source memory =
      { result := .ok (readParameter sec.defaultGroup content memory).1,
        memory := (readParameter sec.defaultGroup content memory).2 } := by
  simp only [tag, parameterReader]

theorem path_tag (sec : FieldSection) (memory : Memory) :
    sec.tag.path memory = some ("local." ++ sec.key ++ ".fields." ++ memory.paramGroup) := rfl

theorem point_not_mem_key (sec : FieldSection) : '.' ∉ sec.key.toList := by
  cases sec <;> decide

end FieldSection

/-- The group of a field: the one that is written, or the default. -/
theorem exists_match_of_readParameter {defaultGroup content : String} {memory : Memory} {v : Json}
    (h : (readParameter defaultGroup content memory).1 = some v) :
    ∃ m, parameterPattern.find? (oneLine content) = some m ∧
      v.getStr? "group" = some ((restoredNonEmpty m 1).getD defaultGroup) ∧
      (readParameter defaultGroup content memory).2.paramGroup = (restoredNonEmpty m 1).getD defaultGroup := by
  unfold readParameter at h ⊢
  cases hfind : parameterPattern.find? (oneLine content) with
  | none => simp [hfind] at h
  | some m =>
    rw [hfind] at h
    simp only [Option.some.injEq] at h
    subst h
    exact ⟨m, rfl, rfl, rfl⟩

/-- A field that was read names the group that is remembered. -/
theorem getStr?_group_readParameter {defaultGroup content : String} {memory : Memory} {v : Json}
    (h : (readParameter defaultGroup content memory).1 = some v) :
    v.getStr? "group" = some (readParameter defaultGroup content memory).2.paramGroup := by
  obtain ⟨m, -, hgroup, hmemory⟩ := exists_match_of_readParameter h
  rw [hgroup, hmemory]

end Tag

namespace Source

open Reading Tag

/-- The groups of a section of a block. -/
def groupsIn (sec : FieldSection) (b : Block) : Fields :=
  Json.fieldsAt [sec.key, "fields"] (.obj b.own)

theorem noted_tag (sec : FieldSection) (e : Element) (memory : Memory) : noted sec.tag e memory = memory := rfl

/-- What an element of a section does to the data of its block. -/
theorem attachAt_of_readElement {tree : FileTree} {s : Setup} (hs : s.registry = .builtin tree)
    {sec : FieldSection} {e : Element} (he : e.name = sec.tagName) {file : String} {index : Nat}
    {d after : Draft} {memory final : Memory} (hin : leavesOut memory.category e.name = false)
    {v : Json} (hv : (readParameter sec.defaultGroup e.content memory).1 = some v)
    {g : String} (hg : v.getStr? "group" = some g)
    (h : gives (readElement s file index d e) memory = (.ok after, final)) :
    Fields.attach .push (renderFields s sec.tag v) d.block.own (sec.key :: "fields" :: Text.split '.' g) =
      (after.block.own, true) := by
  have hfind : s.registry.find? e.name = some sec.tag := by rw [hs, he, sec.find?_builtin tree]
  rcases readElement_cases h with ⟨-, hskip⟩ | ⟨tag, value, path, hjoins⟩
  · rcases hskip with hskip | hskip
    · rw [hskip] at hin
      cases hin
    · rw [hskip] at hfind
      cases hfind
  · obtain rfl : sec.tag = tag := Option.some.inj (hfind.symm.trans hjoins.found)
    have hread := hjoins.read
    have hleads := hjoins.leads
    rw [noted_tag, FieldSection.read_tag] at hread hleads
    dsimp only at hread hleads
    obtain rfl : v = value := by
      rw [hv] at hread
      exact Option.some.inj (Except.ok.inj hread)
    have hgroup : (readParameter sec.defaultGroup e.content memory).2.paramGroup = g :=
      Option.some.inj ((getStr?_group_readParameter hv).symm.trans hg)
    have hpath : "local." ++ sec.key ++ ".fields." ++ g = path := by
      rw [← hgroup]
      exact Option.some.inj ((sec.path_tag _).symm.trans hleads)
    have hsplit : Text.split '.' path = "local" :: sec.key :: "fields" :: Text.split '.' g := by
      rw [← hpath, Block.split_local_fields g sec.point_not_mem_key]
    obtain ⟨start, block, hown, -, hattach, hafter, -⟩ := hjoins.attached
    rw [← hown, hafter]
    exact Block.attach_local hsplit hattach

/-- **Fields are stored under the pieces of their group.** When an element of a
section has joined a block, the array at the pieces of its group has its field
behind those that were there. A group without a point is one piece, so this is
the array under the group; a group with a point is none of the keys that are
written, and what its name leads to stays as it was. -/
theorem field_stored_under_group {tree : FileTree} {s : Setup} (hs : s.registry = .builtin tree)
    (sec : FieldSection) {e : Element} (he : e.name = sec.tagName) {file : String} {index : Nat}
    {d after : Draft} {memory final : Memory} (hin : leavesOut memory.category e.name = false)
    {v : Json} (hv : (readParameter sec.defaultGroup e.content memory).1 = some v)
    {g : String} (hg : v.getStr? "group" = some g)
    (h : gives (readElement s file index d e) memory = (.ok after, final)) :
    let stored (keys : List String) : Json :=
      .arr (Json.elementsAt keys (.obj (groupsIn sec d.block)) ++ [renderFields s sec.tag v])
    Json.getAt? [sec.key, "fields"] (.obj after.block.own) = some (.obj (groupsIn sec after.block)) ∧
      Json.getAt? (Text.split '.' g) (.obj (groupsIn sec after.block)) = some (stored (Text.split '.' g)) ∧
      (groupsIn sec after.block).get? g =
        if '.' ∈ g.toList then (groupsIn sec d.block).get? g else some (stored [g]) := by
  intro stored
  have hattach := attachAt_of_readElement hs he hin hv hg h
  have hpieces : ∃ first rest, Text.split '.' g = first :: rest ∧
      (if '.' ∈ g.toList then first ≠ g else rest = [] ∧ first = g) := by
    by_cases hpoint : '.' ∈ g.toList
    · obtain ⟨first, next, rest, hsplit, hne⟩ := Text.exists_split_of_mem hpoint
      exact ⟨first, next :: rest, hsplit, by rwa [if_pos hpoint]⟩
    · exact ⟨g, [], Text.split_of_not_mem hpoint, by rw [if_neg hpoint]; exact ⟨rfl, rfl⟩⟩
  obtain ⟨first, rest, hsplit, hfirst⟩ := hpieces
  rw [hsplit] at hattach ⊢
  have hpath : sec.key :: "fields" :: first :: rest = [sec.key, "fields"] ++ first :: rest := rfl
  rw [hpath] at hattach
  obtain ⟨groups, hgroups, hbelow⟩ := Fields.attach_below hattach
  have hafter : groupsIn sec after.block = groups := Json.fieldsAt_of_getAt? hgroups
  have hstored := Fields.getAt?_attachAt_push hbelow
  rw [hafter]
  refine ⟨hgroups, hstored, ?_⟩
  by_cases hpoint : '.' ∈ g.toList
  · rw [if_pos hpoint] at hfirst ⊢
    rw [← Fields.get?_attachAt_of_ne hfirst.symm rest (groupsIn sec d.block), groupsIn, hbelow]
  · rw [if_neg hpoint] at hfirst ⊢
    obtain ⟨rfl, rfl⟩ := hfirst
    rwa [Json.getAt?_singleton] at hstored

/-- A block whose parameters have one field in a group. -/
def startedGroup (group : String) : Draft :=
  { block := { own := [("parameter", .obj [("fields", .obj [(group, .arr [.str "first"])])])] } }

theorem field_stored_under_group_login :
    let s := Setup.builtin ⟨[]⟩
    let e := Element.new "apiParam" "(Login) [name]" "@apiParam (Login) [name]"
    ∃ v after final, (readParameter "Parameter" "(Login) [name]" {}).1 = some v ∧
      gives (readElement s "a.js" 0 (startedGroup "Login") e) {} = (.ok after, final) ∧
      (groupsIn .parameter after.block).get? "Login" = some (.arr [.str "first", v]) := by
  intro s e
  have hread : (readParameter "Parameter" "(Login) [name]" {}).1.bind (·.getStr? "group") = some "Login" := by
    decide +kernel
  obtain ⟨v, hv, hg⟩ := Option.bind_eq_some_iff.mp hread
  have hname : e.name = FieldSection.parameter.tagName := FieldSection.parameter.lower_written
  have hfind : s.registry.find? e.name = some FieldSection.parameter.tag := by
    rw [hname]
    exact FieldSection.find?_builtin ⟨[]⟩ .parameter
  have hjoins : (gives (readElement s "a.js" 0 (startedGroup "Login") e) {}).1.toOption.map
      (fun after => after.block.index) = some 1 := by
    rw [gives_readElement, hfind]
    decide +kernel
  obtain ⟨after, final, h, -⟩ := exists_gives_of_toOption hjoins
  have hstored := (field_stored_under_group (s := s) rfl .parameter hname rfl hv hg h).2.2
  refine ⟨v, after, final, hv, h, hstored.trans ?_⟩
  rfl

theorem dotted_group_not_stored :
    let s := Setup.builtin ⟨[]⟩
    let e := Element.new "apiParam" "(a.b) x" "@apiParam (a.b) x"
    ∃ v after final, (readParameter "Parameter" "(a.b) x" {}).1 = some v ∧ v.getStr? "group" = some "a.b" ∧
      gives (readElement s "a.js" 0 {} e) {} = (.ok after, final) ∧
      (groupsIn .parameter after.block).keys = ["a"] := by
  intro s e
  have hread : (readParameter "Parameter" "(a.b) x" {}).1.bind (·.getStr? "group") = some "a.b" := by
    decide +kernel
  obtain ⟨v, hv, hg⟩ := Option.bind_eq_some_iff.mp hread
  have hfind : s.registry.find? e.name = some FieldSection.parameter.tag := by
    have hname : e.name = FieldSection.parameter.tagName := FieldSection.parameter.lower_written
    rw [hname]
    exact FieldSection.find?_builtin ⟨[]⟩ .parameter
  have hkeys : (gives (readElement s "a.js" 0 {} e) {}).1.toOption.map
      (fun after => (groupsIn .parameter after.block).keys) = some ["a"] := by
    rw [gives_readElement, hfind]
    decide +kernel
  obtain ⟨after, final, h, hafter⟩ := exists_gives_of_toOption hkeys
  exact ⟨v, after, final, hv, hg, h, hafter⟩

end Source
end Docblock
