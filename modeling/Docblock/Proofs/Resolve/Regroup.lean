/-
# Titles regroup the fields

The fields of a section are taken out of their groups, one group after the
other, and each joins the group of its title. Adding them one by one
gives the titles in the order in which they come up, each with its
fields in their order (`gather_eq_byTitle`). So groups of one title become one,
a group whose fields name several groups is split, and since every field has
one title, none is lost and none comes up twice (`contents_byTitle_perm`). The
rest of the block stays as it is (`titles_regroup`).

Key definitions: `Resolve.Shown`, `Resolve.byTitle`, `Resolve.Retitled`.
Key theorems: `Resolve.shown_title`, `Resolve.gather_eq_byTitle`,
`Resolve.contents_byTitle_perm`, `Resolve.titles_regroup`.
-/
import Docblock.Proofs.Resolve.Fact
import Mathlib.Data.List.Induction

namespace Docblock
namespace Resolve

open Fields

/-! ### The title of a name -/

/-- What a name is shown as: the title of the definition that it leads to, if
there is one and its title is a text that is not empty, and else the name. -/
inductive Shown (name : String) : Option Definition → String → Prop
  | undefined : Shown name none name
  | titled {d : Definition} {title : String} : d.define.getStr? "title" = some title → title ≠ "" →
    Shown name (some d) title
  | untitled {d : Definition} : (∀ title, d.define.getStr? "title" = some title → title = "") →
    Shown name (some d) name

theorem shown_title (name : String) (d : Definition) : Shown name (some d) (d.title name) := by
  unfold Definition.title
  cases htitle : d.define.getStr? "title" with
  | none => exact .untitled fun _ h => by rw [htitle] at h; cases h
  | some title =>
    by_cases hempty : title = ""
    · subst hempty
      exact .untitled fun _ h => by rw [htitle] at h; exact (Option.some.inj h).symm
    · have hkept : (some title).filter (fun title => !title.isEmpty) = some title := by simp [hempty]
      rw [hkept]
      exact .titled htitle hempty

/-! ### Fields by title -/

variable {title : Json → String}

/-- The titles in the order in which they come up, each with its fields. -/
def byTitle (title : Json → String) (fields : List Json) : Fields :=
  (fields.map title).eraseDups.map fun t => (t, .arr (fields.filter fun field => title field == t))

theorem gather_concat (title : Json → String) (fields : List Json) (field : Json) :
    gather title (fields ++ [field]) = addToGroup (title field) field (gather title fields) := List.foldl_concat ..

theorem holdLists_gather (title : Json → String) (fields : List Json) : HoldLists (gather title fields) := by
  induction fields using List.reverseRecOn with
  | nil => exact holdLists_nil
  | append_singleton fields field ih =>
    rw [gather_concat]
    exact (ih.addToGroup _ _).1

theorem keys_byTitle (title : Json → String) (fields : List Json) :
    keys (byTitle title fields) = (fields.map title).eraseDups := by
  rw [keys, byTitle, List.map_map]
  exact List.map_id _

theorem get?_byTitle (title : Json → String) (t : String) (fields : List Json) :
    get? t (byTitle title fields) =
      if t ∈ fields.map title then some (.arr (fields.filter fun field => title field == t)) else none := by
  rw [byTitle, get?_map_pair fun t => .arr (fields.filter fun field => title field == t)]
  simp only [List.mem_eraseDups]

/-- One more field joins the group of its title, or is the first of a new one. -/
theorem byTitle_concat {fields : List Json} (hd : Distinct (byTitle title fields)) (field : Json) :
    byTitle title (fields ++ [field]) = addToGroup (title field) field (byTitle title fields) := by
  have hkeys := keys_byTitle title fields
  rw [Distinct, hkeys] at hd
  rw [addToGroup, get?_byTitle]
  by_cases hmem : title field ∈ fields.map title
  · have hold : title field ∈ (fields.map title).eraseDups := List.mem_eraseDups.mpr hmem
    have htitles : ((fields ++ [field]).map title).eraseDups = (fields.map title).eraseDups := by
      rw [List.map_append, List.map_singleton, eraseDups_concat, if_pos hmem, List.append_nil]
    rw [if_pos hmem, byTitle, htitles, byTitle,
      set_map_pair (fun t => .arr (fields.filter fun f => title f == t)) _ hd hold]
    refine List.map_congr_left fun t _ => ?_
    by_cases ht : t = title field
    · simp [ht, Json.arr?]
    · simp [ht, Ne.symm ht]
  · have hnew : title field ∉ keys (byTitle title fields) := by rwa [hkeys, List.mem_eraseDups]
    have htitles : ((fields ++ [field]).map title).eraseDups = (fields.map title).eraseDups ++ [title field] := by
      rw [List.map_append, List.map_singleton, eraseDups_concat, if_neg hmem]
    have hempty : fields.filter (fun f => title f == title field) = [] := by simpa using hmem
    have hset := set_append_of_not_mem (.arr [field]) [] hnew
    rw [List.append_nil] at hset
    rw [if_neg hmem, Option.bind_none, Option.getD_none, List.nil_append, hset, byTitle, htitles, List.map_append]
    congr 1
    · refine List.map_congr_left fun t ht => ?_
      have hne : title field ≠ t := fun heq => hmem (List.mem_eraseDups.mp (heq ▸ ht))
      simp [hne]
    · simp [hempty, Fields.set]

/-- **Adding fields one by one sorts them by title.** -/
theorem gather_eq_byTitle (title : Json → String) (fields : List Json) :
    gather title fields = byTitle title fields := by
  induction fields using List.reverseRecOn with
  | nil => rfl
  | append_singleton fields field ih =>
    have hd := (holdLists_gather title fields).1
    rw [ih] at hd
    rw [gather_concat, ih, byTitle_concat hd]

/-- Sorting fields by titles that each of them has one of keeps every field. -/
theorem flatMap_filter_perm : ∀ {titles : List String} {fields : List Json}, titles.Nodup →
    (∀ field ∈ fields, title field ∈ titles) →
    (titles.flatMap fun t => fields.filter fun field => title field == t).Perm fields
  | [], fields, _, h => by
    have hnil : fields = [] := List.eq_nil_iff_forall_not_mem.mpr fun field hfield => List.not_mem_nil (h field hfield)
    rw [hnil]
    exact .refl _
  | t :: titles, fields, hd, h => by
    obtain ⟨ht, hd⟩ := List.nodup_cons.mp hd
    have hothers : ∀ field ∈ fields.filter (fun field => !(title field == t)), title field ∈ titles := by
      intro field hfield
      obtain ⟨hmem, hne⟩ := List.mem_filter.mp hfield
      exact (List.mem_cons.mp (h field hmem)).resolve_left (by simpa using hne)
    -- the fields of the other titles are not among those of this one
    have hsame : (titles.flatMap fun u => fields.filter fun field => title field == u) =
        titles.flatMap fun u => (fields.filter fun field => !(title field == t)).filter fun field => title field == u := by
      refine List.flatMap_congr fun u hu => ?_
      have hne : u ≠ t := fun heq => ht (heq ▸ hu)
      rw [List.filter_filter]
      refine List.filter_congr fun field _ => ?_
      by_cases hfield : title field = u <;> simp [hfield, hne]
    rw [List.flatMap_cons, hsame]
    exact ((flatMap_filter_perm hd hothers).append_left _).trans
      (List.filter_append_perm (fun field => title field == t) fields)

/-- **No field is lost, and none comes up twice.** -/
theorem contents_byTitle_perm (title : Json → String) (fields : List Json) :
    (contents (byTitle title fields)).Perm fields := by
  have hd := (holdLists_gather title fields).1
  rw [gather_eq_byTitle, Distinct, keys_byTitle] at hd
  rw [contents, byTitle, List.flatMap_map]
  exact flatMap_filter_perm hd fun field hfield => List.mem_eraseDups.mpr (List.mem_map_of_mem hfield)

/-! ### Titles of fields -/

variable {c : Context} {b : Block}

/-- The look-up of the group of a field finds a definition, or the group is
unknown. -/
def Leads (c : Context) (b : Block) (field : Json) : Prop := ∃ d?, c.find b (groupOf field) = .ok d?

/-- The title of the group of a field, where the look-up does not fail. -/
def titleFor (c : Context) (b : Block) (field : Json) : String :=
  (titleOf c b (groupOf field)).toOption.getD (groupOf field)

theorem titleOf_groupOf {field : Json} (h : Leads c b field) :
    titleOf c b (groupOf field) = .ok (titleFor c b field) := by
  obtain ⟨d?, hfind⟩ := h
  rw [titleFor, titleOf_of_find hfind]
  rfl

theorem shown_titleFor {field : Json} {d? : Option Definition} (h : c.find b (groupOf field) = .ok d?) :
    Shown (groupOf field) d? (titleFor c b field) := by
  rw [titleFor, titleOf_of_find h]
  cases d? with
  | none => exact .undefined
  | some d => exact shown_title _ d

/-- A field of a plain list, before and after: an entry for which there is a
definition has the title in the place of the name of its group, and everything
else is as it was. -/
inductive Retitled (c : Context) (b : Block) : Json → Json → Prop
  | titled {entry : Fields} {d : Definition} {title : String} :
    c.find b (groupOf (.obj entry)) = .ok (some d) → Shown (groupOf (.obj entry)) (some d) title →
    Retitled c b (.obj entry) (.obj (entry.set "group" (.str title)))
  | undefined {field : Json} : c.find b (groupOf field) = .ok none → Retitled c b field field
  | noEntry {field : Json} : field.obj? = none → Retitled c b field field

theorem exists_titledField {field : Json} (h : Leads c b field) :
    ∃ after, titledField c b field = .ok after ∧ Retitled c b field after := by
  obtain ⟨d?, hfind⟩ := h
  rw [titledField, hfind]
  cases d? with
  | none => exact ⟨field, rfl, .undefined hfind⟩
  | some d =>
    cases field with
    | obj entry => exact ⟨_, rfl, .titled hfind (shown_title _ d)⟩
    | _ => exact ⟨_, rfl, .noEntry rfl⟩

theorem exists_mapM_titledField : ∀ {fields : List Json}, (∀ field ∈ fields, Leads c b field) →
    ∃ titled, fields.mapM (titledField c b) = .ok titled ∧ List.Forall₂ (Retitled c b) fields titled
  | [], _ => ⟨[], rfl, .nil⟩
  | field :: fields, h => by
    rw [List.forall_mem_cons] at h
    obtain ⟨after, hafter, hretitled⟩ := exists_titledField h.1
    obtain ⟨titled, htitled, hall⟩ := exists_mapM_titledField h.2
    refine ⟨after :: titled, ?_, .cons hretitled hall⟩
    rw [List.mapM_cons, hafter, htitled]
    rfl

/-- **Titles regroup the fields of a section.** Each field has a title: that of
the definition to which its group leads, or the name of its group. If the groups
are lists and no look-up fails, the groups afterwards are these titles in the
order in which they come up, each with its fields in their order; together they
are the same fields; and the rest of the block stays as it is. A plain list keeps
its length and its order, and no field changes but in its group. If a look-up
fails, nothing changes. -/
theorem titles_regroup (c : Context) (target : String) (b : Block) :
    (∀ part groups : Fields, b.own.get? target = some (.obj part) → part.get? "fields" = some (.obj groups) →
      (∀ field ∈ contents groups, ∃ d?, c.find b (groupOf field) = .ok d?) →
      ∃ title : Json → String,
        (∀ field ∈ contents groups, ∃ d?, c.find b (groupOf field) = .ok d? ∧
          Shown (groupOf field) d? (title field)) ∧
        titles c target b = ({ b with own := b.own.set target (.obj (part.set "fields"
          (.obj (byTitle title (contents groups))))) }, none) ∧
        (contents (byTitle title (contents groups))).Perm (contents groups)) ∧
    (∀ fields, b.own.get? target = some (.arr fields) →
      (∀ field ∈ fields, ∃ d?, c.find b (groupOf field) = .ok d?) →
      ∃ titled, titles c target b = ({ b with own := b.own.set target (.arr titled) }, none) ∧
        List.Forall₂ (Retitled c b) fields titled) ∧
    ((titles c target b).2 ≠ none → (titles c target b).1 = b) := by
  refine ⟨fun part groups htarget hfields hleads => ?_, fun fields htarget hleads => ?_, fun hfault => ?_⟩
  · refine ⟨titleFor c b, fun field hfield => ?_, ?_, contents_byTitle_perm _ _⟩
    · obtain ⟨d?, hfind⟩ := hleads field hfield
      exact ⟨d?, hfind, shown_titleFor hfind⟩
    · unfold titles
      simp only [htarget, hfields, Option.bind_some, Json.obj?]
      rw [← contents, regroup_eq_gather fun field hfield => titleOf_groupOf (hleads field hfield), gather_eq_byTitle]
      rfl
  · obtain ⟨titled, hmap, hall⟩ := exists_mapM_titledField hleads
    refine ⟨titled, ?_, hall⟩
    unfold titles
    simp only [htarget]
    rw [hmap]
    rfl
  · unfold titles at hfault ⊢
    split at hfault
    · exact withOwn_of_fault hfault
    · split at hfault
      · exact absurd rfl hfault
      · exact withOwn_of_fault hfault
    · exact absurd rfl hfault

/-- `Login` and `Auth` have one title, and `Plain` has an empty one. -/
def accountContext : Context where
  definitions := ⟨[("Login", "Account"), ("Auth", "Account"), ("Plain", "")].map fun (name, title) =>
    (name, [⟨"1.0.0", .obj [("title", .str title)], []⟩])⟩
  defaultVersion := "1.0.0"
  sampleUrl := none

/-- A field that names a group. -/
def fieldIn (group name : String) : Json := .obj [("group", .str group), ("field", .str name)]

/-- Groups of parameters: one has the title of two others as its name, and one
has a field that names another group. -/
def accountGroups : Fields := [
  ("Login", .arr [fieldIn "Login" "user", fieldIn "Other" "note"]),
  ("Account", .arr [fieldIn "Account" "id"]),
  ("Auth", .arr [fieldIn "Auth" "token"]),
  ("Plain", .arr [fieldIn "Plain" "x"])]

/-- These groups with the titles of their fields. -/
def accountTitles : Fields := [
  ("Account", .arr [fieldIn "Login" "user", fieldIn "Account" "id", fieldIn "Auth" "token"]),
  ("Other", .arr [fieldIn "Other" "note"]),
  ("Plain", .arr [fieldIn "Plain" "x"])]

/-- The parameters stand in groups, and the fields of the body in a plain list. -/
def accountBlock (groups : Fields) (body : List Json) : Block where
  own := [("parameter", .obj [("fields", .obj groups)]), ("body", .arr body)]

theorem titles_regroup_account :
    let body := [fieldIn "Auth" "token", fieldIn "Other" "note"]
    let b := accountBlock accountGroups body
    titles accountContext "parameter" b = (accountBlock accountTitles body, none) ∧
      (contents accountTitles).Perm (contents accountGroups) ∧
      ∃ titled, titles accountContext "body" b = (accountBlock accountGroups titled, none) ∧
        List.Forall₂ (Retitled accountContext b) body titled := by
  intro body b
  obtain ⟨title, -, hafter, hperm⟩ := (titles_regroup accountContext "parameter" b).1 _ accountGroups rfl rfl
    (by simp only [contents, accountGroups, List.flatMap_cons, List.flatMap_nil, List.forall_mem_append,
          List.forall_mem_cons, Json.arr?, Option.getD_some]
        exact ⟨⟨⟨_, rfl⟩, ⟨_, rfl⟩, by simp⟩, ⟨⟨_, rfl⟩, by simp⟩, ⟨⟨_, rfl⟩, by simp⟩, ⟨⟨_, rfl⟩, by simp⟩, by simp⟩)
  obtain ⟨titled, hplain, hall⟩ := (titles_regroup accountContext "body" b).2.1 body rfl
    (by simp only [body, List.forall_mem_cons]
        exact ⟨⟨_, rfl⟩, ⟨_, rfl⟩, by simp⟩)
  have hrun : titles accountContext "parameter" b = (accountBlock accountTitles body, none) := rfl
  have htitles : byTitle title (contents accountGroups) = accountTitles := by
    have hown := congrArg (fun r : Result => r.1.own.get? "parameter") (hafter.symm.trans hrun)
    simpa [get?_set_self, accountBlock, Fields.get?, Fields.set] using hown
  exact ⟨hrun, htitles ▸ hperm, titled, hplain, hall⟩

end Resolve
end Docblock
