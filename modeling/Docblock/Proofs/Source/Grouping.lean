/-
# Groups that keep their names

A text without definitions leaves the table of definitions empty, so setting
titles sorts the fields of each section anew, and changes nothing if and only
if each group is a list of fields that name it. The tags keep it so, element by
element (`Joins.sectionsGrouped`), with two exceptions: a group with a point is
taken apart, and fields that are taken from an OpenAPI document name another
group than the one they stand in.

Key definitions: `Resolve.SectionsGrouped`, `Source.PlainGroup`.
Key theorems: `Source.Joins.sectionsGrouped`,
`Source.undefined_groups_keep_names`.
-/
import Docblock.Proofs.Tag.Place

namespace Docblock

/-- Replacing what stands at a place keeps the keys, and all but the first key
of the place as it is. -/
theorem Json.exists_setAt (new : Json) (key : String) (keys : List String) (fields : Fields) :
    ∃ after : Fields, setAt new (key :: keys) (.obj fields) = .obj after ∧ after.keys = fields.keys ∧
      ∀ other, other ≠ key → after.get? other = fields.get? other := by
  rw [setAt]
  cases hkey : Fields.get? key fields with
  | none => exact ⟨fields, rfl, rfl, fun _ _ => rfl⟩
  | some v =>
    refine ⟨_, rfl, Fields.keys_set_of_contains key _ fields ?_, fun other hne => Fields.get?_set_of_ne _ hne _⟩
    rw [Fields.contains, hkey]
    rfl

namespace Resolve

open Fields

/-! ### Sections that are grouped -/

/-- All sections are grouped. -/
def SectionsGrouped (own : Fields) : Prop := ∀ target ∈ titleTargets, SectionGrouped target own

theorem point_not_mem_target : ∀ {target : String}, target ∈ titleTargets → '.' ∉ target.toList := by
  have hall : ∀ target ∈ titleTargets, '.' ∉ target.toList := by decide
  exact fun {target} => hall target

theorem SectionGrouped.congr {target : String} {own after : Fields} (h : SectionGrouped target own)
    (hsame : after.get? target = own.get? target) : SectionGrouped target after := by
  intro groups hgroups
  refine h groups ?_
  rwa [Json.getAt?_cons, hsame] at hgroups

/-- The groups of a grouped section are grouped, also if there are none yet. -/
theorem SectionGrouped.fieldsAt {target : String} {own : Fields} (h : SectionGrouped target own) :
    Grouped (Json.fieldsAt [target, "fields"] (.obj own)) := by
  rw [Json.fieldsAt]
  cases hat : Json.getAt? [target, "fields"] (.obj own) with
  | none => exact grouped_nil
  | some v =>
    cases v with
    | obj groups => exact h groups hat
    | _ => exact grouped_nil

/-- Attaching below a key leaves the sections of the other keys as they are. -/
theorem SectionsGrouped.attach {method : Method} {value : Json} {key : String} {keys : List String}
    {own after : Fields} (hown : SectionsGrouped own)
    (h : Fields.attach method value own (key :: keys) = (after, true))
    (hkey : key ∈ titleTargets → SectionGrouped key after) : SectionsGrouped after := by
  intro target htarget
  by_cases hne : target = key
  · subst hne
    exact hkey htarget
  · refine SectionGrouped.congr (hown target htarget) ?_
    rw [← get?_attachAt_of_ne hne keys own, ← Fields.attach, h]

/-- The examples of a section stand beside its fields. -/
theorem SectionGrouped.attach_examples {value : Json} {key : String} {own after : Fields}
    (hown : SectionGrouped key own)
    (h : Fields.attach .push value own [key, "examples"] = (after, true)) : SectionGrouped key after := by
  have hpath : [key, "examples"] = [key] ++ "examples" :: [] := rfl
  rw [hpath] at h
  obtain ⟨below, hbelow, hexamples⟩ := attach_below h
  intro groups hgroups
  have hfields : (Json.fieldsAt [key] (.obj own)).get? "fields" = some (.obj groups) := by
    have hsplit : [key, "fields"] = [key] ++ ["fields"] := rfl
    rw [hsplit, Json.getAt?_append, hbelow, Option.bind_some, Json.getAt?_singleton,
      attachAt_push_nil hexamples, get?_set_of_ne _ (by decide)] at hgroups
    exact hgroups
  refine hown groups ?_
  rw [Json.fieldsAt, Json.getAt?_singleton] at hfields
  rw [Json.getAt?_cons]
  cases hkey : own.get? key with
  | none =>
    rw [hkey] at hfields
    cases hfields
  | some part =>
    rw [hkey] at hfields
    cases part with
    | obj part =>
      rw [Option.bind_some, Json.getAt?_singleton]
      exact hfields
    | _ => cases hfields

/-- A field that names its group joins it. -/
theorem SectionGrouped.attach_field {value : Json} {key group : String} {own after : Fields}
    (hown : SectionGrouped key own) (hvalue : groupOf value = group)
    (h : Fields.attach .push value own [key, "fields", group] = (after, true)) : SectionGrouped key after := by
  have hpath : [key, "fields", group] = [key, "fields"] ++ group :: [] := rfl
  rw [hpath] at h
  obtain ⟨below, hbelow, hfield⟩ := attach_below h
  intro groups hgroups
  obtain rfl : below = groups := by
    rw [hgroups] at hbelow
    simpa using hbelow.symm
  rw [attachAt_push_nil hfield, Json.elementsAt, Json.getAt?_singleton]
  exact hown.fieldsAt.set (by simp) (by simpa using hvalue)

end Resolve

namespace Source

open Fields Reading Resolve Tag

/-! ### Rendering -/

/-- Rendering keeps the keys of a value, and what no Markdown field names. -/
theorem exists_renderFields (s : Setup) (tag : Tag) (fields : Fields) :
    ∃ after : Fields, renderFields s tag (.obj fields) = .obj after ∧ after.keys = fields.keys ∧
      ∀ key, (∀ field ∈ tag.markdownFields, (Text.split '.' field).head? ≠ some key) →
        after.get? key = fields.get? key := by
  unfold renderFields
  cases s.markdown with
  | none => exact ⟨fields, rfl, rfl, fun _ _ => rfl⟩
  | some render =>
    dsimp only
    generalize tag.markdownFields = names
    induction names generalizing fields with
    | nil => exact ⟨fields, rfl, rfl, fun _ _ => rfl⟩
    | cons name names ih =>
      rw [List.foldl_cons]
      split
      · obtain ⟨after, hafter, hkeys, hsame⟩ := ih fields
        exact ⟨after, hafter, hkeys, fun key h => hsame key (List.forall_mem_cons.mp h).2⟩
      · next text _ =>
        obtain ⟨first, rest, hsplit⟩ : ∃ first rest, Text.split '.' name = first :: rest :=
          List.exists_cons_of_ne_nil (by simp [Text.split, Text.splitBy, Text.splitChars_ne_nil])
        obtain ⟨between, hbetween, hkeys, hsame⟩ := Json.exists_setAt
          (.str (Markdown.renderField render text (tag.removePTags.contains name))) first rest fields
        obtain ⟨after, hafter, hkeys', hsame'⟩ := ih between
        rw [Json.setPath, hsplit, hbetween]
        refine ⟨after, hafter, hkeys'.trans hkeys, fun key h => ?_⟩
        rw [List.forall_mem_cons, hsplit, List.head?_cons] at h
        exact (hsame' key h.2).trans (hsame key fun heq => h.1 (congrArg some heq.symm))

/-- Rendering description and type keeps the group. -/
theorem getStr?_group_renderFields (s : Setup) {tag : Tag} {value : Json} {group : String}
    (h : ∀ field ∈ tag.markdownFields, field ∈ ["description", "type"]) (hgroup : value.getStr? "group" = some group) :
    (renderFields s tag value).getStr? "group" = some group := by
  cases value with
  | obj fields =>
    obtain ⟨after, hafter, -, hsame⟩ := exists_renderFields s tag fields
    have hkept : after.get? "group" = Fields.get? "group" fields := by
      refine hsame "group" fun field hfield => ?_
      have hnames : ∀ field ∈ ["description", "type"], (Text.split '.' field).head? ≠ some "group" := by decide
      exact hnames field (h field hfield)
    rw [hafter, Json.getStr?, Json.get?, hkept]
    exact hgroup
  | _ => cases hgroup

/-! ### What an element keeps -/

/-- Where the element stores a field of a section under its group, the group
has no point. -/
def PlainGroup (s : Setup) (e : Element) : Prop :=
  ∀ tag memory value target group, s.registry.find? e.name = some tag →
    (tag.read e.content e.source memory).result = .ok (some value) → value.getStr? "group" = some group →
    tag.path (tag.read e.content e.source memory).memory = some ("local." ++ target ++ ".fields." ++ group) →
    target ∈ titleTargets → '.' ∉ group.toList

variable {s : Setup} {e : Element} {memory : Memory} {tag : Tag} {d after : Draft} {value : Json} {path : String}

/-- An element whose tag has a place joins the data of the endpoint. -/
theorem Joins.exists_split_local {name : String} (h : Joins s e memory tag d after value path)
    (hplace : Place name tag) : ∃ keys, Text.split '.' path = "local" :: keys := by
  have hleads := h.leads
  cases hplace with
  | whole hpath =>
    rw [hpath] at hleads
    cases hleads
    exact ⟨[], by decide⟩
  | beside hpath =>
    obtain ⟨key, more, hsplit, -⟩ := exists_of_isBeside (hpath hleads)
    exact ⟨_, hsplit⟩
  | listed key _ hpath => exact ⟨_, hpath hleads⟩
  | examples key _ hpath => exact ⟨_, hpath hleads⟩
  | grouped key hkey _ _ hpath =>
    obtain ⟨group, -, hgroup⟩ := hpath h.read
    rw [hgroup] at hleads
    cases hleads
    exact ⟨_, Block.split_local_fields group (point_not_mem_target hkey)⟩

/-- An element whose tag has a place leaves what the block shares. -/
theorem Joins.shared_eq {name : String} (h : Joins s e memory tag d after value path) (hplace : Place name tag) :
    after.block.shared = d.block.shared := by
  obtain ⟨keys, hsplit⟩ := h.exists_split_local hplace
  obtain ⟨start, block, -, hshared, hattach, -, hafter⟩ := h.attached
  have hkept := Block.shared_attach_local (b := start) tag.method (renderFields s tag value) hsplit
  rw [hafter, ← hshared, ← hkept, hattach]

/-- **What an element keeps.** Sections that are grouped stay grouped, unless
the fields come from a document or their group has a point. -/
theorem Joins.sectionsGrouped {name : String} (h : Joins s e memory tag d after value path)
    (hplace : Place name tag) (hname : name ≠ "openapi") (hplain : PlainGroup s e)
    (hown : SectionsGrouped d.block.own) : SectionsGrouped after.block.own := by
  obtain ⟨start, block, hstart, -, hattach, hafter, -⟩ := h.attached
  have hleads := h.leads
  rw [← hstart] at hown
  rw [hafter]
  cases hplace with
  | whole hpath hapart =>
    rw [hpath] at hleads
    cases hleads
    obtain ⟨new, hmethod, hnew, hsetAll⟩ := Block.attach_here (by decide) hattach
    obtain ⟨fields, rfl, hfields⟩ := hapart hname hmethod _ _ _ _ h.read
    obtain ⟨rendered, hrendered, hkeys, -⟩ := exists_renderFields s tag fields
    obtain rfl : rendered = new := Json.obj.inj (hrendered.symm.trans hnew)
    rw [hsetAll]
    intro target htarget
    refine SectionGrouped.congr (hown target htarget) (get?_setAll_of_not_mem fun hmem => ?_)
    rw [hkeys] at hmem
    exact hfields target hmem htarget
  | beside hpath =>
    obtain ⟨key, more, hsplit, hkey⟩ := exists_of_isBeside (hpath hleads)
    exact hown.attach (Block.attach_local hsplit hattach) fun hmem => absurd hmem hkey
  | listed key hmethod hpath =>
    rw [hmethod] at hattach
    have hpush := Block.attach_local (hpath hleads) hattach
    refine hown.attach hpush fun _ groups hgroups => ?_
    -- a list has no fields
    rw [attachAt_push_nil hpush, Json.getAt?_cons, get?_set_self] at hgroups
    cases hgroups
  | examples key hmethod hpath =>
    rw [hmethod] at hattach
    have hpush := Block.attach_local (hpath hleads) hattach
    exact hown.attach hpush fun hkey => (hown key hkey).attach_examples hpush
  | grouped key hkey hmethod hmarkdown hpath =>
    obtain ⟨group, hgroup, hgroupPath⟩ := hpath h.read
    have hpoint : '.' ∉ group.toList := hplain tag _ value key group h.found h.read hgroup hgroupPath hkey
    have hsplit : Text.split '.' path = ["local", key, "fields", group] := by
      rw [hgroupPath] at hleads
      cases hleads
      rw [Block.split_local_fields group (point_not_mem_target hkey), Text.split_of_not_mem hpoint]
    rw [hmethod] at hattach
    have hpush := Block.attach_local hsplit hattach
    have hrendered : groupOf (renderFields s tag value) = group := by
      rw [groupOf, getStr?_group_renderFields s hmarkdown hgroup]
      rfl
    exact hown.attach hpush fun _ => (hown key hkey).attach_field hrendered hpush

/-! ### Texts -/

/-- Each tag that is found, but for the definition of shared data, has a place. -/
theorem exists_place {tree : FileTree} (hs : s.registry = .builtin tree) {name : String}
    (hfound : s.registry.find? name = some tag) (hname : name ≠ "apidefine") :
    ∃ written, Place written tag ∧ Text.lower written = name := by
  rw [hs] at hfound
  obtain ⟨written, hmem, hlower⟩ := Registry.exists_mem_builtinTags hfound
  refine ⟨written, place_of_mem_builtinTags hmem fun hdefine => hname ?_, hlower⟩
  rw [← hlower, hdefine]
  decide +kernel

variable {file text : String} {final : Memory} {blocks : List Block}

/-- Without a definition in the text, nothing is shared. -/
theorem shared_eq_nil_of_readText {tree : FileTree} (hs : s.registry = .builtin tree)
    (h : gives (readText s file text) memory = (.ok (some blocks), final))
    (hdefine : ∀ comment ∈ commentsOf s file text, ∀ e ∈ elementsOf s file comment, e.name ≠ "apidefine") :
    ∀ b ∈ blocks, b.shared = [] := by
  intro b hb
  obtain ⟨comment, hcomment, index, start, last, d, hread, rfl⟩ := exists_comment_of_readText h b hb
  refine readBlock_keeps (P := fun d => d.block.shared = []) (fun e he d memory after final hd hstep => ?_) hread rfl
  rcases readElement_cases hstep with ⟨rfl, -⟩ | ⟨tag, value, path, hjoins⟩
  · exact hd
  · obtain ⟨written, hplace, -⟩ := exists_place hs hjoins.found (hdefine comment hcomment e he)
    rw [hjoins.shared_eq hplace, hd]

/-- Without definitions and documents, and with plain groups, all sections are
grouped. -/
theorem sectionsGrouped_of_readText {tree : FileTree} (hs : s.registry = .builtin tree)
    (h : gives (readText s file text) memory = (.ok (some blocks), final))
    (hdefine : ∀ comment ∈ commentsOf s file text, ∀ e ∈ elementsOf s file comment, e.name ≠ "apidefine")
    (hplain : ∀ comment ∈ commentsOf s file text, ∀ e ∈ elementsOf s file comment,
      e.name ≠ "openapi" ∧ PlainGroup s e) :
    ∀ b ∈ blocks, SectionsGrouped b.own := by
  intro b hb
  obtain ⟨comment, hcomment, index, start, last, d, hread, rfl⟩ := exists_comment_of_readText h b hb
  have hempty : SectionsGrouped ({} : Draft).block.own := fun target _ groups hgroups => by cases hgroups
  refine readBlock_keeps (P := fun d => SectionsGrouped d.block.own)
    (fun e he d memory after final hd hstep => ?_) hread hempty
  rcases readElement_cases hstep with ⟨rfl, -⟩ | ⟨tag, value, path, hjoins⟩
  · exact hd
  · obtain ⟨written, hplace, hlower⟩ := exists_place hs hjoins.found (hdefine comment hcomment e he)
    obtain ⟨hname, hgroup⟩ := hplain comment hcomment e he
    refine hjoins.sectionsGrouped hplace (fun hopen => hname ?_) hgroup hd
    rw [← hlower, hopen]
    decide +kernel

theorem definitions_of_shared_nil (p : Package) (h : ∀ b ∈ blocks, b.shared = []) :
    (contextOf p [blocks]).definitions.byName = [] := by
  have hnone : blocks.filterMap (Definitions.ofBlock? p.defaultVersion) = [] := by
    rw [List.filterMap_eq_nil_iff]
    intro b hb
    rw [Definitions.ofBlock?, h b hb]
    rfl
  simp [contextOf, Definitions.collect, hnone]

/-- **Groups without a definition keep their names, if they are grouped.** A
text without definitions leaves the table of definitions empty. Then a section
of a block is left unchanged if and only if each of its groups is a list of
fields that name it; so it is, and all stages that set titles change nothing,
if no element reads a document and no field is stored under a group with a
point. -/
theorem undefined_groups_keep_names {tree : FileTree} (hs : s.registry = .builtin tree)
    (h : gives (readText s file text) memory = (.ok (some blocks), final))
    (hdefine : ∀ comment ∈ commentsOf s file text, ∀ e ∈ elementsOf s file comment, e.name ≠ "apidefine")
    (p : Package) :
    (contextOf p [blocks]).definitions = {} ∧
    (∀ b ∈ blocks, ∀ target,
      titles (contextOf p [blocks]) target b = (b, none) ↔ SectionGrouped target b.own) ∧
    ((∀ comment ∈ commentsOf s file text, ∀ e ∈ elementsOf s file comment,
        e.name ≠ "openapi" ∧ PlainGroup s e) →
      (runStages p [file] titleStages [blocks]).files = [blocks] ∧
        (runStages p [file] titleStages [blocks]).fault = none) := by
  have hnone := definitions_of_shared_nil p (shared_eq_nil_of_readText hs h hdefine)
  refine ⟨congrArg Definitions.mk hnone, fun b _ target => titles_eq_self_iff hnone target b, fun hplain => ?_⟩
  have hgrouped := sectionsGrouped_of_readText hs h hdefine hplain
  have hrun : (runNamed p titleStages [(blocks, file)]).files = [blocks] ∧
      (runNamed p titleStages [(blocks, file)]).fault = none := by
    refine runNamed_of_unchanged fun stage hstage x hx b hb => ?_
    obtain rfl : x = (blocks, file) := List.mem_singleton.mp hx
    obtain ⟨target, htarget, haction⟩ := exists_target_of_mem_titleStages hstage
    rw [haction]
    exact (titles_eq_self_iff hnone target b).mpr (hgrouped b hb target htarget)
  exact hrun

/-- A text with one comment, in which a tag stands with its text. -/
def oneTag (tag content : String) : String := "/**@" ++ tag ++ " " ++ content ++ "*/"

/-- The element of such a text. -/
def oneElement (tag content : String) : Element := Element.new tag content ("@" ++ tag ++ " " ++ content)

theorem undefined_groups_keep_names_login :
    let s := Setup.builtin ⟨[]⟩
    let text := oneTag "apiParam" "(Login) [name]"
    ∃ blocks final, gives (readText s "a.js" text) {} = (.ok (some blocks), final) ∧
      (runStages {} ["a.js"] titleStages [blocks]).files = [blocks] := by
  intro s text
  have hcut : (commentsOf s "a.js" text).map (elementsOf s "a.js") = [[oneElement "apiParam" "(Login) [name]"]] := by
    decide +kernel
  have hname : (oneElement "apiParam" "(Login) [name]").name = FieldSection.parameter.tagName :=
    FieldSection.parameter.lower_written
  have hfind : s.registry.find? (oneElement "apiParam" "(Login) [name]").name = some FieldSection.parameter.tag := by
    rw [hname]
    exact FieldSection.find?_builtin ⟨[]⟩ .parameter
  have hread : (gives (readText s "a.js" text) {}).1.toOption.any Option.isSome = true := by
    rw [gives_readText_of_single hcut (by decide +kernel), gives_readElement, hfind]
    decide +kernel
  have hall : ∀ comment ∈ commentsOf s "a.js" text, ∀ e ∈ elementsOf s "a.js" comment,
      e = oneElement "apiParam" "(Login) [name]" := by
    intro comment hcomment e he
    have hmem : elementsOf s "a.js" comment ∈ (commentsOf s "a.js" text).map (elementsOf s "a.js") :=
      List.mem_map_of_mem hcomment
    rw [hcut, List.mem_singleton] at hmem
    rw [hmem] at he
    exact List.mem_singleton.mp he
  rcases h : gives (readText s "a.js" text) {} with ⟨_ | _ | blocks, final⟩
  · rw [h] at hread
    cases hread
  · rw [h] at hread
    cases hread
  · refine ⟨blocks, final, rfl, ((undefined_groups_keep_names (s := s) rfl h ?_ {}).2.2 ?_).1⟩
    · intro comment hcomment e he
      rw [hall comment hcomment e he, hname]
      decide
    · intro comment hcomment e he
      obtain rfl := hall comment hcomment e he
      refine ⟨by rw [hname]; decide, fun tag memory value target group hfound hvalue hgroup _ _ => ?_⟩
      obtain rfl : FieldSection.parameter.tag = tag := Option.some.inj (hfind.symm.trans hfound)
      rw [FieldSection.read_tag] at hvalue
      obtain ⟨m, hm, hgroupOf, -⟩ := exists_match_of_readParameter (Except.ok.inj hvalue)
      have hpoint : ∀ m ∈ parameterPattern.find? (oneLine "(Login) [name]"),
          '.' ∉ ((restoredNonEmpty m 1).getD "Parameter").toList := by
        decide +kernel
      rw [hgroupOf, Option.some.injEq] at hgroup
      exact hgroup ▸ hpoint m hm

/-- The groups of a section of each block of a text: as they were read, and
with their titles. -/
def groupsAndTitles (target text : String) : Option (List (List String × List String)) :=
  (gives (readText (.builtin ⟨[]⟩) "a.js" text) {}).1.toOption.map fun blocks =>
    (blocks.getD []).map fun b => (keys (Json.fieldsAt [target, "fields"] (.obj b.own)),
      keys (Json.fieldsAt [target, "fields"] (.obj (titles (contextOf {} [blocks.getD []]) target b).1.own)))

/-- An OpenAPI document with one response. -/
def oneResponseDocument : String :=
  "\x7b\"/a\":\x7b\"get\":\x7b\"responses\":\x7b\"200\":\x7b\x7d\x7d\x7d\x7d\x7d"

theorem undefined_groups_renamed_or_lost :
    groupsAndTitles "success" (oneTag "openapi" oneResponseDocument) = some [(["Success 200"], ["Success"])] ∧
      groupsAndTitles "parameter" (oneTag "apiParam" "(a.b) x") = some [(["a"], [])] := by
  constructor
  · have hfind : (Setup.builtin ⟨[]⟩).registry.find? (oneElement "openapi" oneResponseDocument).name =
        some (inserted "local" (readOpenApi ⟨[]⟩)) := by
      refine Registry.find?_builtin_of_mem ?_
      simp only [Registry.builtinTags, openApiTags, List.mem_append, List.mem_cons, true_or, or_true]
    have hcut : (commentsOf (.builtin ⟨[]⟩) "a.js" (oneTag "openapi" oneResponseDocument)).map
        (elementsOf (.builtin ⟨[]⟩) "a.js") = [[oneElement "openapi" oneResponseDocument]] := by
      decide +kernel
    rw [groupsAndTitles, gives_readText_of_single hcut (by decide +kernel), gives_readElement, hfind]
    decide +kernel
  · have hname : (oneElement "apiParam" "(a.b) x").name = FieldSection.parameter.tagName :=
      FieldSection.parameter.lower_written
    have hfind : (Setup.builtin ⟨[]⟩).registry.find? (oneElement "apiParam" "(a.b) x").name =
        some FieldSection.parameter.tag := by
      rw [hname]
      exact FieldSection.find?_builtin ⟨[]⟩ .parameter
    have hcut : (commentsOf (.builtin ⟨[]⟩) "a.js" (oneTag "apiParam" "(a.b) x")).map
        (elementsOf (.builtin ⟨[]⟩) "a.js") = [[oneElement "apiParam" "(a.b) x"]] := by
      decide +kernel
    rw [groupsAndTitles, gives_readText_of_single hcut (by decide +kernel), gives_readElement, hfind]
    decide +kernel

end Source
end Docblock
