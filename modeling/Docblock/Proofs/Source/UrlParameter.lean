/-
# Undocumented parameters, as the check and the resolution see them

The names in the address of an endpoint should be documented. The check looks
for them in the block and in the definitions that the block uses itself, of each
name the last one in the file (`mem_blockRemarks_iff`). The resolution looks
names up at the version of the block, and follows the references of definitions
as well. So the two may differ (`chained_parameter_reported`). They agree on a
block if each name that it uses is shared once, and what it uses refers to
nothing else; and if each name is shared once, nothing that is missing is passed
over (`remarks_of_resolved`).

Key definitions: `Source.undocumentedRemark`, `Source.IsNamed`,
`Source.SharedOnce`, `Source.IsDirect`.
Key theorems: `Source.mem_blockRemarks_iff`, `Source.remarks_of_resolved`.
-/
import Docblock.Proofs.Json.Same
import Docblock.Proofs.Resolve.Collected
import Docblock.Proofs.Source.Reading

namespace Docblock
namespace Source

open Resolve Reading

/-! ### The check -/

/-- The names in the address of a block. -/
def addressNames (b : Block) : List String := (((b.own.get? "url").bind Json.str?).map pathNames).getD []

/-- The remark that a name in the address of a block is not documented. -/
def undocumentedRemark (file : String) (b : Block) (name : String) : String :=
  "URL contains a parameter ':" ++ name ++ "' that is not documented as @apiParam in" ++
    (" @api '" ++ ((b.own.get? "title").bind Json.str?).getD "undefined" ++ "' in file: '" ++ file ++ "'")

/-- The block has a parameter of this name. -/
def Documents (b : Block) (name : String) : Prop := documents (parameterFields b.own) name = true

/-- The last block that shares data under a name. -/
def lastShared? (blocks : List Block) (name : String) : Option Block :=
  blocks.reverse.find? fun other => sharedName? other == some name

theorem documents_flatMap {α : Type} (f : α → List Json) (xs : List α) (name : String) :
    documents (xs.flatMap f) name = true ↔ ∃ x ∈ xs, documents (f x) name = true := by
  simp only [documents, List.any_eq_true, List.mem_flatMap]
  constructor
  · rintro ⟨field, ⟨x, hx, hfield⟩, hname⟩
    exact ⟨x, hx, field, hfield, hname⟩
  · rintro ⟨x, hx, field, hfield, hname⟩
    exact ⟨field, ⟨x, hx, hfield⟩, hname⟩

theorem documents_inheritedFields_iff (blocks : List Block) (b : Block) (name : String) :
    documents (inheritedFields blocks b) name = true ↔
      ∃ used ∈ usedNames b, ∃ other, lastShared? blocks used = some other ∧ Documents other name := by
  rw [inheritedFields, documents_flatMap]
  refine exists_congr fun used => and_congr_right fun _ => ?_
  unfold lastShared?
  split
  · rename_i other hfind
    simp [hfind, Documents]
  · rename_i hfind
    simp [hfind, documents]

theorem undocumentedRemark_inj {file : String} {b : Block} {name name' : String} :
    undocumentedRemark file b name = undocumentedRemark file b name' ↔ name = name' := by
  unfold undocumentedRemark
  rw [String.append_left_inj, String.append_left_inj, String.append_right_inj]

theorem head?_append {s : String} {c : Char} (h : s.toList.head? = some c) (t : String) :
    (s ++ t).toList.head? = some c := by
  rw [String.toList_append, List.head?_append, h, Option.some_or]

/-- Remarks of the other kind start with another character. -/
theorem unusedRemark_ne (file : String) (b : Block) (name name' place : String) :
    "@apiParam '" ++ name' ++ "' was defined but does not appear in URL of" ++ place ≠
      undocumentedRemark file b name := by
  have hat : "@apiParam '".toList.head? = some '@' := by decide
  have hurl : "URL contains a parameter ':".toList.head? = some 'U' := by decide
  have hunused := head?_append (head?_append (head?_append hat name')
    "' was defined but does not appear in URL of") place
  have hundocumented : (undocumentedRemark file b name).toList.head? = some 'U' :=
    head?_append (head?_append (head?_append hurl name) _) _
  intro heq
  rw [heq, hundocumented] at hunused
  exact absurd hunused (by decide)

/-- **What the check reports.** -/
theorem mem_blockRemarks_iff (blocks : List Block) (file : String) (b : Block) (name : String) :
    undocumentedRemark file b name ∈ blockRemarks blocks file b ↔ name ∈ addressNames b ∧ ¬Documents b name ∧
      ¬∃ used ∈ usedNames b, ∃ other, lastShared? blocks used = some other ∧ Documents other name := by
  rw [← documents_inheritedFields_iff]
  unfold blockRemarks
  dsimp only
  rw [List.mem_append]
  constructor
  · rintro (hmem | hmem)
    · obtain ⟨name', hname', heq⟩ := List.mem_map.mp hmem
      obtain rfl := undocumentedRemark_inj.mp heq
      obtain ⟨haddress, hundocumented⟩ := List.mem_filter.mp hname'
      rw [Bool.and_eq_true, Bool.not_eq_true', Bool.not_eq_true'] at hundocumented
      exact ⟨haddress, by simp [Documents, hundocumented.1], by simp [hundocumented.2]⟩
    · obtain ⟨name', -, heq⟩ := List.mem_map.mp hmem
      exact absurd heq (unusedRemark_ne _ _ _ _ _)
  · rintro ⟨haddress, hown, hinherited⟩
    refine .inl (List.mem_map.mpr ⟨name, List.mem_filter.mpr ⟨haddress, ?_⟩, rfl⟩)
    rw [Bool.and_eq_true, Bool.not_eq_true', Bool.not_eq_true']
    exact ⟨Bool.not_eq_true _ ▸ hown, Bool.not_eq_true _ ▸ hinherited⟩

/-! ### The check and the resolution -/

/-- Definitions and references have names. -/
structure IsNamed (b : Block) : Prop where
  definition : definedName? b = sharedName? b
  references : namesUnder "use" b.own = usedNames b

/-- At most one block shares data under a name. -/
def SharedOnce (blocks : List Block) (name : String) : Prop :=
  ∀ x ∈ blocks, ∀ y ∈ blocks, sharedName? x = some name → sharedName? y = some name → x = y

/-- A block has no references but to what it uses, and what it uses refers to
nothing. -/
structure IsDirect (blocks : List Block) (b : Block) : Prop where
  uses : ∀ key ∈ referenceKeys, key ≠ "use" → namesUnder key b.own = []
  ends : ∀ used ∈ usedNames b, ∀ x ∈ blocks, sharedName? x = some used →
    ∀ key ∈ referenceKeys, namesUnder key x.own = []

theorem sharedName?_of_lastShared? {blocks : List Block} {name : String} {other : Block}
    (h : lastShared? blocks name = some other) : other ∈ blocks ∧ sharedName? other = some name :=
  ⟨List.mem_reverse.mp (List.mem_of_find?_eq_some h), by simpa using List.find?_some h⟩

/-- If a name is shared once, its block is the last one that shares it. -/
theorem lastShared?_of_sharedOnce {blocks : List Block} {name : String} (h : SharedOnce blocks name) {x : Block}
    (hx : x ∈ blocks) (hname : sharedName? x = some name) : lastShared? blocks name = some x := by
  cases hlast : lastShared? blocks name with
  | none =>
    have hnone := List.find?_eq_none.mp hlast x (List.mem_reverse.mpr hx)
    simp [hname] at hnone
  | some other =>
    obtain ⟨hother, hshared⟩ := sharedName?_of_lastShared? hlast
    rw [h other hother x hx hshared hname]

theorem documents_resolved_iff {c : Context} {b b' : Block} (h : Resolved c followedKeys b b') (name : String) :
    Documents b' name ↔ Says c followedKeys (versionIn c.defaultVersion b) b.own (.documents name) := by
  have hkey : "parameter" ∉ followedKeys := by decide
  exact h.facts (.documents name) trivial hkey

section
variable {p : Package} {blocks : List Block} {b b' : Block} {name : String}

theorem exists_block_of_used (hnamed : ∀ x ∈ blocks, IsNamed x) {version used : String} {d : Definition}
    (h : (contextOf p [blocks]).resolveAt? version used = some d) :
    ∃ x ∈ blocks, sharedName? x = some used ∧ d.own = x.own := by
  obtain ⟨x, hx, hname, hown⟩ := exists_block_of_resolveAt? h
  rw [List.flatten_singleton] at hx
  exact ⟨x, hx, (hnamed x hx).definition ▸ hname, hown⟩

/-- Where each name is shared once, the check finds nothing that the resolution
does not. -/
theorem documents_of_used (hnamed : ∀ x ∈ blocks, IsNamed x) (hb : b ∈ blocks)
    (honce : ∀ used ∈ usedNames b, SharedOnce blocks used)
    (h : Resolved (contextOf p [blocks]) followedKeys b b') {used : String} (hused : used ∈ usedNames b) {other : Block}
    (hother : lastShared? blocks used = some other) (hname : Documents other name) : Documents b' name := by
  have hmem : used ∈ namesUnder "use" b.own := by rwa [(hnamed b hb).references]
  obtain ⟨d, hd⟩ := Option.isSome_iff_exists.mp (h.found "use" List.mem_cons_self used hmem)
  obtain ⟨x, hx, hshared, hown⟩ := exists_block_of_used hnamed hd
  obtain ⟨hin, hsame⟩ := sharedName?_of_lastShared? hother
  obtain rfl := honce used hused x hx other hin hshared hsame
  have hfact : (Fact.documents name).HoldsIn d.own := by rwa [hown]
  refine (documents_resolved_iff h name).mpr (.inr ⟨used, used, d, ?_, .refl, hd, ?_⟩)
  · exact says_of_holdsIn _ hmem
  · exact says_of_holdsIn _ hfact

/-- Where a block uses definitions directly, the resolution finds nothing that
the check does not. -/
theorem used_of_documents (hnamed : ∀ x ∈ blocks, IsNamed x) (hb : b ∈ blocks)
    (honce : ∀ used ∈ usedNames b, SharedOnce blocks used) (hdirect : IsDirect blocks b)
    (h : Resolved (contextOf p [blocks]) followedKeys b b') (hname : Documents b' name) :
    Documents b name ∨ ∃ used ∈ usedNames b, ∃ other, lastShared? blocks used = some other ∧ Documents other name := by
  have hkeys : ∀ key ∈ followedKeys, key ∈ referenceKeys := by decide
  have hown : ∀ key ∈ followedKeys.tail, namesUnder key b.own = [] := by
    have huse : ∀ key ∈ followedKeys.tail, key ≠ "use" := by decide
    exact fun key hkey => hdirect.uses key (hkeys key (List.mem_of_mem_tail hkey)) (huse key hkey)
  have hends : ∀ used ∈ namesUnder "use" b.own, ∀ d,
      (contextOf p [blocks]).resolveAt? (versionIn p.defaultVersion b) used = some d →
      ∀ key ∈ followedKeys, namesUnder key d.own = [] := by
    intro used hused d hd key hkey
    rw [(hnamed b hb).references] at hused
    obtain ⟨x, hx, hshared, hd⟩ := exists_block_of_used hnamed hd
    rw [hd]
    exact hdirect.ends used hused x hx hshared key (hkeys key hkey)
  rcases (says_iff_of_direct hown hends (.documents name)).mp
    ((documents_resolved_iff h name).mp hname) with hfact | ⟨used, hused, d, hd, hfact⟩
  · exact .inl hfact
  · rw [(hnamed b hb).references] at hused
    obtain ⟨x, hx, hshared, hd⟩ := exists_block_of_used hnamed hd
    refine .inr ⟨used, hused, x, lastShared?_of_sharedOnce (honce used hused) hx hshared, ?_⟩
    rwa [hd] at hfact

end

/-- **Where the check and the resolution agree.** If the blocks of a file can be
resolved, the check reports a name in the address of a block if neither the
block nor the last definition of a name that it uses documents it, and the
resolved block documents it if the block or a definition does to which its
references lead. So if the names that the block uses are shared once, all that
is missing is reported; and if it uses these definitions directly, nothing else
is. -/
theorem remarks_of_resolved (p : Package) (blocks : List Block) (file : String)
    (hwell : ∀ b ∈ blocks, WellFormed b.own) (hnamed : ∀ b ∈ blocks, IsNamed b)
    (hok : (process p [blocks] [file]).fault = none) :
    ∃ resolved : Block → Block, (process p [blocks] [file]).files = [blocks.map resolved] ∧
      ∀ b ∈ blocks, ∀ name ∈ addressNames b,
        (undocumentedRemark file b name ∈ blockRemarks blocks file b ↔ ¬Documents b name ∧
          ¬∃ used ∈ usedNames b, ∃ other, lastShared? blocks used = some other ∧ Documents other name) ∧
        (Documents (resolved b) name ↔
          Says (contextOf p [blocks]) followedKeys (versionIn p.defaultVersion b) b.own (.documents name)) ∧
        ((∀ used ∈ usedNames b, SharedOnce blocks used) →
          (¬Documents (resolved b) name → undocumentedRemark file b name ∈ blockRemarks blocks file b) ∧
          (IsDirect blocks b →
            (undocumentedRemark file b name ∈ blockRemarks blocks file b ↔ ¬Documents (resolved b) name))) := by
  have hfile : ∀ x ∈ [(blocks, file)], ∀ b ∈ x.1, WellFormed b.own := by simpa using hwell
  obtain ⟨resolved, hfiles, hall⟩ := process_resolved p [(blocks, file)] hfile hok
  refine ⟨resolved file, hfiles, fun b hb name hname => ?_⟩
  have hresolved : Resolved (contextOf p [blocks]) followedKeys b (resolved file b) :=
    hall (blocks, file) List.mem_cons_self b hb
  have hfacts := documents_resolved_iff hresolved name
  have hremark := mem_blockRemarks_iff blocks file b name
  rw [and_iff_right hname] at hremark
  refine ⟨hremark, hfacts, fun honce => ?_⟩
  have hreported : ¬Documents (resolved file b) name →
      undocumentedRemark file b name ∈ blockRemarks blocks file b := by
    refine fun hmissing => hremark.mpr ⟨fun hown => ?_, ?_⟩
    · exact hmissing (hfacts.mpr (says_of_holdsIn followedKeys hown))
    · rintro ⟨used, hused, other, hother, hdocuments⟩
      exact hmissing (documents_of_used hnamed hb honce hresolved hused hother hdocuments)
  refine ⟨hreported, fun hdirect => ⟨fun hmem hdocuments => ?_, hreported⟩⟩
  rw [hremark, ← not_or] at hmem
  exact hmem (used_of_documents hnamed hb honce hdirect hresolved hdocuments)

/-! ### A parameter behind two definitions -/

deriving instance DecidableEq for Block

/-- A definition without a title. -/
def plainDefinition (name : String) (own : Fields) (index : Nat) : Block where
  shared := [("define", .obj [("name", .str name), ("title", .str ""), ("description", .str "")])]
  own := own
  index := index

/-- `A` uses `B`, which documents `id`. -/
def chainDefinitions : List Block := [
  plainDefinition "A" [("use", .arr [.obj [("name", .str "B")]])] 2,
  plainDefinition "B" [("parameter", .obj [("fields", .obj [("Parameter", .arr [.obj [("group", .str "Parameter"),
    ("optional", .bool false), ("field", .str "id"), ("isArray", .bool false), ("description", .str "")]])])])] 3]

/-- An endpoint with `id` in its address, which uses one of them. -/
def chainEndpoint (name : String) : Block where
  own := [("type", .str "get"), ("url", .str "/:id"), ("title", .str "A"), ("use", .arr [.obj [("name", .str name)]])]
  index := 1

theorem wellFormed_chainDefinitions : ∀ b ∈ chainDefinitions, WellFormed b.own := by
  have hdistinct : ∀ b ∈ chainDefinitions, Fields.Distinct b.own := by decide
  have hreferences : ∀ b ∈ chainDefinitions, ∀ key ∈ referenceKeys, ∀ v ∈ b.own.get? key, isFilledArray v := by
    decide
  have hparameter : ∀ b ∈ chainDefinitions, ∀ v ∈ b.own.get? "parameter", IsSection v := by
    refine List.forall_mem_cons.mpr ⟨by simp [plainDefinition, Fields.get?], List.forall_mem_singleton.mpr ?_⟩
    rintro v ⟨⟩
    refine ⟨_, rfl, by decide, ?_⟩
    rintro w ⟨⟩
    exact ⟨_, rfl, by decide, by simp⟩
  exact fun b hb => ⟨hdistinct b hb, hparameter b hb, hreferences b hb⟩

theorem remarks_of_resolved_direct :
    (process {} [chainEndpoint "B" :: chainDefinitions] ["a.js"]).fault = none ∧
      ∃ resolved : Block → Block, (process {} [chainEndpoint "B" :: chainDefinitions] ["a.js"]).files =
          [(chainEndpoint "B" :: chainDefinitions).map resolved] ∧
        undocumentedRemark "a.js" (chainEndpoint "B") "id" ∉
          blockRemarks (chainEndpoint "B" :: chainDefinitions) "a.js" (chainEndpoint "B") ∧
        Documents (resolved (chainEndpoint "B")) "id" := by
  have hwell : ∀ b ∈ chainEndpoint "B" :: chainDefinitions, WellFormed b.own := by
    refine List.forall_mem_cons.mpr ⟨⟨by decide, by simp [chainEndpoint, Fields.get?], by decide⟩, ?_⟩
    exact wellFormed_chainDefinitions
  have hnamed : ∀ b ∈ chainEndpoint "B" :: chainDefinitions, IsNamed b := by
    have hdefinition : ∀ b ∈ chainEndpoint "B" :: chainDefinitions, definedName? b = sharedName? b := by decide
    have hreferences : ∀ b ∈ chainEndpoint "B" :: chainDefinitions, namesUnder "use" b.own = usedNames b := by decide
    exact fun b hb => ⟨hdefinition b hb, hreferences b hb⟩
  have hok : (process {} [chainEndpoint "B" :: chainDefinitions] ["a.js"]).fault = none := rfl
  obtain ⟨resolved, hfiles, hall⟩ := remarks_of_resolved {} _ "a.js" hwell hnamed hok
  obtain ⟨hremark, -, hagree⟩ := hall (chainEndpoint "B") List.mem_cons_self "id" (by decide)
  have honce : ∀ used ∈ usedNames (chainEndpoint "B"), ∀ x ∈ chainEndpoint "B" :: chainDefinitions,
      ∀ y ∈ chainEndpoint "B" :: chainDefinitions, sharedName? x = some used → sharedName? y = some used → x = y := by
    decide
  have hdirect : IsDirect (chainEndpoint "B" :: chainDefinitions) (chainEndpoint "B") := ⟨by decide, by decide⟩
  have hsilent : undocumentedRemark "a.js" (chainEndpoint "B") "id" ∉
      blockRemarks (chainEndpoint "B" :: chainDefinitions) "a.js" (chainEndpoint "B") :=
    fun hmem => (hremark.mp hmem).2 ⟨"B", by decide, _, rfl, rfl⟩
  exact ⟨hok, resolved, hfiles, hsilent, not_not.mp fun hmissing => hsilent (((hagree honce).2 hdirect).mpr hmissing)⟩

/-- The comments of these blocks. -/
def chainText : String :=
  "/**@api \x7bget\x7d /:id A\n@apiUse A*/\n/**@apiDefine A\n@apiUse B*/\n/**@apiDefine B\n@apiParam id*/"

/-- A parameter that an endpoint takes over from the second of two definitions
is reported as missing. -/
theorem chained_parameter_reported :
    (gives (readText (Setup.builtin {}) "a.js" chainText) {}).1.toOption =
        some (some (chainEndpoint "A" :: chainDefinitions)) ∧
      (process {} [chainEndpoint "A" :: chainDefinitions] ["a.js"]).fault = none ∧
      undocumentedRemark "a.js" (chainEndpoint "A") "id" ∈ urlRemarks (chainEndpoint "A" :: chainDefinitions) "a.js" ∧
      ∃ resolved others, (process {} [chainEndpoint "A" :: chainDefinitions] ["a.js"]).files = [resolved :: others] ∧
        Documents resolved "id" := by
  have hread : (gives (readText (Setup.builtin {}) "a.js" chainText) {}).1.toOption =
      some (some (chainEndpoint "A" :: chainDefinitions)) := by decide +kernel
  have hremark : undocumentedRemark "a.js" (chainEndpoint "A") "id" ∈
      urlRemarks (chainEndpoint "A" :: chainDefinitions) "a.js" := by decide +kernel
  exact ⟨hread, rfl, hremark, _, _, rfl, rfl⟩

end Source
end Docblock
