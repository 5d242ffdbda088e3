/-
# What a resolved block says

The resolution follows the references under one key after the other, each time
to definitions as they are by then. What a block says afterwards can be told
from the blocks as they were (`Says`): what it said before, and what the
definitions said before to which its references lead. All names are looked up at
the version of the block that asks, and what a definition took over before is
looked up at the version of the definition.

No stage changes names or versions. So a look-up in the table of a later stage
leads to the definition of the same block as in the first table
(`rel_resolveAt?`), and what it says by then is known. A stage that
follows references adds its key (`Resolved.mergeReferences`), the others change
nothing (`Resolved.apply`), and a run puts them together (`resolved_runNamed`).

Key definitions: `Resolve.Says`, `Resolve.Resolved`, `Resolve.followed`.
Key theorems: `Resolve.rel_resolveAt?`, `Resolve.Resolved.mergeReferences`,
`Resolve.resolved_runNamed`, `Resolve.process_resolved`.
-/
import Docblock.Proofs.Resolve.Fact
import Docblock.Proofs.Resolve.Rearrange
import Mathlib.Data.List.Forall2
import Mathlib.Data.Option.Basic

namespace Docblock
namespace Resolve

open Definitions

/-- The definition that a name means at a version, if it means one. -/
def Context.resolveAt? (c : Context) (version name : String) : Option Definition :=
  match c.definitions.lookup name version c.defaultVersion with
  | .found d => some d
  | _ => none

/-- At a version, references under a key lead from the first name to the
second, where definitions have the given facts. -/
def LeadsTo (c : Context) (facts : String → Fields → Fact → Prop) (key version : String) : String → String → Prop :=
  Relation.ReflTransGen fun name other =>
    ∃ d, c.resolveAt? version name = some d ∧ facts d.version d.own (.refers key other)

/-- What data at a version say when the references under these keys have been
followed, those under the last key first. -/
def Says (c : Context) : (keys : List String) → (version : String) → (own : Fields) → Fact → Prop
  | [], _, own, fact => fact.HoldsIn own
  | key :: keys, version, own, fact =>
    Says c keys version own fact ∨
      ∃ first last d, Says c keys version own (.refers key first) ∧ LeadsTo c (Says c keys) key version first last ∧
        c.resolveAt? version last = some d ∧ Says c keys d.version d.own fact

theorem resolve?_eq_resolveAt? (c : Context) (b : Block) (name : String) :
    c.resolve? b name = c.resolveAt? (c.versionOf b) name := by
  cases h : c.definitions.lookup name (c.versionOf b) c.defaultVersion <;>
    simp [Context.resolve?, Context.find, Context.resolveAt?, h]

/-- What data say stays true. -/
theorem says_of_holdsIn {c : Context} {version : String} {own : Fields} {fact : Fact} :
    ∀ keys : List String, fact.HoldsIn own → Says c keys version own fact
  | [], h => h
  | _ :: keys, h => .inl (says_of_holdsIn keys h)

/-- Data without references say no more than they did. -/
theorem says_iff_of_no_references {c : Context} {version : String} {own : Fields} :
    ∀ {keys : List String}, (∀ key ∈ keys, namesUnder key own = []) → ∀ fact : Fact,
      (Says c keys version own fact ↔ fact.HoldsIn own)
  | [], _, _ => Iff.rfl
  | key :: keys, h, fact => by
    rw [List.forall_mem_cons] at h
    have ih : ∀ fact : Fact, Says c keys version own fact ↔ fact.HoldsIn own := says_iff_of_no_references h.2
    rw [Says, ih, or_iff_left_iff_imp]
    rintro ⟨first, -, -, hfirst, -⟩
    have hmem : first ∈ namesUnder key own := (ih (.refers key first)).mp hfirst
    rw [h.1] at hmem
    cases hmem

/-- Where references of one kind lead to definitions without references, these
are all that counts. -/
theorem says_iff_of_direct {c : Context} {version key : String} {keys : List String} {own : Fields}
    (hown : ∀ key ∈ keys, namesUnder key own = [])
    (hends : ∀ name ∈ namesUnder key own, ∀ d, c.resolveAt? version name = some d →
      ∀ other ∈ key :: keys, namesUnder other d.own = []) (fact : Fact) :
    Says c (key :: keys) version own fact ↔ fact.HoldsIn own ∨
      ∃ name ∈ namesUnder key own, ∃ d, c.resolveAt? version name = some d ∧ fact.HoldsIn d.own := by
  rw [Says, says_iff_of_no_references hown]
  refine or_congr Iff.rfl ⟨?_, ?_⟩
  · rintro ⟨first, last, d, hfirst, hleads, hd, hfact⟩
    rw [says_iff_of_no_references hown] at hfirst
    have hlast : first = last := by
      rcases hleads.cases_head with heq | ⟨next, ⟨e, he, hnext⟩, -⟩
      · exact heq
      · -- the definition of the first name refers to nothing
        obtain ⟨hnone, hrest⟩ := List.forall_mem_cons.mp (hends first hfirst e he)
        have hmem : next ∈ namesUnder key e.own := (says_iff_of_no_references hrest _).mp hnext
        rw [hnone] at hmem
        cases hmem
    subst hlast
    have hrest := (List.forall_mem_cons.mp (hends first hfirst d hd)).2
    exact ⟨first, hfirst, d, hd, (says_iff_of_no_references hrest fact).mp hfact⟩
  · rintro ⟨name, hname, d, hd, hfact⟩
    exact ⟨name, name, d, says_of_holdsIn keys hname, .refl, hd, says_of_holdsIn keys hfact⟩

/-- A definition is found among the blocks. -/
theorem exists_block_of_resolveAt? {p : Package} {files : List BlockFile} {version name : String} {d : Definition}
    (h : (contextOf p files).resolveAt? version name = some d) :
    ∃ b ∈ files.flatten, definedName? b = some name ∧ d.own = b.own := by
  unfold Context.resolveAt? at h
  split at h
  · rename_i found hfound
    cases h
    obtain ⟨file, hfile, b, hb, hof⟩ := ofBlock?_of_has_collect (has_of_lookup hfound)
    obtain ⟨define, hdefine, heq⟩ := Option.map_eq_some_iff.mp hof
    obtain ⟨rfl, rfl⟩ := Prod.mk.inj heq
    exact ⟨b, List.mem_flatten.mpr ⟨file, hfile, hb⟩, by rw [definedName?, hdefine]; rfl, rfl⟩
  · cases h

theorem resolveAt?_eq_bind (c : Context) (version name : String) :
    c.resolveAt? version name = (c.definitions.versions? name).bind fun ds =>
      (ds.find? fun d => d.version == version).or (nearest version c.defaultVersion none ds) := by
  unfold Context.resolveAt? lookup
  cases c.definitions.versions? name with
  | none => rfl
  | some ds =>
    dsimp only
    cases hfind : ds.find? fun d => d.version == version with
    | some d => simp [hfind]
    | none => cases hnear : nearest version c.defaultVersion none ds <;> simp [hfind, hnear]

/-! ### Tables with related definitions -/

theorem isSome_of_rel {R : Definition → Definition → Prop} {o o' : Option Definition} (h : Option.Rel R o o')
    (hsome : o'.isSome) : o.isSome := by
  cases h with
  | none => exact hsome
  | some => rfl

theorem rel_or {R : Definition → Definition → Prop} {a a' b b' : Option Definition} (ha : Option.Rel R a a')
    (hb : Option.Rel R b b') : Option.Rel R (a.or b) (a'.or b') := by
  cases ha with
  | some hde => exact .some hde
  | none => exact hb

section
variable {R : Definition → Definition → Prop} (hR : ∀ d e, R d e → e.version = d.version)
include hR

theorem forall₂_addVersion {d e : Definition} (hde : R d e) {ds es : List Definition} (h : List.Forall₂ R ds es) :
    List.Forall₂ R (addVersion d ds) (addVersion e es) := by
  induction h with
  | nil => exact .cons hde .nil
  | cons hfirst hrest ih =>
    rw [addVersion, addVersion, hR _ _ hfirst, hR _ _ hde]
    split_ifs
    · exact .cons hde hrest
    · exact .cons hfirst ih

theorem forall₂_foldl_addVersion {ds es : List Definition} (h : List.Forall₂ R ds es) :
    ∀ {vs ws : List Definition}, List.Forall₂ R vs ws →
      List.Forall₂ R (ds.foldl (fun vs d => addVersion d vs) vs) (es.foldl (fun vs d => addVersion d vs) ws) := by
  induction h with
  | nil => exact fun hvs => hvs
  | cons hfirst _ ih => exact fun hvs => ih (forall₂_addVersion hR hfirst hvs)

theorem rel_find? (version : String) {ds es : List Definition} (h : List.Forall₂ R ds es) :
    Option.Rel R (ds.find? fun d => d.version == version) (es.find? fun d => d.version == version) := by
  induction h with
  | nil => exact .none
  | cons hfirst _ ih =>
    rw [List.find?_cons, List.find?_cons, hR _ _ hfirst]
    split
    · exact .some hfirst
    · exact ih

theorem rel_nearest (version : String) {ds es : List Definition} (h : List.Forall₂ R ds es) :
    ∀ (last : String) {best best' : Option Definition}, Option.Rel R best best' →
      Option.Rel R (nearest version last best ds) (nearest version last best' es) := by
  induction h with
  | nil => exact fun _ _ _ hbest => hbest
  | cons hfirst _ ih =>
    intro last best best' hbest
    rw [nearest, nearest, hR _ _ hfirst]
    split_ifs
    · exact ih _ (.some hfirst)
    · exact ih _ hbest

/-- Look-ups among related definitions lead to related ones. -/
theorem rel_resolveAt?_of_forall₂ (p : Package) {files files' : List BlockFile} {name : String}
    (h : List.Forall₂ R (definitionsOf p.defaultVersion files name) (definitionsOf p.defaultVersion files' name))
    (version : String) :
    Option.Rel R ((contextOf p files).resolveAt? version name) ((contextOf p files').resolveAt? version name) := by
  simp only [resolveAt?_eq_bind, contextOf, versions?_collect]
  generalize definitionsOf p.defaultVersion files name = ds at h
  generalize definitionsOf p.defaultVersion files' name = es at h
  cases h with
  | nil => exact .none
  | cons hfirst hrest =>
    have hall := forall₂_foldl_addVersion hR (.cons hfirst hrest) .nil
    exact rel_or (rel_find? hR version hall) (rel_nearest hR version hall p.defaultVersion .none)

end

/-! ### Blocks between the stages -/

/-- The second block is what has become of the first one: it says what follows
from the blocks as they were, for the references under these keys. -/
structure Resolved (c : Context) (keys : List String) (b b' : Block) : Prop where
  shared : b'.shared = b.shared
  root : b'.root = b.root
  wellFormed : WellFormed b'.own
  facts : ∀ fact : Fact, fact.IsKnown → fact.key ∉ keys →
    (fact.HoldsIn b'.own ↔ Says c keys (versionIn c.defaultVersion b) b.own fact)
  found : ∀ key ∈ keys, ∀ name ∈ namesUnder key b.own, (c.resolveAt? (versionIn c.defaultVersion b) name).isSome

/-- The same for definitions. -/
structure ResolvedDefinition (c : Context) (keys : List String) (d d' : Definition) : Prop where
  version : d'.version = d.version
  facts : ∀ fact : Fact, fact.IsKnown → fact.key ∉ keys → (fact.HoldsIn d'.own ↔ Says c keys d.version d.own fact)

variable {c : Context} {keys : List String}

theorem Resolved.versionIn_eq {b b' : Block} (h : Resolved c keys b b') (defaultVersion : String) :
    versionIn defaultVersion b' = versionIn defaultVersion b := by
  rw [versionIn, Block.version?, h.root, versionIn, Block.version?]

theorem Resolved.definitionOf {b b' : Block} (h : Resolved c keys b b') :
    ResolvedDefinition c keys (Resolve.definitionOf c.defaultVersion b) (Resolve.definitionOf c.defaultVersion b') where
  version := h.versionIn_eq c.defaultVersion
  facts := h.facts

/-- A fact that a look-up finds is one that follows from the blocks as they
were. -/
theorem exists_fact_iff {o o' : Option Definition} (h : Option.Rel (ResolvedDefinition c keys) o o') {fact : Fact}
    (hknown : fact.IsKnown) (hkeys : fact.key ∉ keys) :
    (∃ d, o' = some d ∧ fact.HoldsIn d.own) ↔ ∃ d, o = some d ∧ Says c keys d.version d.own fact := by
  cases h with
  | none => simp
  | some hde => simpa using hde.facts fact hknown hkeys

section
variable {p : Package} {named : List (BlockFile × String)} {g : String → Block → Block}

theorem forall₂_definitionsOf
    (h : ∀ t ∈ tagged named, Resolved (contextOf p (named.map Prod.fst)) keys t.2 (g t.1 t.2)) (name : String) :
    List.Forall₂ (ResolvedDefinition (contextOf p (named.map Prod.fst)) keys)
      (definitionsOf p.defaultVersion (named.map Prod.fst) name)
      (definitionsOf p.defaultVersion ((mapNamed g named).map Prod.fst) name) := by
  rw [definitionsOf_eq, definitionsOf_eq, ← map_snd_tagged, ← map_snd_tagged, tagged_mapNamed, List.map_map]
  generalize tagged named = ts at h
  induction ts with
  | nil => exact .nil
  | cons t ts ih =>
    rw [List.forall_mem_cons] at h
    have hname : definedName? (g t.1 t.2) = definedName? t.2 := by rw [definedName?, h.1.shared, definedName?]
    rw [List.map_cons, List.map_cons, List.filter_cons, List.filter_cons]
    simp only [Function.comp_apply, hname]
    split_ifs
    · exact .cons h.1.definitionOf (ih h.2)
    · exact ih h.2

/-- **Look-ups lead to the same blocks in every stage.** -/
theorem rel_resolveAt?
    (h : ∀ t ∈ tagged named, Resolved (contextOf p (named.map Prod.fst)) keys t.2 (g t.1 t.2))
    (version name : String) : Option.Rel (ResolvedDefinition (contextOf p (named.map Prod.fst)) keys)
      ((contextOf p (named.map Prod.fst)).resolveAt? version name)
      ((contextOf p ((mapNamed g named).map Prod.fst)).resolveAt? version name) :=
  rel_resolveAt?_of_forall₂ (fun _ _ hde => hde.version) p (forall₂_definitionsOf h name) version

theorem tableWellFormed_mapNamed
    (h : ∀ t ∈ tagged named, Resolved (contextOf p (named.map Prod.fst)) keys t.2 (g t.1 t.2)) :
    TableWellFormed (contextOf p ((mapNamed g named).map Prod.fst)) := by
  intro name d hd
  obtain ⟨file, hfile, b, hb, hof⟩ := ofBlock?_of_has_collect hd
  obtain ⟨define, -, heq⟩ := Option.map_eq_some_iff.mp hof
  obtain ⟨-, rfl⟩ := Prod.mk.inj heq
  obtain ⟨x, hx, rfl⟩ := List.mem_map.mp hfile
  obtain ⟨t, ht, rfl⟩ : ∃ t ∈ tagged named, g t.1 t.2 = b := by
    have hmem : (x.2, b) ∈ tagged (mapNamed g named) := mem_tagged.mpr ⟨x, hx, rfl, hb⟩
    rw [tagged_mapNamed] at hmem
    obtain ⟨t, ht, heq⟩ := List.mem_map.mp hmem
    exact ⟨t, ht, (Prod.mk.inj heq).2⟩
  exact (h t ht).wellFormed

/-! ### One stage -/

/-- An action that follows no references changes nothing. -/
theorem Resolved.apply {b b' : Block} (h : Resolved c keys b b') {a : Action} (hfits : a.Fits)
    (hmerge : ∀ target, a ≠ .merge target) (c' : Context) (filename : String) :
    Resolved c keys b (a.apply c' filename b').1 := by
  obtain ⟨hwell, hsame⟩ := a.saysSame_apply hfits hmerge c' filename b' h.wellFormed
  have heq := a.apply_eq c' filename b'
  have hshared : (a.apply c' filename b').1.shared = b'.shared := by rw [heq]
  have hroot : (a.apply c' filename b').1.root = b'.root := by rw [heq]
  exact {
    shared := hshared.trans h.shared
    root := hroot.trans h.root
    wellFormed := hwell
    facts := fun fact hknown hkeys => (hsame fact hknown).trans (h.facts fact hknown hkeys)
    found := h.found }

/-- **Following references adds what the definitions say to which they lead.** -/
theorem Resolved.mergeReferences
    (h : ∀ t ∈ tagged named, Resolved (contextOf p (named.map Prod.fst)) keys t.2 (g t.1 t.2))
    {t : String × Block} (ht : t ∈ tagged named) {key : String} (hkey : key ∈ referenceKeys) (hnew : key ∉ keys)
    (hok : (Resolve.mergeReferences (contextOf p ((mapNamed g named).map Prod.fst)) key (g t.1 t.2)).2 = none) :
    Resolved (contextOf p (named.map Prod.fst)) (key :: keys) t.2
      (Resolve.mergeReferences (contextOf p ((mapNamed g named).map Prod.fst)) key (g t.1 t.2)).1 := by
  have hb := h t ht
  have htable := tableWellFormed_mapNamed h
  set c := contextOf p (named.map Prod.fst)
  set c' := contextOf p ((mapNamed g named).map Prod.fst)
  set version := versionIn c.defaultVersion t.2
  have hversion : c'.versionOf (g t.1 t.2) = version := hb.versionIn_eq c.defaultVersion
  have hfound : ∀ (name : String) (fact : Fact), fact.IsKnown → fact.key ∉ keys →
      ((∃ d, c'.resolve? (g t.1 t.2) name = some d ∧ fact.HoldsIn d.own) ↔
        ∃ d, c.resolveAt? version name = some d ∧ Says c keys d.version d.own fact) := by
    intro name fact hknown hkeys
    rw [resolve?_eq_resolveAt?, hversion]
    exact exists_fact_iff (rel_resolveAt? h version name) hknown hkeys
  -- one step of the references is a fact about the definition of a name
  have hrefers : Relation.ReflTransGen (Refers c' (g t.1 t.2) key) = LeadsTo c (Says c keys) key version := by
    refine congrArg Relation.ReflTransGen (funext fun name => funext fun other => propext ?_)
    exact hfound name (.refers key other) hkey hnew
  have hfirst : ∀ first, first ∈ namesUnder key (g t.1 t.2).own ↔ Says c keys version t.2.own (.refers key first) :=
    fun first => hb.facts (.refers key first) hkey hnew
  refine ⟨hb.shared, hb.root, hb.wellFormed.mergeReferences htable key, fun fact hknown hkeys => ?_, ?_⟩
  · rw [List.mem_cons, not_or] at hkeys
    rw [holdsIn_mergeReferences hkey hb.wellFormed htable hok hknown hkeys.1, Says, hb.facts fact hknown hkeys.2,
      hrefers]
    simp only [hfirst, hfound _ fact hknown hkeys.2, exists_and_left]
    rfl
  · refine List.forall_mem_cons.mpr ⟨fun name hname => ?_, hb.found⟩
    have hsome := resolve?_of_mergeReferences hok name ((hfirst name).mpr (says_of_holdsIn keys hname))
    rw [resolve?_eq_resolveAt?, hversion] at hsome
    exact isSome_of_rel (rel_resolveAt? h version name) hsome

/-! ### Runs -/

/-- The key whose references an action follows. -/
def Action.follows : Action → List String
  | .merge key => [key]
  | _ => []

/-- The keys whose references have been followed after some stages, the last
one first. -/
def followed (keys : List String) (ss : List Stage) : List String :=
  ss.foldl (fun keys s => s.action.follows ++ keys) keys

theorem suffix_followed : ∀ (ss : List Stage) (keys : List String), keys <:+ followed keys ss
  | [], keys => List.suffix_refl keys
  | s :: ss, keys => (List.suffix_append s.action.follows keys).trans (suffix_followed ss _)

/-- A stage that nothing stops follows the references under its key. -/
theorem Resolved.stage (h : ∀ t ∈ tagged named, Resolved (contextOf p (named.map Prod.fst)) keys t.2 (g t.1 t.2))
    {s : Stage} (hfits : s.action.Fits) (hnodup : (s.action.follows ++ keys).Nodup)
    (hpass : s.Passes p (mapNamed g named)) :
    ∀ t ∈ tagged named, Resolved (contextOf p (named.map Prod.fst)) (s.action.follows ++ keys) t.2
      (s.block p ((mapNamed g named).map Prod.fst) t.1 (g t.1 t.2)) := by
  intro t ht
  have hmem : (t.1, g t.1 t.2) ∈ tagged (mapNamed g named) := by
    rw [tagged_mapNamed]
    exact List.mem_map_of_mem (f := fun t => (t.1, g t.1 t.2)) ht
  have hok := (passes_iff_tagged s p (mapNamed g named)).mp hpass _ hmem
  rw [Stage.block, Stage.apply]
  cases haction : s.action with
  | merge key =>
    rw [haction] at hfits hnodup hok
    exact Resolved.mergeReferences h ht hfits (List.nodup_cons.mp hnodup).1 hok
  | _ =>
    rw [haction] at hfits
    exact (h t ht).apply hfits (by simp) (contextOf p ((mapNamed g named).map Prod.fst)) t.1

/-- What a run makes of the blocks follows from the blocks as they were. -/
theorem resolved_runNamed : ∀ {ss : List Stage} {keys : List String} {g : String → Block → Block},
    (∀ s ∈ ss, s.action.Fits) → (followed keys ss).Nodup →
    (∀ t ∈ tagged named, Resolved (contextOf p (named.map Prod.fst)) keys t.2 (g t.1 t.2)) →
    (runNamed p ss (mapNamed g named)).fault = none →
    ∃ g' : String → Block → Block, (runNamed p ss (mapNamed g named)).files = (mapNamed g' named).map Prod.fst ∧
      ∀ t ∈ tagged named, Resolved (contextOf p (named.map Prod.fst)) (followed keys ss) t.2 (g' t.1 t.2)
  | [], keys, g, _, _, h, _ => ⟨g, rfl, h⟩
  | s :: ss, keys, g, hfits, hnodup, h, hok => by
    rw [List.forall_mem_cons] at hfits
    have hpass := passes_of_runNamed_cons hok
    have hkeys : (s.action.follows ++ keys).Nodup := hnodup.sublist (suffix_followed ss _).sublist
    have hstage := Resolved.stage h hfits.1 hkeys hpass
    obtain ⟨hfiles, hfault⟩ := runNamed_cons_of_passes hpass ss
    rw [Stage.after, mapNamed_mapNamed] at hfiles hfault
    rw [hfault] at hok
    obtain ⟨g', hg', hresolved⟩ := resolved_runNamed hfits.2 hnodup hstage hok
    exact ⟨g', hfiles.trans hg', hresolved⟩

end

theorem saysSame_fillIn {key : String} (hkey : key ∉ "parameter" :: referenceKeys) (text : String) (own : Fields) :
    SaysSame own (fillIn key text own) := by
  unfold fillIn
  split_ifs
  · exact saysSame_set hkey _ own
  · exact .refl own

theorem saysSame_withDefaults (defaultVersion filename : String) (b : Block) :
    SaysSame b.own (withDefaults defaultVersion filename b).own := by
  unfold withDefaults
  split_ifs
  · have hslash : ∀ own, SaysSame own (slashFilename own) := by
      intro own
      unfold slashFilename
      split
      · exact saysSame_set (by decide) _ own
      · exact .refl own
    have htype : SaysSame b.own (fillIn "type" "" b.own) := saysSame_fillIn (by decide) _ _
    have hurl : SaysSame _ (fillIn "url" "" (fillIn "type" "" b.own)) := saysSame_fillIn (by decide) _ _
    have hversion : SaysSame _ (fillIn "version" defaultVersion (fillIn "url" "" (fillIn "type" "" b.own))) :=
      saysSame_fillIn (by decide) _ _
    have hfile : SaysSame _ (fillIn "filename" filename
        (fillIn "version" defaultVersion (fillIn "url" "" (fillIn "type" "" b.own)))) :=
      saysSame_fillIn (by decide) _ _
    exact (((htype.trans hurl).trans hversion).trans hfile).trans (hslash _)
  · exact .refl _

/-- The keys of references, in the order in which the resolution has followed
them, the last one first. -/
def followedKeys : List String :=
  ["use", "headerStructure", "errorStructure", "successStructure", "structure"]

/-- **What a resolved block says follows from the blocks as they were.** If the
resolution succeeds, a block has the parameters of its own, and those of the
definitions to which its references lead. -/
theorem process_resolved (p : Package) (named : List (BlockFile × String))
    (hwell : ∀ x ∈ named, ∀ b ∈ x.1, WellFormed b.own)
    (hok : (process p (named.map Prod.fst) (named.map Prod.snd)).fault = none) :
    ∃ resolved : String → Block → Block,
      (process p (named.map Prod.fst) (named.map Prod.snd)).files = named.map (fun x => x.1.map (resolved x.2)) ∧
      ∀ x ∈ named, ∀ b ∈ x.1, Resolved (contextOf p (named.map Prod.fst)) followedKeys b (resolved x.2 b) := by
  obtain ⟨hfiles, hfault⟩ := process_named p named
  rw [hfault] at hok
  have hstart : ∀ t ∈ tagged named, Resolved (contextOf p (named.map Prod.fst)) [] t.2
      (withDefaults p.defaultVersion t.1 t.2) := by
    intro t ht
    obtain ⟨x, hx, -, hb⟩ := mem_tagged.mp ht
    obtain ⟨hshared, hroot⟩ := withDefaults_keeps p.defaultVersion t.1 t.2
    obtain ⟨hdefaults, hsame⟩ := saysSame_withDefaults p.defaultVersion t.1 t.2 (hwell x hx t.2 hb)
    exact ⟨hshared, hroot, hdefaults, fun fact hknown _ => hsame fact hknown, by simp⟩
  have hfits : ∀ s ∈ stages, s.action.Fits := by decide
  have hkeys : followed [] stages = followedKeys := rfl
  have hnodup : (followed [] stages).Nodup := by rw [hkeys]; decide
  obtain ⟨resolved, hresolved, hall⟩ := resolved_runNamed hfits hnodup hstart hok
  rw [map_fst_mapNamed] at hresolved
  exact ⟨resolved, hfiles.trans hresolved, fun x hx b hb => hall (x.2, b) (mem_tagged.mpr ⟨x, hx, rfl, hb⟩)⟩

end Resolve
end Docblock
