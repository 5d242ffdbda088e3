/-
# The resolution does not depend on the order of blocks and files

Blocks may change places within their files, and files, with their names,
among each other (`Rearranged`). If all versions are valid and no two blocks
define one name at equal versions (`WellVersioned`), the resolution succeeds
in both orders or in none, and makes the same of each block
(`process_rearranged`).

A stage reads definitions as the stages before it left them, and look-ups do
not depend on the order of the blocks (`foundIn_perm`). So the stage does the
same to each block in both orders, the blocks after it are again the same in
another order, and the run follows stage by stage
(`runNamed_sameBlocks`). No stage changes versions or names of definitions, so
they stay well versioned (`WellVersioned.mapNamed`).

Key definitions: `Resolve.Rearranged`, `Resolve.WellVersioned`,
`Resolve.SameBlocks`.
Key theorems: `Resolve.agree_contextOf`, `Resolve.runNamed_sameBlocks`,
`Resolve.process_rearranged`.
-/
import Docblock.Proofs.Resolve.Agree
import Docblock.Proofs.Resolve.Lookup
import Docblock.Proofs.Resolve.Run

namespace Docblock
namespace Resolve

open Definitions

/-- The name that a block defines, if it defines one. -/
def definedName? (b : Block) : Option String :=
  (b.shared.get? "define").map fun define => (define.getStr? "name").getD ""

/-- The version of a block that may give none. -/
def versionIn (defaultVersion : String) (b : Block) : String := b.version?.getD defaultVersion

/-- If the blocks define the same name, they do so at different versions. -/
def DefineApart (defaultVersion : String) (b b' : Block) : Prop :=
  definedName? b ≠ none → definedName? b = definedName? b' →
    Version.compareTexts (versionIn defaultVersion b) (versionIn defaultVersion b') ≠ .eq

/-- All versions are valid, and no two blocks define one name at equal
versions. -/
structure WellVersioned (defaultVersion : String) (files : List BlockFile) : Prop where
  valid_default : Version.isValid defaultVersion
  valid : ∀ b ∈ files.flatten, Version.isValid (versionIn defaultVersion b)
  apart : files.flatten.Pairwise (DefineApart defaultVersion)

/-- Blocks have changed places within their files, and files among each
other. -/
def Rearranged (named named' : List (BlockFile × String)) : Prop :=
  ∃ between, List.Forall₂ (fun x y => x.1.Perm y.1 ∧ x.2 = y.2) named between ∧ between.Perm named'

instance (defaultVersion : String) (b b' : Block) : Decidable (DefineApart defaultVersion b b') :=
  inferInstanceAs (Decidable (_ → _ → _ ≠ _))

/-! ### Blocks with the names of their files -/

/-- All blocks, each with the name of its file. -/
def tagged (named : List (BlockFile × String)) : List (String × Block) :=
  named.flatMap fun x => x.1.map fun b => (x.2, b)

/-- The same blocks in files of the same names, in some order. -/
def SameBlocks (named named' : List (BlockFile × String)) : Prop := (tagged named).Perm (tagged named')

theorem mem_tagged {named : List (BlockFile × String)} {t : String × Block} :
    t ∈ tagged named ↔ ∃ x ∈ named, t.1 = x.2 ∧ t.2 ∈ x.1 := by
  simp only [tagged, List.mem_flatMap, List.mem_map]
  constructor
  · rintro ⟨x, hx, b, hb, rfl⟩
    exact ⟨x, hx, rfl, hb⟩
  · rintro ⟨x, hx, h1, h2⟩
    exact ⟨x, hx, t.2, h2, Prod.ext h1.symm rfl⟩

theorem map_snd_tagged (named : List (BlockFile × String)) :
    (tagged named).map Prod.snd = (named.map Prod.fst).flatten := by
  induction named with
  | nil => rfl
  | cons x named ih =>
    rw [tagged, List.flatMap_cons, List.map_append, ← tagged, ih, List.map_map]
    simp [Function.comp_def]

theorem tagged_mapNamed (g : String → Block → Block) (named : List (BlockFile × String)) :
    tagged (mapNamed g named) = (tagged named).map fun t => (t.1, g t.1 t.2) := by
  simp [tagged, mapNamed, List.flatMap_map, List.map_flatMap, Function.comp_def]

theorem SameBlocks.mapNamed {named named' : List (BlockFile × String)} (h : SameBlocks named named')
    (g : String → Block → Block) : SameBlocks (Resolve.mapNamed g named) (Resolve.mapNamed g named') := by
  rw [SameBlocks, tagged_mapNamed, tagged_mapNamed]
  exact h.map _

theorem mapNamed_congr {g g' : String → Block → Block} {named : List (BlockFile × String)}
    (h : ∀ t ∈ tagged named, g t.1 t.2 = g' t.1 t.2) : mapNamed g named = mapNamed g' named := by
  refine List.map_congr_left fun x hx => ?_
  have hfile : x.1.map (g x.2) = x.1.map (g' x.2) :=
    List.map_congr_left fun b hb => h (x.2, b) (mem_tagged.mpr ⟨x, hx, rfl, hb⟩)
  rw [hfile]

theorem Rearranged.sameBlocks {named named' : List (BlockFile × String)} (h : Rearranged named named') :
    SameBlocks named named' := by
  obtain ⟨between, hfiles, hperm⟩ := h
  refine List.Perm.trans ?_ (hperm.flatMap_right _)
  clear hperm
  induction hfiles with
  | nil => exact .refl _
  | cons hxy _ ih =>
    obtain ⟨hblocks, hname⟩ := hxy
    rw [tagged, List.flatMap_cons, List.flatMap_cons, hname]
    exact (hblocks.map _).append ih

theorem SameBlocks.flatten_perm {named named' : List (BlockFile × String)} (h : SameBlocks named named') :
    (named.map Prod.fst).flatten.Perm (named'.map Prod.fst).flatten := by
  rw [← map_snd_tagged, ← map_snd_tagged]
  exact h.map Prod.snd

/-! ### Definitions of well versioned blocks -/

/-- The definition that a block gives. -/
def definitionOf (defaultVersion : String) (b : Block) : Definition where
  version := versionIn defaultVersion b
  define := (b.shared.get? "define").getD .null
  own := b.own

/-- The definitions of a name are those of the blocks that define it. -/
theorem definitionsOf_eq (defaultVersion : String) (files : List BlockFile) (name : String) :
    definitionsOf defaultVersion files name =
      (files.flatten.filter fun b => definedName? b == some name).map (definitionOf defaultVersion) := by
  unfold definitionsOf
  induction files.flatten with
  | nil => rfl
  | cons b bs ih =>
    cases h : b.shared.get? "define" with
    | none => simpa [ofBlock?, definedName?, h] using ih
    | some define =>
      by_cases hn : (define.getStr? "name").getD "" = name
      · simp [ofBlock?, definedName?, definitionOf, versionIn, h, hn, ih]
      · simpa [ofBlock?, definedName?, h, hn] using ih

theorem WellVersioned.different {defaultVersion : String} {files : List BlockFile}
    (h : WellVersioned defaultVersion files) (name : String) :
    (definitionsOf defaultVersion files name).Pairwise DifferentVersions := by
  rw [definitionsOf_eq, List.pairwise_map]
  refine (h.apart.filter _).imp_of_mem fun {b b'} hb hb' hapart => ?_
  have hname : definedName? b = some name := eq_of_beq (List.mem_filter.mp hb).2
  have hname' : definedName? b' = some name := eq_of_beq (List.mem_filter.mp hb').2
  exact hapart (by simp [hname]) (by rw [hname, hname'])

theorem WellVersioned.valid_definition {defaultVersion : String} {files : List BlockFile}
    (h : WellVersioned defaultVersion files) (name : String) :
    ∀ d ∈ definitionsOf defaultVersion files name, Version.isValid d.version := by
  intro d hd
  rw [definitionsOf_eq] at hd
  obtain ⟨b, hb, rfl⟩ := List.mem_map.mp hd
  exact h.valid b (List.mem_filter.mp hb).1

theorem defineApart_symm {defaultVersion : String} {b b' : Block} (h : DefineApart defaultVersion b b') :
    DefineApart defaultVersion b' b := by
  intro hne heq heqv
  refine h (heq ▸ hne) heq.symm ?_
  rw [Version.compareTexts_swap, heqv]
  rfl

theorem WellVersioned.sameBlocks {defaultVersion : String} {named named' : List (BlockFile × String)}
    (h : WellVersioned defaultVersion (named.map Prod.fst)) (hs : SameBlocks named named') :
    WellVersioned defaultVersion (named'.map Prod.fst) where
  valid_default := h.valid_default
  valid b hb := h.valid b (hs.flatten_perm.mem_iff.mpr hb)
  apart := (hs.flatten_perm.pairwise_iff defineApart_symm).mp h.apart

/-- A change that keeps what blocks share and their root keeps them well
versioned. -/
theorem WellVersioned.mapNamed {defaultVersion : String} {named : List (BlockFile × String)}
    (h : WellVersioned defaultVersion (named.map Prod.fst)) {g : String → Block → Block}
    (hg : ∀ filename b, (g filename b).shared = b.shared ∧ (g filename b).root = b.root) :
    WellVersioned defaultVersion ((Resolve.mapNamed g named).map Prod.fst) := by
  have hname : ∀ filename b, definedName? (g filename b) = definedName? b := fun filename b => by
    rw [definedName?, (hg filename b).1, definedName?]
  have hversion : ∀ filename b, versionIn defaultVersion (g filename b) = versionIn defaultVersion b :=
    fun filename b => by rw [versionIn, Block.version?, (hg filename b).2, versionIn, Block.version?]
  have hflat : ((Resolve.mapNamed g named).map Prod.fst).flatten =
      (tagged named).map fun t => g t.1 t.2 := by
    rw [← map_snd_tagged, tagged_mapNamed, List.map_map]
    rfl
  refine ⟨h.valid_default, fun b hb => ?_, ?_⟩
  · rw [hflat] at hb
    obtain ⟨t, ht, rfl⟩ := List.mem_map.mp hb
    rw [hversion]
    refine h.valid t.2 ?_
    rw [← map_snd_tagged]
    exact List.mem_map_of_mem ht
  · have hapart := h.apart
    rw [← map_snd_tagged, List.pairwise_map] at hapart
    rw [hflat, List.pairwise_map]
    refine hapart.imp fun {t u} htu => ?_
    simpa only [DefineApart, hname, hversion] using htu

/-- Look-ups lead to the same in both orders. -/
theorem agree_contextOf (p : Package) {named named' : List (BlockFile × String)}
    (hs : SameBlocks named named') (h : WellVersioned p.defaultVersion (named.map Prod.fst)) (b : Block) :
    Agree (contextOf p (named.map Prod.fst)) (contextOf p (named'.map Prod.fst)) b where
  sampleUrl := rfl
  find name := by
    have hperm : (definitionsOf p.defaultVersion (named.map Prod.fst) name).Perm
        (definitionsOf p.defaultVersion (named'.map Prod.fst) name) :=
      ((hs.flatten_perm.filterMap _).filter _).map _
    rw [toOption_find (c := contextOf p (named.map Prod.fst)) rfl (h.different name),
      toOption_find (c := contextOf p (named'.map Prod.fst)) rfl ((h.sameBlocks hs).different name)]
    exact foundIn_perm hperm h.valid_default (h.valid_definition name) (h.different name)

/-! ### Stages and runs -/

theorem passes_iff_tagged (s : Stage) (p : Package) (named : List (BlockFile × String)) :
    s.Passes p named ↔
      ∀ t ∈ tagged named, (s.action.apply (contextOf p (named.map Prod.fst)) t.1 t.2).2 = none := by
  simp only [Stage.Passes, Stage.apply, Option.map_eq_none_iff]
  constructor
  · intro h t ht
    obtain ⟨x, hx, h1, h2⟩ := mem_tagged.mp ht
    rw [h1]
    exact h x hx t.2 h2
  · exact fun h x hx b hb => h (x.2, b) (mem_tagged.mpr ⟨x, hx, rfl, hb⟩)

/-- A stage passes in both orders or in none, and does the same to each
block. -/
theorem passes_sameBlocks (s : Stage) (p : Package) {named named' : List (BlockFile × String)}
    (hs : SameBlocks named named') (h : WellVersioned p.defaultVersion (named.map Prod.fst)) :
    (s.Passes p named ↔ s.Passes p named') ∧
      (s.Passes p named → s.after p named' = mapNamed (s.block p (named.map Prod.fst)) named') := by
  have hagree : ∀ t : String × Block,
      finished (s.action.apply (contextOf p (named.map Prod.fst)) t.1 t.2) =
        finished (s.action.apply (contextOf p (named'.map Prod.fst)) t.1 t.2) := fun t =>
    (agree_contextOf p hs h t.2).apply s.action t.1
  have hiff : s.Passes p named ↔ s.Passes p named' := by
    simp only [passes_iff_tagged, snd_eq_none_iff, hagree, hs.mem_iff]
  refine ⟨hiff, fun hpass => mapNamed_congr fun t ht => ?_⟩
  have hnone := (passes_iff_tagged s p named).mp hpass t (hs.mem_iff.mpr ht)
  have hnone' := (passes_iff_tagged s p named').mp (hiff.mp hpass) t ht
  have heq := hagree t
  rw [finished_eq_some hnone, finished_eq_some hnone'] at heq
  exact (Option.some.inj heq).symm

theorem block_keeps (s : Stage) (p : Package) (files : List BlockFile) (filename : String) (b : Block) :
    (s.block p files filename b).shared = b.shared ∧ (s.block p files filename b).root = b.root := by
  have heq : s.block p files filename b = { b with own := (s.block p files filename b).own } :=
    s.action.apply_eq (contextOf p files) filename b
  rw [heq]
  exact ⟨rfl, rfl⟩

/-- A run succeeds in both orders or in none, and does the same to each
block. -/
theorem runNamed_sameBlocks (p : Package) : ∀ (ss : List Stage) {named named' : List (BlockFile × String)},
    SameBlocks named named' → WellVersioned p.defaultVersion (named.map Prod.fst) →
    ((runNamed p ss named).fault = none ↔ (runNamed p ss named').fault = none) ∧
    ((runNamed p ss named).fault = none → ∃ g : String → Block → Block,
      (runNamed p ss named).files = (mapNamed g named).map Prod.fst ∧
      (runNamed p ss named').files = (mapNamed g named').map Prod.fst)
  | [], named, named', _, _ => by
    refine ⟨Iff.rfl, fun _ => ⟨fun _ b => b, ?_, ?_⟩⟩
    · simp [runNamed, runStages, mapNamed]
    · simp [runNamed, runStages, mapNamed]
  | s :: ss, named, named', hs, h => by
    obtain ⟨hiff, hafter⟩ := passes_sameBlocks s p hs h
    by_cases hpass : s.Passes p named
    · obtain ⟨hfiles, hfault⟩ := runNamed_cons_of_passes hpass ss
      obtain ⟨hfiles', hfault'⟩ := runNamed_cons_of_passes (hiff.mp hpass) ss
      rw [hafter hpass] at hfiles' hfault'
      -- after the stage the blocks are again the same, in another order
      set g := s.block p (named.map Prod.fst)
      obtain ⟨hrest, hmap⟩ := runNamed_sameBlocks p ss (hs.mapNamed g)
        (h.mapNamed (block_keeps s p (named.map Prod.fst)))
      rw [hfault, hfault', hfiles, hfiles']
      refine ⟨hrest, fun hok => ?_⟩
      obtain ⟨f, hf, hf'⟩ := hmap hok
      rw [mapNamed_mapNamed] at hf hf'
      exact ⟨_, hf, hf'⟩
    · have hstop : (runNamed p (s :: ss) named).fault ≠ none := fun hok => hpass (passes_of_runNamed_cons hok)
      have hstop' : (runNamed p (s :: ss) named').fault ≠ none := fun hok =>
        hpass (hiff.mpr (passes_of_runNamed_cons hok))
      exact ⟨iff_of_false hstop hstop', fun hok => absurd hok hstop⟩

theorem withDefaults_keeps (defaultVersion filename : String) (b : Block) :
    (withDefaults defaultVersion filename b).shared = b.shared ∧
      (withDefaults defaultVersion filename b).root = b.root := by
  unfold withDefaults
  split_ifs <;> exact ⟨rfl, rfl⟩

/-- **Order does not matter.** If all versions are valid and no two blocks
define one name at equal versions, blocks may change places within their
files, and files with their names among each other: the resolution succeeds
as before or fails as before, and if it succeeds, what it makes of a block
depends on the block and the name of its file only. -/
theorem process_rearranged (p : Package) (named named' : List (BlockFile × String))
    (hr : Rearranged named named') (hv : WellVersioned p.defaultVersion (named.map Prod.fst)) :
    ((process p (named.map Prod.fst) (named.map Prod.snd)).fault = none ↔
      (process p (named'.map Prod.fst) (named'.map Prod.snd)).fault = none) ∧
    ((process p (named.map Prod.fst) (named.map Prod.snd)).fault = none →
      ∃ resolved : String → Block → Block,
        (process p (named.map Prod.fst) (named.map Prod.snd)).files =
          named.map (fun x => x.1.map (resolved x.2)) ∧
        (process p (named'.map Prod.fst) (named'.map Prod.snd)).files =
          named'.map (fun x => x.1.map (resolved x.2))) := by
  obtain ⟨hfiles, hfault⟩ := process_named p named
  obtain ⟨hfiles', hfault'⟩ := process_named p named'
  rw [hfiles, hfault, hfiles', hfault']
  obtain ⟨hiff, hmap⟩ := runNamed_sameBlocks p stages (hr.sameBlocks.mapNamed (withDefaults p.defaultVersion))
    (hv.mapNamed (withDefaults_keeps p.defaultVersion))
  refine ⟨hiff, fun hok => ?_⟩
  obtain ⟨g, hg, hg'⟩ := hmap hok
  rw [mapNamed_mapNamed, map_fst_mapNamed] at hg hg'
  exact ⟨fun filename b => g filename (withDefaults p.defaultVersion filename b), hg, hg'⟩

/-- A block that defines `Auth` at a version. -/
def authBlock (version : String) : Block where
  shared := [("define", .obj [("name", .str "Auth"), ("title", .str version)])]
  own := [("note", .str version)]
  root := [("version", .str version)]

/-- A block that refers to `Auth` from a version between the others. -/
def betweenBlock : Block where
  own := [("url", .str "/a"), ("use", .arr [.obj [("name", .str "Auth")]])]
  root := [("version", .str "1.5.0")]

theorem process_rearranged_auth :
    Rearranged [([authBlock "1.0.0", betweenBlock], "a.js"), ([authBlock "2.0.0"], "b.js")]
      [([authBlock "2.0.0"], "b.js"), ([betweenBlock, authBlock "1.0.0"], "a.js")] ∧
    WellVersioned "0.0.0" [[authBlock "1.0.0", betweenBlock], [authBlock "2.0.0"]] ∧
    (process {} [[authBlock "2.0.0"], [betweenBlock, authBlock "1.0.0"]] ["b.js", "a.js"]).fault = none := by
  have hr : Rearranged [([authBlock "1.0.0", betweenBlock], "a.js"), ([authBlock "2.0.0"], "b.js")]
      [([authBlock "2.0.0"], "b.js"), ([betweenBlock, authBlock "1.0.0"], "a.js")] :=
    ⟨[([betweenBlock, authBlock "1.0.0"], "a.js"), ([authBlock "2.0.0"], "b.js")],
      .cons ⟨.swap _ _ _, rfl⟩ (.cons ⟨.refl _, rfl⟩ .nil), .swap _ _ _⟩
  have hv : WellVersioned "0.0.0" [[authBlock "1.0.0", betweenBlock], [authBlock "2.0.0"]] :=
    ⟨by decide, by decide, by decide⟩
  have hok : (process {} [[authBlock "1.0.0", betweenBlock], [authBlock "2.0.0"]] ["a.js", "b.js"]).fault =
      none := rfl
  exact ⟨hr, hv, (process_rearranged {} _ _ hr hv).1.mp hok⟩

end Resolve
end Docblock
