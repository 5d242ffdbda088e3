/-
# Runs of the stages

A stage goes through all blocks, each with the name of its file, until one
stops it. If none does, it has done the same to each block
(`throughFiles_of_fault_eq_none`); what it keeps of each block, it keeps of
all of them however it ends (`map_throughFiles`, `forall_throughFiles`).

From what one action does (`Action`) follows what the whole run does. It
keeps all of the blocks but the data of the endpoints, and which blocks
describe endpoints (`map_untouched_process`); and a run that succeeds has
followed all references: no block has a key of references left
(`process_leaves_no_references`). For the second statement, a stage must not
bring back the key of a stage before it. It cannot: what it merges are
definitions as the stages before have left them.

Key definitions: `Resolve.untouched`, `Resolve.Settled`, `Resolve.Lacks`.
Key theorems: `Resolve.map_untouched_process`,
`Resolve.process_leaves_no_references`.
-/
import Docblock.Proofs.Resolve.Action

namespace Docblock
namespace Resolve

open Fields

/-! ### Going through blocks -/

section
variable {f : Block → Block × Option Fault}

theorem throughBlocks_fault_eq_none_iff : ∀ bs : List Block,
    (throughBlocks f bs).2 = none ↔ ∀ b ∈ bs, (f b).2 = none
  | [] => by simp [throughBlocks]
  | b :: bs => by
    have ih := throughBlocks_fault_eq_none_iff bs
    rw [throughBlocks]
    split
    · rename_i after fault heq
      simp [heq]
    · rename_i after heq
      simp [heq, ih]

theorem throughBlocks_of_fault_eq_none : ∀ {bs : List Block},
    (throughBlocks f bs).2 = none → (throughBlocks f bs).1 = bs.map fun b => (f b).1
  | [], _ => rfl
  | b :: bs, h => by
    rw [throughBlocks] at h ⊢
    split at h
    · cases h
    · rename_i after heq
      simp [heq, throughBlocks_of_fault_eq_none h]

theorem map_throughBlocks {g : Block → α} : ∀ {bs : List Block},
    (∀ b ∈ bs, g (f b).1 = g b) → (throughBlocks f bs).1.map g = bs.map g
  | [], _ => rfl
  | b :: bs, h => by
    have hb := h b List.mem_cons_self
    have ih := map_throughBlocks fun x hx => h x (List.mem_cons_of_mem _ hx)
    rw [throughBlocks]
    split
    · rename_i after fault heq
      simpa [heq] using hb
    · rename_i after heq
      rw [heq] at hb
      simp [hb, ih]

theorem forall_throughBlocks {motive : Block → Prop} (hf : ∀ b, motive b → motive (f b).1) :
    ∀ {bs : List Block}, (∀ b ∈ bs, motive b) → ∀ b ∈ (throughBlocks f bs).1, motive b
  | [], _ => by simp [throughBlocks]
  | b :: bs, h => by
    have hb := hf b (h b List.mem_cons_self)
    have hbs : ∀ x ∈ bs, motive x := fun x hx => h x (List.mem_cons_of_mem _ hx)
    rw [throughBlocks]
    split
    · rename_i after fault heq
      rw [heq] at hb
      exact List.forall_mem_cons.mpr ⟨hb, hbs⟩
    · rename_i after heq
      rw [heq] at hb
      exact List.forall_mem_cons.mpr ⟨hb, forall_throughBlocks hf hbs⟩

end

/-! ### Going through files -/

section
variable {f : String → Block → Block × Option Fault}

/-- A stage succeeds if it does so on each block, with the name of its file. -/
theorem throughFiles_fault_eq_none_iff : ∀ named : List (BlockFile × String),
    (throughFiles f (named.map Prod.fst) (named.map Prod.snd)).2 = none ↔
      ∀ x ∈ named, ∀ b ∈ x.1, (f x.2 b).2 = none
  | [] => by simp [throughFiles]
  | (file, filename) :: named => by
    have ih := throughFiles_fault_eq_none_iff named
    have hfile := throughBlocks_fault_eq_none_iff (f := f filename) file
    rw [List.map_cons, List.map_cons, throughFiles]
    split
    · rename_i after fault heq
      rw [heq] at hfile
      simp only [reduceCtorEq, false_iff] at hfile ⊢
      exact fun h => hfile (h _ List.mem_cons_self)
    · rename_i after heq
      rw [heq] at hfile
      simp only [true_iff] at hfile
      rw [ih, List.forall_mem_cons]
      exact ⟨fun h => ⟨hfile, h⟩, And.right⟩

/-- A stage that succeeds has done the same to each block. -/
theorem throughFiles_of_fault_eq_none : ∀ {named : List (BlockFile × String)},
    (throughFiles f (named.map Prod.fst) (named.map Prod.snd)).2 = none →
    (throughFiles f (named.map Prod.fst) (named.map Prod.snd)).1 =
      named.map fun x => x.1.map fun b => (f x.2 b).1
  | [], _ => rfl
  | (file, filename) :: named, h => by
    rw [List.map_cons, List.map_cons, throughFiles] at h ⊢
    split at h
    · cases h
    · rename_i after heq
      have hafter : after = file.map fun b => (f filename b).1 := by
        rw [← throughBlocks_of_fault_eq_none (f := f filename) (by rw [heq]), heq]
      simp only [List.map_cons, hafter, throughFiles_of_fault_eq_none h]

theorem map_throughFiles {g : Block → α} : ∀ {files : List BlockFile} (filenames : List String),
    (∀ file ∈ files, ∀ b ∈ file, ∀ filename, g (f filename b).1 = g b) →
    (throughFiles f files filenames).1.map (List.map g) = files.map (List.map g)
  | [], _, _ => by simp [throughFiles]
  | _ :: _, [], _ => rfl
  | file :: files, filename :: filenames, h => by
    have hfile : (throughBlocks (f filename) file).1.map g = file.map g :=
      map_throughBlocks fun b hb => h file List.mem_cons_self b hb filename
    have ih := map_throughFiles filenames fun x hx => h x (List.mem_cons_of_mem _ hx)
    rw [throughFiles]
    split
    · rename_i after fault heq
      rw [heq] at hfile
      simp [hfile]
    · rename_i after heq
      rw [heq] at hfile
      simp [hfile, ih]

theorem forall_throughFiles {motive : Block → Prop}
    (hf : ∀ filename b, motive b → motive (f filename b).1) :
    ∀ {files : List BlockFile} (filenames : List String), (∀ file ∈ files, ∀ b ∈ file, motive b) →
      ∀ file ∈ (throughFiles f files filenames).1, ∀ b ∈ file, motive b
  | [], _, _ => by simp [throughFiles]
  | _ :: _, [], h => h
  | file :: files, filename :: filenames, h => by
    have hfile := forall_throughBlocks (hf filename) (h file List.mem_cons_self)
    have hfiles : ∀ x ∈ files, ∀ b ∈ x, motive b := fun x hx => h x (List.mem_cons_of_mem _ hx)
    rw [throughFiles]
    split
    · rename_i after fault heq
      rw [heq] at hfile
      exact List.forall_mem_cons.mpr ⟨hfile, hfiles⟩
    · rename_i after heq
      rw [heq] at hfile
      exact List.forall_mem_cons.mpr ⟨hfile, forall_throughFiles hf filenames hfiles⟩

end

/-! ### Files with their names -/

/-- Files with their names, each block changed by a function that may look at
the name of the file. -/
def mapNamed (g : String → Block → Block) (named : List (BlockFile × String)) : List (BlockFile × String) :=
  named.map fun x => (x.1.map (g x.2), x.2)

theorem map_fst_mapNamed (g : String → Block → Block) (named : List (BlockFile × String)) :
    (mapNamed g named).map Prod.fst = named.map fun x => x.1.map (g x.2) := by
  simp [mapNamed]

theorem map_snd_mapNamed (g : String → Block → Block) (named : List (BlockFile × String)) :
    (mapNamed g named).map Prod.snd = named.map Prod.snd := by
  simp [mapNamed]

theorem mapNamed_mapNamed (f g : String → Block → Block) (named : List (BlockFile × String)) :
    mapNamed f (mapNamed g named) = mapNamed (fun filename b => f filename (g filename b)) named := by
  simp [mapNamed, Function.comp_def]

/-- What a stage makes of a block that does not stop it. -/
def Stage.block (s : Stage) (p : Package) (files : List BlockFile) (filename : String) (b : Block) : Block :=
  (s.apply (contextOf p files) filename b).1

/-- The blocks of the files do not stop the stage. -/
def Stage.Passes (s : Stage) (p : Package) (named : List (BlockFile × String)) : Prop :=
  ∀ x ∈ named, ∀ b ∈ x.1, (s.apply (contextOf p (named.map Prod.fst)) x.2 b).2 = none

/-- The files after a stage that nothing stops. -/
def Stage.after (s : Stage) (p : Package) (named : List (BlockFile × String)) : List (BlockFile × String) :=
  mapNamed (s.block p (named.map Prod.fst)) named

/-- What a run does on files with their names. -/
def runNamed (p : Package) (ss : List Stage) (named : List (BlockFile × String)) : Resolution :=
  runStages p (named.map Prod.snd) ss (named.map Prod.fst)

theorem runNamed_cons_of_passes {p : Package} {s : Stage} {named : List (BlockFile × String)}
    (h : s.Passes p named) (ss : List Stage) :
    (runNamed p (s :: ss) named).files = (runNamed p ss (s.after p named)).files ∧
      (runNamed p (s :: ss) named).fault = (runNamed p ss (s.after p named)).fault := by
  have hfault := (throughFiles_fault_eq_none_iff named).mpr h
  have hfiles := throughFiles_of_fault_eq_none hfault
  have hthrough : throughFiles (s.apply (contextOf p (named.map Prod.fst))) (named.map Prod.fst)
      (named.map Prod.snd) = ((s.after p named).map Prod.fst, none) := by
    rw [Stage.after, map_fst_mapNamed]
    exact Prod.ext hfiles hfault
  simp only [runNamed, runStages, hthrough]
  rw [Stage.after, map_snd_mapNamed]
  exact ⟨rfl, rfl⟩

theorem passes_of_runNamed_cons {p : Package} {s : Stage} {ss : List Stage} {named : List (BlockFile × String)}
    (h : (runNamed p (s :: ss) named).fault = none) : s.Passes p named := by
  refine (throughFiles_fault_eq_none_iff named).mp ?_
  rw [runNamed, runStages] at h
  split at h
  · cases h
  · rename_i after heq
    rw [heq]

theorem fillDefaults_named (p : Package) : ∀ named : List (BlockFile × String),
    fillDefaults p (named.map Prod.fst) (named.map Prod.snd) =
      (mapNamed (withDefaults p.defaultVersion) named).map Prod.fst
  | [] => rfl
  | x :: named => by
    rw [List.map_cons, List.map_cons, fillDefaults, fillDefaults_named p named]
    rfl

/-- The resolution is a run of all stages, after the defaults. -/
theorem process_named (p : Package) (named : List (BlockFile × String)) :
    (process p (named.map Prod.fst) (named.map Prod.snd)).files =
        (runNamed p stages (mapNamed (withDefaults p.defaultVersion) named)).files ∧
      (process p (named.map Prod.fst) (named.map Prod.snd)).fault =
        (runNamed p stages (mapNamed (withDefaults p.defaultVersion) named)).fault := by
  rw [process, fillDefaults_named, runNamed, map_snd_mapNamed]
  exact ⟨rfl, rfl⟩

/-- Files that have a name each are those of the pairs. -/
theorem process_zip (p : Package) {files : List BlockFile} {filenames : List String}
    (h : files.length = filenames.length) :
    (process p files filenames).files =
        (runNamed p stages (mapNamed (withDefaults p.defaultVersion) (files.zip filenames))).files ∧
      (process p files filenames).fault =
        (runNamed p stages (mapNamed (withDefaults p.defaultVersion) (files.zip filenames))).fault := by
  have hnamed := process_named p (files.zip filenames)
  rwa [List.map_fst_zip (Nat.le_of_eq h), List.map_snd_zip (Nat.le_of_eq h.symm)] at hnamed

/-! ### What a run leaves alone -/

/-- All of a block but the data of the endpoint, and whether it is one. -/
def untouched (b : Block) : Fields × Fields × Nat × Bool := (b.shared, b.root, b.index, b.isEndpoint)

/-- An endpoint that has a type. Unlike having data at all, it is something
that the actions keep. -/
def Settled (b : Block) : Prop := b.isEndpoint → "type" ∈ keys b.own

theorem isEndpoint_iff (b : Block) : b.isEndpoint = true ↔ b.shared = [] ∧ b.own ≠ [] := by
  simp [Block.isEndpoint]

theorem settled_apply {a : Action} (ha : "type" ∉ a.removes) (c : Context) (filename : String) {b : Block}
    (hb : Settled b) : Settled (a.apply c filename b).1 ∧ untouched (a.apply c filename b).1 = untouched b := by
  by_cases hown : b.own = []
  · rw [Action.apply_of_own_nil a c filename hown]
    exact ⟨hb, rfl⟩
  have heq := a.apply_eq c filename b
  set after := a.apply c filename b
  have hshared : after.1.shared = b.shared := by rw [heq]
  have hrest : untouched after.1 = (b.shared, b.root, b.index, after.1.isEndpoint) := by
    rw [heq]
    rfl
  rw [hrest, untouched]
  cases hb' : b.isEndpoint with
  | true =>
    -- an endpoint keeps its type, so it stays one
    have hkey : "type" ∈ keys after.1.own := Action.mem_keys_apply (hb hb') ha
    have hend : after.1.isEndpoint = true := by
      rw [isEndpoint_iff, hshared]
      exact ⟨((isEndpoint_iff b).mp hb').1, ne_nil_of_mem_keys hkey⟩
    exact ⟨fun _ => hkey, by rw [hend]⟩
  | false =>
    have hend : after.1.isEndpoint = false := by
      rw [← Bool.not_eq_true, isEndpoint_iff, hshared]
      rw [← Bool.not_eq_true, isEndpoint_iff] at hb'
      exact fun h => hb' ⟨h.1, hown⟩
    exact ⟨fun h => absurd h (by simp [hend]), by rw [hend]⟩

/-- What one stage keeps, a run of stages keeps. -/
theorem untouched_runStages (p : Package) (filenames : List String) :
    ∀ {ss : List Stage}, (∀ s ∈ ss, "type" ∉ s.action.removes) → ∀ {files : List BlockFile},
      (∀ file ∈ files, ∀ b ∈ file, Settled b) →
      (runStages p filenames ss files).files.map (List.map untouched) = files.map (List.map untouched)
  | [], _, _, _ => rfl
  | s :: ss, hs, files, hfiles => by
    have hstep : ∀ filename b, Settled b → Settled (s.apply (contextOf p files) filename b).1 ∧
        untouched (s.apply (contextOf p files) filename b).1 = untouched b := fun filename b hb =>
      settled_apply (hs s List.mem_cons_self) (contextOf p files) filename hb
    have hmap := map_throughFiles filenames fun file hfile b hb filename =>
      (hstep filename b (hfiles file hfile b hb)).2
    have hall := forall_throughFiles (fun filename b hb => (hstep filename b hb).1) filenames hfiles
    rw [runStages]
    split
    · rename_i after fault heq
      rwa [heq] at hmap
    · rename_i after heq
      rw [heq] at hmap hall
      rw [← hmap]
      exact untouched_runStages p filenames (fun x hx => hs x (List.mem_cons_of_mem _ hx)) hall

theorem mem_keys_fillIn {key other text : String} {own : Fields} (h : key ∈ keys own) :
    key ∈ keys (fillIn other text own) := by
  unfold fillIn
  split_ifs
  · exact (mem_keys_set _ _ _ _).mpr (.inr h)
  · exact h

theorem mem_keys_fillIn_self (key text : String) (own : Fields) : key ∈ keys (fillIn key text own) := by
  unfold fillIn
  split_ifs with h
  · exact (mem_keys_set _ _ _ _).mpr (.inl rfl)
  · rw [mem_keys_iff, Option.isSome_iff_ne_none]
    intro hnone
    simp [hnone, Json.isFalsy] at h

theorem mem_keys_slashFilename {key : String} {own : Fields} (h : key ∈ keys own) :
    key ∈ keys (slashFilename own) := by
  unfold slashFilename
  split
  · exact (mem_keys_set _ _ _ _).mpr (.inr h)
  · exact h

theorem settled_withDefaults (defaultVersion filename : String) (b : Block) :
    Settled (withDefaults defaultVersion filename b) ∧
      untouched (withDefaults defaultVersion filename b) = untouched b := by
  unfold withDefaults
  split_ifs with hb
  · set own := slashFilename (fillIn "filename" filename (fillIn "version" defaultVersion
      (fillIn "url" "" (fillIn "type" "" b.own))))
    have hkey : "type" ∈ keys own :=
      mem_keys_slashFilename (mem_keys_fillIn (mem_keys_fillIn (mem_keys_fillIn (mem_keys_fillIn_self _ _ _))))
    have hend : ({ b with own } : Block).isEndpoint = true :=
      (isEndpoint_iff _).mpr ⟨((isEndpoint_iff b).mp hb).1, ne_nil_of_mem_keys hkey⟩
    refine ⟨fun _ => hkey, ?_⟩
    rw [untouched, untouched, hend, hb]
  · exact ⟨fun h => absurd h hb, rfl⟩

theorem settled_fillDefaults (p : Package) : ∀ {files : List BlockFile} {filenames : List String},
    files.length = filenames.length → (∀ file ∈ fillDefaults p files filenames, ∀ b ∈ file, Settled b) ∧
      (fillDefaults p files filenames).map (List.map untouched) = files.map (List.map untouched)
  | [], _, _ => by simp [fillDefaults]
  | _ :: _, [], h => by simp at h
  | file :: files, filename :: filenames, h => by
    obtain ⟨hall, hmap⟩ := settled_fillDefaults p (Nat.succ.inj h)
    have hblock := settled_withDefaults p.defaultVersion filename
    rw [fillDefaults]
    constructor
    · refine List.forall_mem_cons.mpr ⟨fun b hb => ?_, hall⟩
      obtain ⟨x, -, rfl⟩ := List.mem_map.mp hb
      exact (hblock x).1
    · rw [List.map_cons, List.map_cons, hmap, List.map_map]
      congr 1
      exact List.map_congr_left fun b _ => (hblock b).2

/-- **A run keeps the blocks.** However it ends, there are as many files and
blocks as before and in the same order, what blocks share and their values
at the root are as they were, and the same blocks describe endpoints. -/
theorem map_untouched_process (p : Package) {files : List BlockFile} {filenames : List String}
    (h : files.length = filenames.length) :
    (process p files filenames).files.map (List.map untouched) = files.map (List.map untouched) := by
  obtain ⟨hall, hmap⟩ := settled_fillDefaults p h
  have hstages : ∀ s ∈ stages, "type" ∉ s.action.removes := by decide
  exact (untouched_runStages p filenames hstages hall).trans hmap

/-! ### What a run leaves of references -/

/-- No block has data under the key. -/
def Lacks (key : String) (files : List BlockFile) : Prop := ∀ file ∈ files, ∀ b ∈ file, key ∉ keys b.own

/-- The definitions of blocks that lack a key lack it. -/
theorem Lacks.not_mem_keys {key : String} {files : List BlockFile} (h : Lacks key files)
    {defaultVersion name : String} {d : Definition}
    (hd : (Definitions.collect defaultVersion files).Has name d) : key ∉ keys d.own := by
  obtain ⟨file, hfile, b, hb, hof⟩ := Definitions.ofBlock?_of_has_collect hd
  obtain ⟨define, -, heq⟩ := Option.map_eq_some_iff.mp hof
  obtain ⟨-, rfl⟩ := Prod.mk.inj heq
  exact h file hfile b hb

/-- A stage that nothing stops keeps a key away, or takes it away if it
follows the references under it. -/
theorem Lacks.after {p : Package} {s : Stage} {key : String} {named : List (BlockFile × String)}
    (hs : s.Passes p named) (hadds : key ∉ s.action.adds)
    (h : Lacks key (named.map Prod.fst) ∨ s.action = .merge key) :
    Lacks key ((s.after p named).map Prod.fst) := by
  intro file hfile b hb
  rw [Stage.after, map_fst_mapNamed] at hfile
  obtain ⟨x, hx, rfl⟩ := List.mem_map.mp hfile
  obtain ⟨b, hbx, rfl⟩ := List.mem_map.mp hb
  rcases h with h | h
  · intro hmem
    rcases Action.mem_keys_of_apply hmem with hmem | hmem | ⟨name, d, hd, hmem⟩
    · exact h x.1 (List.mem_map.mpr ⟨x, hx, rfl⟩) b hbx hmem
    · exact hadds hmem
    · -- the definitions are those of blocks that lack the key themselves
      exact h.not_mem_keys hd hmem
  · have hcause := hs x hx b hbx
    rw [← get?_eq_none_iff]
    simp only [Stage.block, Stage.apply, h, Action.apply, Option.map_eq_none_iff] at hcause ⊢
    exact mergeReferences_get?_target hcause

/-- A run that succeeds leaves no block with a key whose references one of its
stages follows and which no stage adds. -/
theorem Lacks.runNamed {p : Package} {key : String} : ∀ {ss : List Stage} {named : List (BlockFile × String)},
    (∀ s ∈ ss, key ∉ s.action.adds) →
    (Lacks key (named.map Prod.fst) ∨ ∃ s ∈ ss, s.action = .merge key) →
    (Resolve.runNamed p ss named).fault = none → Lacks key (Resolve.runNamed p ss named).files
  | [], named, _, h, _ => by
    rcases h with h | ⟨s, hs, -⟩
    · exact h
    · cases hs
  | s :: ss, named, hadds, h, hok => by
    have hs := passes_of_runNamed_cons hok
    obtain ⟨hfiles, hfault⟩ := runNamed_cons_of_passes hs ss
    rw [hfault] at hok
    rw [hfiles]
    refine Lacks.runNamed (fun t ht => hadds t (List.mem_cons_of_mem _ ht)) ?_ hok
    have hstep := Lacks.after hs (hadds s List.mem_cons_self)
    rcases h with h | ⟨t, ht, hmerge⟩
    · exact .inl (hstep (.inl h))
    · rcases List.mem_cons.mp ht with rfl | ht
      · exact .inl (hstep (.inr hmerge))
      · exact .inr ⟨t, ht, hmerge⟩

/-- The keys under which blocks refer to definitions. -/
def referenceKeys : List String :=
  ["use", "structure", "successStructure", "errorStructure", "headerStructure"]

/-- **Resolution is complete.** If every file has a name and the resolution
succeeds, no block has references of any kind left, be it an endpoint or a
definition. -/
theorem process_leaves_no_references (p : Package) (files : List BlockFile) (filenames : List String)
    (hlen : files.length = filenames.length) (hok : (process p files filenames).fault = none) :
    ∀ file ∈ (process p files filenames).files, ∀ b ∈ file, ∀ key ∈ referenceKeys, key ∉ keys b.own := by
  intro file hfile b hb key hkey
  have hfst : (files.zip filenames).map Prod.fst = files := List.map_fst_zip (Nat.le_of_eq hlen)
  have hsnd : (files.zip filenames).map Prod.snd = filenames := List.map_snd_zip (Nat.le_of_eq hlen.symm)
  obtain ⟨hfiles, hfault⟩ := process_named p (files.zip filenames)
  rw [hfst, hsnd] at hfiles hfault
  rw [hfiles] at hfile
  rw [hfault] at hok
  have hadds : ∀ key ∈ referenceKeys, ∀ s ∈ stages, key ∉ s.action.adds := by decide
  have hmerge : ∀ key ∈ referenceKeys, ∃ s ∈ stages, s.action = .merge key := by decide
  exact Lacks.runNamed (hadds key hkey) (.inr (hmerge key hkey)) hok file hfile b hb

/-- A definition with references of one kind to another one. -/
def mixedDefinition (name : String) (own : Fields) : Block where
  shared := [("define", .obj [("name", .str name), ("title", .str name)])]
  own := own
  index := 1

/-- References of one kind lead to references of another. -/
def mixedFiles : List BlockFile := [
  [mixedDefinition "Token" [("headerStructure", .arr [.obj [("name", .str "Common")]])],
    mixedDefinition "Common" [("note", .str "shared")]],
  [{ own := [("url", .str "/a"), ("use", .arr [.obj [("name", .str "Session")]])], index := 1 },
    mixedDefinition "Session" [("structure", .arr [.obj [("name", .str "Token")]])]]]

theorem process_leaves_no_references_mixed :
    mixedFiles.length = ["a.js", "b.js"].length ∧ (process {} mixedFiles ["a.js", "b.js"]).fault = none ∧
      ∀ file ∈ (process {} mixedFiles ["a.js", "b.js"]).files, ∀ b ∈ file, ∀ key ∈ referenceKeys,
        key ∉ keys b.own := by
  have hok : (process {} mixedFiles ["a.js", "b.js"]).fault = none := by rfl
  exact ⟨rfl, hok, process_leaves_no_references {} mixedFiles ["a.js", "b.js"] rfl hok⟩

end Resolve
end Docblock
