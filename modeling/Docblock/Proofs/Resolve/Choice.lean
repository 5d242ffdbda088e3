/-
# Which definition a look-up chooses

The blocks give the definitions of a name one after the other. The table keeps
one for each version text: a later definition takes the place of an earlier one
with the same text, so the texts stand in the order in which they came up first
(`map_version_tableOf`), each with the last definition that has it
(`find?_tableOf`).

A look-up answers with the definition of exactly the version text asked for, or
else with one whose version is the highest in range, and with the texts if there
is neither (`lookup_collect`). The scan for the highest is a single pass with a
bound that moves up from the floor (`nearest_cases`); which of several texts for
equal versions it ends with is not said here.

Key definitions: `Resolve.tableOf`, `Resolve.lastAt?`.
Key theorems: `Resolve.find?_tableOf`, `Resolve.map_version_tableOf`,
`Resolve.nearest_tableOf_cases`, `Resolve.lookup_collect`.
-/
import Docblock.Proofs.Resolve.Rearrange
import Mathlib.Data.List.Induction

namespace Docblock
namespace Resolve

open Definitions

/-- The definitions of one name as the table keeps them. -/
def tableOf (given : List Definition) : List Definition :=
  given.foldl (fun table d => addVersion d table) []

/-- The last definition with this version text. -/
def lastAt? (version : String) (given : List Definition) : Option Definition :=
  given.reverse.find? fun d => d.version == version

theorem tableOf_concat (given : List Definition) (d : Definition) :
    tableOf (given ++ [d]) = addVersion d (tableOf given) := List.foldl_concat ..

theorem lastAt?_concat (version : String) (given : List Definition) (d : Definition) :
    lastAt? version (given ++ [d]) = if d.version = version then some d else lastAt? version given := by
  by_cases h : d.version = version <;> simp [lastAt?, h]

theorem version_of_lastAt? {version : String} {given : List Definition} {d : Definition}
    (h : lastAt? version given = some d) : d.version = version := by
  simpa using List.find?_some h

theorem mem_of_lastAt? {version : String} {given : List Definition} {d : Definition}
    (h : lastAt? version given = some d) : d ∈ given :=
  List.mem_reverse.mp (List.mem_of_find?_eq_some h)

theorem lastAt?_eq_none_iff {version : String} {given : List Definition} :
    lastAt? version given = none ↔ ∀ d ∈ given, d.version ≠ version := by
  simp [lastAt?]

/-! ### The table keeps the last definition of each text, in the first place -/

theorem find?_addVersion (version : String) (d : Definition) : ∀ table : List Definition,
    (addVersion d table).find? (fun e => e.version == version) =
      if d.version = version then some d else table.find? fun e => e.version == version
  | [] => by by_cases h : d.version = version <;> simp [addVersion, h]
  | e :: table => by
    have ih := find?_addVersion version d table
    by_cases he : e.version = d.version
    · by_cases h : d.version = version <;> simp [addVersion, he, h]
    · by_cases h : e.version = version
      · subst h
        simp [addVersion, he, Ne.symm he]
      · simp [addVersion, he, h, ih]

theorem map_version_addVersion (d : Definition) : ∀ table : List Definition,
    (addVersion d table).map Definition.version =
      table.map Definition.version ++ if d.version ∈ table.map Definition.version then [] else [d.version]
  | [] => by simp [addVersion]
  | e :: table => by
    have ih := map_version_addVersion d table
    by_cases he : e.version = d.version
    · simp [addVersion, he]
    · simp only [addVersion, beq_iff_eq, he, ↓reduceIte, List.map_cons, ih, List.cons_append,
        List.mem_cons, Ne.symm he, false_or]

/-- Under each version text the table has the last definition given with it. -/
theorem find?_tableOf (version : String) (given : List Definition) :
    (tableOf given).find? (fun d => d.version == version) = lastAt? version given := by
  induction given using List.reverseRecOn with
  | nil => rfl
  | append_singleton given d ih => rw [tableOf_concat, find?_addVersion, lastAt?_concat, ih]

/-- The version texts of the table are those given, each where it came up
first. -/
theorem map_version_tableOf (given : List Definition) :
    (tableOf given).map Definition.version = (given.map Definition.version).eraseDups := by
  induction given using List.reverseRecOn with
  | nil => rfl
  | append_singleton given d ih =>
    rw [tableOf_concat, map_version_addVersion, ih, List.map_append, List.map_singleton, Fields.eraseDups_concat]
    simp only [List.mem_eraseDups]

/-- No two definitions of the table have the same text. -/
theorem nodup_tableOf (given : List Definition) : ((tableOf given).map Definition.version).Nodup := by
  induction given using List.reverseRecOn with
  | nil => exact List.nodup_nil
  | append_singleton given d ih =>
    rw [tableOf_concat, map_version_addVersion]
    by_cases h : d.version ∈ (tableOf given).map Definition.version
    · simpa only [h, ↓reduceIte, List.append_nil] using ih
    · simp only [h, ↓reduceIte]
      exact ih.append (List.nodup_singleton _) (List.disjoint_singleton.mpr h)

/-- The definitions of the table are the last ones of their texts. -/
theorem mem_tableOf_iff {given : List Definition} {d : Definition} :
    d ∈ tableOf given ↔ lastAt? d.version given = some d := by
  rw [← find?_tableOf]
  constructor
  · intro hmem
    cases hfind : (tableOf given).find? fun e => e.version == d.version with
    | none => exact absurd (List.find?_eq_none.mp hfind d hmem) (by simp)
    | some e =>
      have hversion : e.version = d.version := by simpa using List.find?_some hfind
      rw [List.inj_on_of_nodup_map (nodup_tableOf given) (List.mem_of_find?_eq_some hfind) hmem hversion]
  · exact List.mem_of_find?_eq_some

/-! ### The nearest version -/

/-- Every definition given has one of its text in the table. -/
theorem exists_mem_tableOf {given : List Definition} {d : Definition} (h : d ∈ given) :
    ∃ e ∈ tableOf given, e.version = d.version := by
  have hmem : d.version ∈ (tableOf given).map Definition.version := by
    rw [map_version_tableOf, List.mem_eraseDups]
    exact List.mem_map_of_mem h
  simpa using hmem

/-- A nearest definition of the table is a nearest one of those given, and the
last one of its text. -/
theorem IsNearest.of_tableOf {version floor : String} {given : List Definition} {d : Definition}
    (h : IsNearest version floor (tableOf given) d) :
    IsNearest version floor given d ∧ lastAt? d.version given = some d := by
  obtain ⟨hmem, hrange, hmax⟩ := h
  have hlast := mem_tableOf_iff.mp hmem
  refine ⟨⟨mem_of_lastAt? hlast, hrange, fun e he herange => ?_⟩, hlast⟩
  obtain ⟨x, hx, hversion⟩ := exists_mem_tableOf he
  rw [← hversion]
  exact hmax x hx (by rwa [InRange, hversion])

/-! ### Looking up -/

theorem versions?_eq_tableOf (defaultVersion : String) (files : List BlockFile) (name : String) :
    (collect defaultVersion files).versions? name =
      if (definitionsOf defaultVersion files name).isEmpty then none
      else some (tableOf (definitionsOf defaultVersion files name)) := by
  rw [versions?_collect]
  cases definitionsOf defaultVersion files name <;> rfl

/-- A name has no definitions if no block defines it. -/
theorem definitionsOf_eq_nil_iff (defaultVersion name : String) (files : List BlockFile) :
    definitionsOf defaultVersion files name = [] ↔
      ∀ file ∈ files, ∀ b ∈ file, definedName? b ≠ some name := by
  rw [definitionsOf_eq, List.map_eq_nil_iff, List.filter_eq_nil_iff]
  simp only [List.mem_flatten, beq_iff_eq]
  constructor
  · intro h file hfile b hb
    exact h b ⟨file, hfile, hb⟩
  · rintro h b ⟨file, hfile, hb⟩
    exact h file hfile b hb

theorem lookup_eq (defaultVersion name version floor : String) (files : List BlockFile) :
    (collect defaultVersion files).lookup name version floor =
      let given := definitionsOf defaultVersion files name
      if given.isEmpty then .unknown
      else match (lastAt? version given).or (nearest version floor none (tableOf given)) with
        | some d => .found d
        | none => .noMatch (given.map Definition.version).eraseDups := by
  unfold lookup
  rw [versions?_eq_tableOf]
  dsimp only
  split_ifs with hempty
  · rfl
  · dsimp only
    rw [find?_tableOf, map_version_tableOf]
    cases lastAt? version (definitionsOf defaultVersion files name) with
    | some d => rfl
    | none => cases nearest version floor none (tableOf (definitionsOf defaultVersion files name)) <;> rfl

/-- The scan through the table finds nothing if nothing given is in range, and
else the last definition of a nearest version. -/
theorem nearest_tableOf_cases (version : String) {floor : String} {given : List Definition}
    (hfloor : Version.isValid floor) (hvalid : ∀ d ∈ given, Version.isValid d.version) :
    (nearest version floor none (tableOf given) = none ∧ ∀ d ∈ given, ¬ InRange version floor d) ∨
      ∃ d, nearest version floor none (tableOf given) = some d ∧ IsNearest version floor given d ∧
        lastAt? d.version given = some d := by
  have htable : ∀ d ∈ tableOf given, Version.isValid d.version :=
    fun d hd => hvalid d (mem_of_lastAt? (mem_tableOf_iff.mp hd))
  rcases nearest_cases none hfloor htable with ⟨hnone, hrange⟩ | ⟨d, hd, hnearest⟩
  · refine .inl ⟨hnone, fun d hd hin => ?_⟩
    obtain ⟨e, he, hversion⟩ := exists_mem_tableOf hd
    exact hrange e he (by rwa [InRange, hversion])
  · exact .inr ⟨d, hd, hnearest.of_tableOf⟩

/-- **A look-up chooses the right version.** It answers that the name is unknown
if no block defines it; with the last definition of exactly the version text
asked for, if there is one; or else with the last definition of a text whose
version is in range and not below any other in range; and with the version texts,
each once and in the order in which they came up, if there is neither. -/
theorem lookup_collect (defaultVersion name version floor : String) (files : List BlockFile)
    (hfloor : Version.isValid floor)
    (hvalid : ∀ d ∈ definitionsOf defaultVersion files name, Version.isValid d.version) :
    let given := definitionsOf defaultVersion files name
    let answer := (collect defaultVersion files).lookup name version floor
    (answer = .unknown ↔ ∀ file ∈ files, ∀ b ∈ file, definedName? b ≠ some name) ∧
    (∀ d, lastAt? version given = some d → answer = .found d) ∧
    ((∀ d ∈ given, d.version ≠ version) → (∃ d ∈ given, InRange version floor d) →
      ∃ d, answer = .found d ∧ IsNearest version floor given d ∧ lastAt? d.version given = some d) ∧
    (∀ texts, answer = .noMatch texts ↔
      given ≠ [] ∧ (∀ d ∈ given, d.version ≠ version) ∧ (∀ d ∈ given, ¬ InRange version floor d) ∧
        texts = (given.map Definition.version).eraseDups) := by
  intro given answer
  have hanswer : answer = _ := lookup_eq defaultVersion name version floor files
  rw [← definitionsOf_eq_nil_iff defaultVersion]
  change (_ ↔ given = []) ∧ _
  by_cases hempty : given = []
  · have hunknown : answer = .unknown := by
      rw [hanswer]
      exact if_pos (List.isEmpty_iff.mpr hempty)
    simp [hunknown, hempty, lastAt?]
  rw [if_neg (by simpa using hempty)] at hanswer
  cases hlast : lastAt? version given with
  | some d =>
    -- the text itself is defined, so neither of the last two cases applies
    have hfound : answer = .found d := by rw [hanswer, hlast]; rfl
    have hversion := version_of_lastAt? hlast
    have hmem := mem_of_lastAt? hlast
    refine ⟨by simp [hfound, hempty], fun e he => by rw [hfound, Option.some.inj he], ?_, fun texts => ?_⟩
    · exact fun hnone => absurd hversion (hnone d hmem)
    · simp only [hfound, reduceCtorEq, false_iff]
      exact fun hnone => hnone.2.1 d hmem hversion
  | none =>
    have hnone := lastAt?_eq_none_iff.mp hlast
    rw [hlast, Option.none_or] at hanswer
    rcases nearest_tableOf_cases version hfloor hvalid with ⟨hnearest, hrange⟩ | ⟨d, hnearest, hd⟩
    · have hno : answer = .noMatch (given.map Definition.version).eraseDups := by rw [hanswer, hnearest]
      refine ⟨by simp [hno, hempty], by simp, fun _ hex => ?_, fun texts => ?_⟩
      · obtain ⟨d, hd, hin⟩ := hex
        exact absurd hin (hrange d hd)
      · rw [hno, Lookup.noMatch.injEq]
        exact ⟨fun h => ⟨hempty, hnone, hrange, h.symm⟩, fun h => h.2.2.2.symm⟩
    · have hfound : answer = .found d := by rw [hanswer, hnearest]
      refine ⟨by simp [hfound, hempty], by simp, fun _ _ => ⟨d, hfound, hd⟩, fun texts => ?_⟩
      simp only [hfound, reduceCtorEq, false_iff]
      exact fun h => h.2.2.1 d hd.1.1 hd.1.2.1

/-- A definition of `Auth` at a version. -/
def authDefinition (version title : String) : Block where
  shared := [("define", .obj [("name", .str "Auth"), ("title", .str title)])]
  root := [("version", .str version)]

/-- `Auth` in two files; `1.5.0` is defined twice, and once more with another
text. -/
def authFiles : List BlockFile :=
  [[authDefinition "1.0.0" "first", authDefinition "1.5.0" "old"],
    [authDefinition "2.0.0-rc.1" "next", authDefinition "1.5.0" "new", authDefinition "v1.5.0" "same"]]

theorem lookup_collect_auth :
    (∃ d, (collect "0.0.0" authFiles).lookup "Auth" "1.6.0" "0.0.0" = .found d ∧
      IsNearest "1.6.0" "0.0.0" (definitionsOf "0.0.0" authFiles "Auth") d ∧
        lastAt? d.version (definitionsOf "0.0.0" authFiles "Auth") = some d) ∧
    (collect "0.0.0" authFiles).lookup "Auth" "1.5.0" "0.0.0" =
      .found (definitionOf "0.0.0" (authDefinition "1.5.0" "new")) ∧
    (collect "0.0.0" authFiles).lookup "Auth" "0.9.0" "0.0.0" =
      .noMatch ["1.0.0", "1.5.0", "2.0.0-rc.1", "v1.5.0"] := by
  have hfloor : Version.isValid "0.0.0" := by decide
  have hvalid : ∀ d ∈ definitionsOf "0.0.0" authFiles "Auth", Version.isValid d.version := by decide
  obtain ⟨-, -, hnearest, -⟩ := lookup_collect "0.0.0" "Auth" "1.6.0" "0.0.0" authFiles hfloor hvalid
  obtain ⟨-, hexact, -, -⟩ := lookup_collect "0.0.0" "Auth" "1.5.0" "0.0.0" authFiles hfloor hvalid
  obtain ⟨-, -, -, hnone⟩ := lookup_collect "0.0.0" "Auth" "0.9.0" "0.0.0" authFiles hfloor hvalid
  have hrange : InRange "1.6.0" "0.0.0" (definitionOf "0.0.0" (authDefinition "1.5.0" "new")) :=
    ⟨by decide, by decide⟩
  have hbelow : ∀ d ∈ definitionsOf "0.0.0" authFiles "Auth", Version.atLeast "0.9.0" d.version = false := by decide
  have hgiven : definitionsOf "0.0.0" authFiles "Auth" ≠ [] := List.ne_nil_of_length_pos (by decide)
  have hlast : lastAt? "1.5.0" (definitionsOf "0.0.0" authFiles "Auth") =
      some (definitionOf "0.0.0" (authDefinition "1.5.0" "new")) := rfl
  refine ⟨hnearest (by decide) ⟨_, mem_of_lastAt? hlast, hrange⟩, hexact _ hlast,
    (hnone _).mpr ⟨hgiven, by decide, fun d hd hin => ?_, by decide⟩⟩
  exact absurd hin.1 (by simp [hbelow d hd])

end Resolve
end Docblock
