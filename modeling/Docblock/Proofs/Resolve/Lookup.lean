/-
# Looking up a definition does not depend on the order of the blocks

The table keeps the definitions of a name in the order of their blocks, one
for each version (`versions?_collect`). If the versions are valid and no two
definitions of a name have equal ones, a look-up finds the definition of
exactly the version asked for, or else the highest one in range
(`nearest_cases`), and there is one at most. So the order of the blocks does
not matter (`foundIn_perm`).

Key definitions: `Resolve.definitionsOf`, `Resolve.DifferentVersions`,
`Resolve.IsNearest`, `Resolve.foundIn`.
Key theorems: `Resolve.versions?_collect`, `Resolve.nearest_cases`,
`Resolve.toOption_find`, `Resolve.foundIn_perm`.
-/
import Docblock.Proofs.Resolve.Table
import Docblock.Proofs.Version.Order
import Mathlib.Data.List.Pairwise
import Mathlib.Data.List.Perm.Basic

namespace Docblock
namespace Resolve

open Definitions

/-- The definitions of a name, in the order of their blocks. -/
def definitionsOf (defaultVersion : String) (files : List BlockFile) (name : String) : List Definition :=
  ((files.flatten.filterMap (ofBlock? defaultVersion)).filter fun x => x.1 == name).map Prod.snd

/-- Neither of two definitions is at the version of the other. -/
def DifferentVersions (d e : Definition) : Prop := Version.compareTexts d.version e.version ≠ .eq

/-! ### The table -/

theorem versions?_addNamed (n : String) (d : Definition) (name : String) :
    ∀ names : List (String × List Definition), versions? ⟨addNamed n d names⟩ name =
      if n = name then some (addVersion d ((versions? ⟨names⟩ name).getD [])) else versions? ⟨names⟩ name
  | [] => by
    by_cases h : n = name
    · simp [addNamed, versions?, h, addVersion]
    · simp [addNamed, versions?, h]
  | (m, ds) :: rest => by
    have ih := versions?_addNamed n d name rest
    simp only [versions?] at ih
    by_cases hm : m = n
    · subst hm
      by_cases h : m = name
      · simp [addNamed, versions?, h]
      · simp [addNamed, versions?, h]
    · by_cases h : m = name
      · subst h
        simp [addNamed, versions?, hm, Ne.symm hm]
      · simp [addNamed, versions?, hm, h, ih]

theorem versions?_addAll (name : String) : ∀ (given : List (String × Definition))
    (names : List (String × List Definition)), versions? ⟨addAll given names⟩ name =
      match (given.filter fun x => x.1 == name).map Prod.snd with
      | [] => versions? ⟨names⟩ name
      | d :: ds => some ((d :: ds).foldl (fun vs d => addVersion d vs) ((versions? ⟨names⟩ name).getD []))
  | [], _ => rfl
  | (n, d) :: given, names => by
    have ih := versions?_addAll name given (addNamed n d names)
    rw [versions?_addNamed] at ih
    rw [addAll, List.foldl_cons, ← addAll, ih]
    by_cases h : n = name
    · simp only [h, List.filter_cons, beq_self_eq_true, ↓reduceIte, List.map_cons, Option.getD_some]
      cases (given.filter fun x => x.1 == name).map Prod.snd <;> simp
    · simp [h]

/-- The definitions of a name in the table: those of its blocks, of each
version the last one in the place of the first. -/
theorem versions?_collect (defaultVersion : String) (files : List BlockFile) (name : String) :
    (collect defaultVersion files).versions? name =
      match definitionsOf defaultVersion files name with
      | [] => none
      | d :: ds => some ((d :: ds).foldl (fun vs d => addVersion d vs) []) :=
  versions?_addAll name _ []

theorem addVersion_of_new {d : Definition} : ∀ {ds : List Definition},
    (∀ e ∈ ds, e.version ≠ d.version) → addVersion d ds = ds ++ [d]
  | [], _ => rfl
  | e :: es, h => by
    have he : e.version ≠ d.version := h e List.mem_cons_self
    have hes := addVersion_of_new fun x hx => h x (List.mem_cons_of_mem _ hx)
    simp [addVersion, he, hes]

theorem foldl_addVersion_of_new : ∀ {ds vs : List Definition},
    (vs ++ ds).Pairwise (fun d e => d.version ≠ e.version) →
    ds.foldl (fun vs d => addVersion d vs) vs = vs ++ ds
  | [], vs, _ => by simp
  | d :: ds, vs, h => by
    have hnew : ∀ e ∈ vs, e.version ≠ d.version := fun e he =>
      (List.pairwise_append.mp h).2.2 e he d List.mem_cons_self
    rw [List.foldl_cons, addVersion_of_new hnew]
    rw [List.append_cons] at h
    rw [foldl_addVersion_of_new h, List.append_assoc]
    rfl

/-! ### The nearest version -/

/-- The version of a definition is not above the one asked for, and not below
the lowest one allowed. -/
def InRange (version floor : String) (d : Definition) : Prop :=
  Version.atLeast version d.version = true ∧ Version.atLeast d.version floor = true

/-- The definition has the highest version in range. -/
def IsNearest (version floor : String) (ds : List Definition) (d : Definition) : Prop :=
  d ∈ ds ∧ InRange version floor d ∧ ∀ e ∈ ds, InRange version floor e →
    Version.atLeast d.version e.version = true

theorem IsNearest.cons_of_not {version floor : String} {ds : List Definition} {d e : Definition}
    (h : IsNearest version floor ds d) (he : ¬ InRange version floor e) :
    IsNearest version floor (e :: ds) d := by
  obtain ⟨hmem, hrange, hmax⟩ := h
  refine ⟨List.mem_cons_of_mem _ hmem, hrange, fun x hx hx' => ?_⟩
  rcases List.mem_cons.mp hx with rfl | hx
  · exact absurd hx' he
  · exact hmax x hx hx'

/-- The first of a list is the nearest, if none of the others is in the range
that it leaves. -/
theorem isNearest_head {version floor : String} {ds : List Definition} {e : Definition}
    (he : InRange version floor e) (h : ∀ x ∈ ds, ¬ InRange version e.version x) :
    IsNearest version floor (e :: ds) e := by
  refine ⟨List.mem_cons_self, he, fun x hx hx' => ?_⟩
  rcases List.mem_cons.mp hx with rfl | hx
  · exact Version.atLeast_refl _
  · exact (Version.atLeast_total _ _).resolve_right fun hge => h x hx ⟨hx'.1, hge⟩

/-- The nearest in the range that a definition leaves is the nearest with that
definition in front. -/
theorem IsNearest.cons_of_inRange {version floor : String} {ds : List Definition} {d e : Definition}
    (hv : Version.isValid floor) (hds : ∀ x ∈ e :: ds, Version.isValid x.version)
    (he : InRange version floor e) (h : IsNearest version e.version ds d) :
    IsNearest version floor (e :: ds) d := by
  obtain ⟨hmem, hrange, hmax⟩ := h
  have hve := hds e List.mem_cons_self
  have hvd := hds d (List.mem_cons_of_mem _ hmem)
  refine ⟨List.mem_cons_of_mem _ hmem, ⟨hrange.1, Version.atLeast_trans hvd hve hv hrange.2 he.2⟩, ?_⟩
  intro x hx hx'
  rcases List.mem_cons.mp hx with rfl | hx
  · exact hrange.2
  · -- below the one in front, or in the range that it leaves
    rcases Version.atLeast_total x.version e.version with hge | hge
    · exact hmax x hx ⟨hx'.1, hge⟩
    · exact Version.atLeast_trans hvd hve (hds x (List.mem_cons_of_mem _ ‹_›)) hrange.2 hge

/-- The scan keeps what it has if nothing is in range, and else ends with a
nearest definition. -/
theorem nearest_cases {version : String} : ∀ {ds : List Definition} {floor : String} (best : Option Definition),
    Version.isValid floor → (∀ d ∈ ds, Version.isValid d.version) →
    (nearest version floor best ds = best ∧ ∀ d ∈ ds, ¬ InRange version floor d) ∨
      ∃ d, nearest version floor best ds = some d ∧ IsNearest version floor ds d
  | [], _, _, _, _ => .inl ⟨rfl, by simp⟩
  | e :: ds, floor, best, hv, hds => by
    have hds' : ∀ d ∈ ds, Version.isValid d.version := fun d hd => hds d (List.mem_cons_of_mem _ hd)
    rw [nearest]
    split_ifs with h
    · have he : InRange version floor e := by simpa [InRange] using h
      rcases nearest_cases (some e) (hds e List.mem_cons_self) hds' with ⟨heq, hnone⟩ | ⟨d, heq, hd⟩
      · exact .inr ⟨e, heq, isNearest_head he hnone⟩
      · exact .inr ⟨d, heq, hd.cons_of_inRange hv hds he⟩
    · have he : ¬ InRange version floor e := by simpa [InRange] using h
      rcases nearest_cases best hv hds' with ⟨heq, hnone⟩ | ⟨d, heq, hd⟩
      · exact .inl ⟨heq, List.forall_mem_cons.mpr ⟨he, hnone⟩⟩
      · exact .inr ⟨d, heq, hd.cons_of_not he⟩

/-! ### Changing the order -/

theorem differentVersions_symm {d e : Definition} (h : DifferentVersions d e) : DifferentVersions e d := by
  intro heq
  apply h
  rw [Version.compareTexts_swap, heq]
  rfl

instance : Std.Symm DifferentVersions := ⟨fun _ _ => differentVersions_symm⟩

/-- Two definitions of a list at equal versions are one. -/
theorem eq_of_not_different {ds : List Definition} (h : ds.Pairwise DifferentVersions) {d e : Definition}
    (hd : d ∈ ds) (he : e ∈ ds) (heq : Version.compareTexts d.version e.version = .eq) : d = e := by
  by_contra hne
  exact h.forall hd he hne heq

theorem IsNearest.unique {version floor : String} {ds : List Definition} (h : ds.Pairwise DifferentVersions)
    {d e : Definition} (hd : IsNearest version floor ds d) (he : IsNearest version floor ds e) : d = e :=
  eq_of_not_different h hd.1 he.1
    (Version.compareTexts_of_atLeast (hd.2.2 e he.1 he.2.1) (he.2.2 d hd.1 hd.2.1))

theorem nearest_perm {version floor : String} {ds es : List Definition} (hperm : ds.Perm es)
    (hv : Version.isValid floor) (hds : ∀ d ∈ ds, Version.isValid d.version)
    (h : ds.Pairwise DifferentVersions) : nearest version floor none ds = nearest version floor none es := by
  have hes : ∀ e ∈ es, Version.isValid e.version := fun e he => hds e (hperm.mem_iff.mpr he)
  rcases nearest_cases none hv hds with ⟨hd, hnone⟩ | ⟨d, hd, hnear⟩ <;>
    rcases nearest_cases none hv hes with ⟨he, hnone'⟩ | ⟨e, he, hnear'⟩
  · rw [hd, he]
  · exact absurd hnear'.2.1 (hnone e (hperm.mem_iff.mpr hnear'.1))
  · exact absurd hnear.2.1 (hnone' d (hperm.mem_iff.mp hnear.1))
  · have hback : IsNearest version floor ds e :=
      ⟨hperm.mem_iff.mpr hnear'.1, hnear'.2.1, fun x hx => hnear'.2.2 x (hperm.mem_iff.mp hx)⟩
    rw [hd, he, hnear.unique h hback]

theorem find?_perm {α : Type} {f : α → Bool} {xs ys : List α} (hperm : xs.Perm ys)
    (h : ∀ x ∈ xs, ∀ y ∈ xs, f x = true → f y = true → x = y) : xs.find? f = ys.find? f := by
  cases hx : xs.find? f with
  | none =>
    rw [List.find?_eq_none] at hx
    rw [eq_comm, List.find?_eq_none]
    exact fun y hy => hx y (hperm.mem_iff.mpr hy)
  | some x =>
    have hmem := List.mem_of_find?_eq_some hx
    cases hy : ys.find? f with
    | none => exact absurd (List.find?_some hx) (List.find?_eq_none.mp hy x (hperm.mem_iff.mp hmem))
    | some y =>
      have hmem' := hperm.mem_iff.mpr (List.mem_of_find?_eq_some hy)
      rw [h x hmem y hmem' (List.find?_some hx) (List.find?_some hy)]

/-- What a look-up among the definitions of a name leads to: nothing if it
fails, and no definition if the name has none. -/
def foundIn (version floor : String) (ds : List Definition) : Option (Option Definition) :=
  if ds.isEmpty then some none
  else ((ds.find? fun d => d.version == version).or (nearest version floor none ds)).map some

theorem foundIn_perm {version floor : String} {ds es : List Definition} (hperm : ds.Perm es)
    (hv : Version.isValid floor) (hds : ∀ d ∈ ds, Version.isValid d.version)
    (h : ds.Pairwise DifferentVersions) : foundIn version floor ds = foundIn version floor es := by
  have hempty : ds.isEmpty = es.isEmpty := by
    rw [Bool.eq_iff_iff, List.isEmpty_iff, List.isEmpty_iff]
    exact ⟨fun hd => (hd ▸ hperm).symm.eq_nil, fun he => (he ▸ hperm).eq_nil⟩
  have hfind : ds.find? (fun d => d.version == version) = es.find? fun d => d.version == version := by
    refine find?_perm hperm fun d hd e he hdv hev => eq_of_not_different h hd he ?_
    rw [eq_of_beq hdv, eq_of_beq hev]
    exact Version.compareTexts_self version
  rw [foundIn, foundIn, hempty, hfind, nearest_perm hperm hv hds h]

/-- A look-up in the table is one among the definitions of the name. -/
theorem toOption_find {c : Context} {b : Block} {name : String} {files : List BlockFile}
    (hc : c.definitions = collect c.defaultVersion files)
    (h : (definitionsOf c.defaultVersion files name).Pairwise DifferentVersions) :
    (c.find b name).toOption =
      foundIn (c.versionOf b) c.defaultVersion (definitionsOf c.defaultVersion files name) := by
  have hne : (definitionsOf c.defaultVersion files name).Pairwise fun d e => d.version ≠ e.version := by
    refine h.imp fun {d e} hde heq => hde ?_
    rw [heq]
    exact Version.compareTexts_self e.version
  have hversions := versions?_collect c.defaultVersion files name
  unfold Context.find lookup foundIn
  rw [hc, hversions]
  cases hds : definitionsOf c.defaultVersion files name with
  | nil => rfl
  | cons d ds =>
    rw [hds] at hne
    have hfold : (d :: ds).foldl (fun vs d => addVersion d vs) [] = d :: ds :=
      foldl_addVersion_of_new hne
    simp only [hfold, List.isEmpty_cons, Bool.false_eq_true, ↓reduceIte]
    cases (d :: ds).find? fun d => d.version == c.versionOf b with
    | some e => rfl
    | none => cases nearest (c.versionOf b) c.defaultVersion none (d :: ds) <;> rfl

end Resolve
end Docblock
