/-
# What the table of definitions holds

Every definition in the table was given by a block
(`ofBlock?_of_has_collect`), and a look-up leads to nothing but definitions
of the table (`has_of_lookup`).

Key definitions: `Resolve.Definitions.Has`, `Resolve.Definitions.addAll`.
Key theorems: `Resolve.Definitions.ofBlock?_of_has_collect`,
`Resolve.Definitions.has_of_lookup`, `Resolve.Context.has_of_find`.
-/
import Docblock.Resolve.Basic

namespace Docblock
namespace Resolve
namespace Definitions

/-- The table holds the definition under the name. -/
def Has (ds : Definitions) (name : String) (d : Definition) : Prop :=
  ∃ versions, (name, versions) ∈ ds.byName ∧ d ∈ versions

/-- All of a list of definitions added under their names. -/
def addAll (given : List (String × Definition)) (names : List (String × List Definition)) :
    List (String × List Definition) :=
  given.foldl (fun names (name, d) => addNamed name d names) names

/-! ### Collecting -/

theorem mem_addVersion {d e : Definition} : ∀ {ds : List Definition}, e ∈ addVersion d ds → e = d ∨ e ∈ ds
  | [], h => by simpa [addVersion] using h
  | x :: xs, h => by
    unfold addVersion at h
    split at h
    · rcases List.mem_cons.mp h with h | h
      · exact .inl h
      · exact .inr (List.mem_cons_of_mem _ h)
    · rcases List.mem_cons.mp h with h | h
      · exact .inr (h ▸ List.mem_cons_self)
      · exact (mem_addVersion h).imp_right (List.mem_cons_of_mem _)

theorem has_addNamed {name other : String} {d e : Definition} :
    ∀ {names : List (String × List Definition)}, Has ⟨addNamed name d names⟩ other e →
      (other = name ∧ e = d) ∨ Has ⟨names⟩ other e
  | [], ⟨versions, hmem, he⟩ => by
    simp only [addNamed, List.mem_singleton, Prod.mk.injEq] at hmem
    obtain ⟨rfl, rfl⟩ := hmem
    exact .inl ⟨rfl, List.mem_singleton.mp he⟩
  | (n, ds) :: rest, ⟨versions, hmem, he⟩ => by
    simp only [addNamed] at hmem
    split at hmem
    · rename_i hn
      rcases List.mem_cons.mp hmem with h | h
      · obtain ⟨rfl, rfl⟩ := Prod.mk.inj h
        rcases mem_addVersion he with he | he
        · exact .inl ⟨eq_of_beq hn, he⟩
        · exact .inr ⟨ds, List.mem_cons_self, he⟩
      · exact .inr ⟨versions, List.mem_cons_of_mem _ h, he⟩
    · rcases List.mem_cons.mp hmem with h | h
      · exact .inr ⟨versions, h ▸ List.mem_cons_self, he⟩
      · refine (has_addNamed ⟨versions, h, he⟩).imp_right ?_
        rintro ⟨vs, hvs, hd⟩
        exact ⟨vs, List.mem_cons_of_mem _ hvs, hd⟩

theorem has_addAll {name : String} {d : Definition} :
    ∀ (given : List (String × Definition)) (names : List (String × List Definition)),
      Has ⟨addAll given names⟩ name d → (name, d) ∈ given ∨ Has ⟨names⟩ name d
  | [], _, h => .inr h
  | (n, e) :: given, names, h => by
    rcases has_addAll given (addNamed n e names) h with h | h
    · exact .inl (List.mem_cons_of_mem _ h)
    · rcases has_addNamed h with ⟨rfl, rfl⟩ | h
      · exact .inl List.mem_cons_self
      · exact .inr h

/-- Every definition of the table was given by a block. -/
theorem ofBlock?_of_has_collect {defaultVersion name : String} {files : List BlockFile}
    {d : Definition} (h : (collect defaultVersion files).Has name d) :
    ∃ file ∈ files, ∃ b ∈ file, ofBlock? defaultVersion b = some (name, d) := by
  rcases has_addAll _ [] h with h | ⟨versions, hmem, -⟩
  · obtain ⟨b, hb, hd⟩ := List.mem_filterMap.mp h
    obtain ⟨file, hfile, hb⟩ := List.mem_flatten.mp hb
    exact ⟨file, hfile, b, hb, hd⟩
  · cases hmem

/-! ### Looking up -/

theorem mem_of_nearest {version : String} {d : Definition} :
    ∀ {last : String} {best : Option Definition} {ds : List Definition},
      nearest version last best ds = some d → best = some d ∨ d ∈ ds
  | _, _, [], h => .inl h
  | last, best, e :: es, h => by
    unfold nearest at h
    split at h
    · rcases mem_of_nearest h with h | h
      · exact .inr (Option.some.inj h ▸ List.mem_cons_self)
      · exact .inr (List.mem_cons_of_mem _ h)
    · exact (mem_of_nearest h).imp_right (List.mem_cons_of_mem _)

theorem mem_of_versions? {ds : Definitions} {name : String} {versions : List Definition}
    (h : ds.versions? name = some versions) : (name, versions) ∈ ds.byName := by
  obtain ⟨⟨n, vs⟩, hfind, rfl⟩ := Option.map_eq_some_iff.mp h
  have hn : n = name := by simpa using List.find?_some hfind
  exact hn ▸ List.mem_of_find?_eq_some hfind

/-- A look-up leads to a definition of the table. -/
theorem has_of_lookup {ds : Definitions} {name version floor : String} {d : Definition}
    (h : ds.lookup name version floor = .found d) : ds.Has name d := by
  unfold lookup at h
  split at h
  · cases h
  · rename_i versions hversions
    refine ⟨versions, mem_of_versions? hversions, ?_⟩
    split at h
    · rename_i e he
      cases h
      exact List.mem_of_find?_eq_some he
    · split at h
      · rename_i e he
        cases h
        exact (mem_of_nearest he).resolve_left (by simp)
      · cases h

end Definitions

namespace Context

theorem has_of_find {c : Context} {b : Block} {name : String} {d : Definition}
    (h : c.find b name = .ok (some d)) : c.definitions.Has name d := by
  unfold find at h
  split at h
  · cases h
  · rename_i e he
    cases h
    exact Definitions.has_of_lookup he
  · cases h

end Context
end Resolve
end Docblock
