/-
# The tags that come with the program

Adding a tag changes what its own name leads to and nothing else
(`find?_add`). So whatever a name leads to is listed under that name
(`exists_mem_builtinTags`), and since no two names are the same, each tag that
is listed is found (`find?_builtin_of_mem`).

Key definitions: `Registry.builtinTags`.
Key theorems: `Registry.find?_add`, `Registry.exists_mem_builtinTags`,
`Registry.find?_builtin_of_mem`.
-/
import Docblock.Tag.Registry

namespace Docblock
namespace Registry

/-- All tags that come with the program, with their names as written. -/
def builtinTags (tree : FileTree) : List (String × Tag) :=
  Tag.endpointTags ++ Tag.parameterTags ++ Tag.exampleTags ++ Tag.schemaTags ++ Tag.mqttTags ++
    Tag.modelTags ++ Tag.iotTags ++ Tag.openApiTags tree ++ Tag.fileHeaderTags ++ Tag.tsdocTags

theorem find?_add_of_ne (r : Registry) {name other : String} (tag : Tag) (hne : Text.lower name ≠ other) :
    (r.add name tag).find? other = r.find? other := by
  obtain ⟨tags⟩ := r
  simp only [add, find?]
  induction tags with
  | nil => simp [put, hne]
  | cons entry rest ih =>
    obtain ⟨n, t⟩ := entry
    by_cases h : n = Text.lower name
    · simp [put, h, hne]
    · by_cases ho : n = other
      · simp [put, ho, Ne.symm hne]
      · simp [put, h, ho, ih]

/-- Adding a tag changes what its own name leads to, and nothing else. -/
theorem find?_add (r : Registry) (name other : String) (tag : Tag) :
    (r.add name tag).find? other = if Text.lower name = other then some tag else r.find? other := by
  by_cases h : Text.lower name = other
  · rw [if_pos h, ← h, find?_add_self]
  · rw [if_neg h, find?_add_of_ne r tag h]

theorem find?_foldl_add_of_not_mem {name : String} : ∀ {tags : List (String × Tag)} (r : Registry),
    (∀ n ∈ tags.map Prod.fst, Text.lower n ≠ name) →
    (tags.foldl (fun r entry => r.add entry.1 entry.2) r).find? name = r.find? name
  | [], r, _ => rfl
  | (n, t) :: rest, r, h => by
    rw [List.map_cons, List.forall_mem_cons] at h
    rw [List.foldl_cons, find?_foldl_add_of_not_mem _ h.2, find?_add_of_ne r t h.1]

theorem exists_mem_of_find?_foldl_add {name : String} {tag : Tag} : ∀ (tags : List (String × Tag)) (r : Registry),
    (tags.foldl (fun r entry => r.add entry.1 entry.2) r).find? name = some tag →
    (∃ n, (n, tag) ∈ tags ∧ Text.lower n = name) ∨ r.find? name = some tag
  | [], r, h => .inr h
  | (n, t) :: rest, r, h => by
    rw [List.foldl_cons] at h
    rcases exists_mem_of_find?_foldl_add rest _ h with ⟨m, hm, hlower⟩ | h
    · exact .inl ⟨m, List.mem_cons_of_mem _ hm, hlower⟩
    · rw [find?_add] at h
      by_cases hn : Text.lower n = name
      · rw [if_pos hn] at h
        cases h
        exact .inl ⟨n, List.mem_cons_self, hn⟩
      · rw [if_neg hn] at h
        exact .inr h

/-- **Whatever a name leads to is listed under that name.** -/
theorem exists_mem_builtinTags {tree : FileTree} {name : String} {tag : Tag}
    (h : (builtin tree).find? name = some tag) : ∃ n, (n, tag) ∈ builtinTags tree ∧ Text.lower n = name := by
  rcases exists_mem_of_find?_foldl_add (builtinTags tree) {} h with h | h
  · exact h
  · cases h

/-- With one tag a name, each tag is found under its name. -/
theorem find?_foldl_add_of_mem {name : String} {tag : Tag} : ∀ {tags : List (String × Tag)} (r : Registry),
    (tags.map fun entry => Text.lower entry.1).Nodup → (name, tag) ∈ tags →
    (tags.foldl (fun r entry => r.add entry.1 entry.2) r).find? (Text.lower name) = some tag
  | [], _, _, h => by cases h
  | (n, t) :: rest, r, hnodup, h => by
    obtain ⟨hnew, hrest⟩ := List.nodup_cons.mp hnodup
    rw [List.foldl_cons]
    rcases List.mem_cons.mp h with heq | hmem
    · cases heq
      rw [find?_foldl_add_of_not_mem _ ?_, find?_add_self]
      intro m hm heq
      obtain ⟨entry, hentry, rfl⟩ := List.mem_map.mp hm
      exact hnew (List.mem_map.mpr ⟨entry, hentry, heq⟩)
    · exact find?_foldl_add_of_mem _ hrest hmem

/-- No two of the tags have the same name. -/
theorem nodup_builtinTags (tree : FileTree) : ((builtinTags tree).map fun entry => Text.lower entry.1).Nodup := by
  -- the folder does not matter to the names
  have hnames : (builtinTags tree).map Prod.fst = (builtinTags ⟨[]⟩).map Prod.fst := by
    simp only [builtinTags, Tag.openApiTags, List.map_append, List.map_cons, List.map_nil]
  have hnodup : (((builtinTags ⟨[]⟩).map Prod.fst).map Text.lower).Nodup := by decide +kernel
  rw [← hnames, List.map_map] at hnodup
  exact hnodup

/-- A tag under a name that is not taken comes behind the others. -/
theorem put_of_not_mem {name : String} (tag : Tag) : ∀ {tags : List (String × Tag)}, name ∉ tags.map Prod.fst →
    put name tag tags = tags ++ [(name, tag)]
  | [], _ => rfl
  | (n, t) :: rest, h => by
    rw [List.map_cons, List.mem_cons, not_or] at h
    have hne : ¬ (n == name) = true := by simpa using Ne.symm h.1
    rw [put, if_neg hne, put_of_not_mem tag h.2, List.cons_append]

theorem names_foldl_add : ∀ {tags : List (String × Tag)} {r : Registry},
    (r.tags.map Prod.fst ++ tags.map fun entry => Text.lower entry.1).Nodup →
    (tags.foldl (fun r entry => r.add entry.1 entry.2) r).tags.map Prod.fst =
      r.tags.map Prod.fst ++ tags.map fun entry => Text.lower entry.1
  | [], r, _ => by simp
  | (n, t) :: rest, r, h => by
    have hnew : Text.lower n ∉ r.tags.map Prod.fst := fun hmem =>
      (List.nodup_append.mp h).2.2 _ hmem _ List.mem_cons_self rfl
    have hnames : (r.add n t).tags.map Prod.fst = r.tags.map Prod.fst ++ [Text.lower n] := by
      rw [add, put_of_not_mem t hnew, List.map_append]
      rfl
    have hsplit : r.tags.map Prod.fst ++ ((n, t) :: rest).map (fun entry => Text.lower entry.1) =
        (r.add n t).tags.map Prod.fst ++ rest.map fun entry => Text.lower entry.1 := by
      rw [hnames, List.map_cons, List.append_assoc, List.singleton_append]
    rw [hsplit] at h ⊢
    exact names_foldl_add h

/-- The names in the table of tags, in the order in which they are listed. -/
theorem names_builtin (tree : FileTree) :
    (builtin tree).tags.map Prod.fst = (builtinTags tree).map fun entry => Text.lower entry.1 :=
  names_foldl_add (r := {}) (nodup_builtinTags tree)

/-- **Each tag is found under its name.** -/
theorem find?_builtin_of_mem {tree : FileTree} {name : String} {tag : Tag} (h : (name, tag) ∈ builtinTags tree) :
    (builtin tree).find? (Text.lower name) = some tag :=
  find?_foldl_add_of_mem {} (nodup_builtinTags tree) h

end Registry
end Docblock
