/-
# Expansions keep the other elements

The hooks that come with the program replace elements of three names. They
run after every element, in the order of their priorities, so a hook may find
an element at the end that an earlier hook uncovered. It still replaces none
but one of its own name (`isExpansion_expandLast`), and so do all hooks
together along a whole comment (`findElements_builtin_keeps_others`).

Key definitions: `Element.standing`, `Element.others`, `Hook.IsExpansion`.
Key theorems: `Hook.isExpansion_expandLast`, `Hooks.others_foldl_applyEntry`,
`Hooks.applyEntry_expandLast_of_eq`, `Element.findElements_builtin_keeps_others`.
-/
import Docblock.Proofs.Element.LineReading
import Docblock.Tag.Expansion

namespace Docblock

/-- The names of the elements that stand for others. -/
def Element.standing : List String := ["apischema", "apicode", "openapi"]

/-- The elements that stand for no others. -/
def Element.others (es : List Element) : List Element := es.filter fun e => !standing.contains e.name

open Element (others standing)

theorem Element.others_append (es fs : List Element) : others (es ++ fs) = others es ++ others fs :=
  List.filter_append ..

theorem Element.others_sublist (es : List Element) : (others es).Sublist es := List.filter_sublist

/-- A list in which the others of another list come also has them among its
own others. -/
theorem Element.others_sublist_others {es fs : List Element} (h : (others es).Sublist fs) :
    (others es).Sublist (others fs) := by
  have hself : others (others es) = others es := by simp [others, List.filter_filter]
  rw [← hself]
  exact h.filter _

/-- The last element does not count if it stands for others. -/
theorem Element.others_eq_dropLast {es : List Element} {e : Element} (hlast : es.getLast? = some e)
    (he : e.name ∈ standing) : others es = others es.dropLast := by
  obtain ⟨init, rfl⟩ := List.getLast?_eq_some_iff.mp hlast
  rw [others_append, List.dropLast_concat]
  simp [others, he]

/-! ### One hook -/

namespace Hook

/-- A hook for lists that loses none of the elements that stand for no others,
and changes nothing where there is nothing else. -/
structure KeepsOthers (change : (block filename : String) → List Element → List Element × List String) :
    Prop where
  keeps : ∀ block filename es, (others es).Sublist (change block filename es).1
  fixes : ∀ block filename es, (∀ e ∈ es, e.name ∉ standing) → change block filename es = (es, [])

/-- A hook for lists that keeps the others. -/
def IsExpansion : Hook → Prop
  | .element _ => False
  | .elements change => KeepsOthers change

/-- **A hook that replaces the last element touches no other.** Whatever it
puts there, and also if it puts nothing there. -/
theorem isExpansion_expandLast {name : String} (hname : name ∈ standing) (expand : Tag.Expansion) :
    IsExpansion (Tag.expandLast name expand) where
  keeps block filename es := by
    cases hlast : es.getLast? with
    | none => simpa [hlast] using Element.others_sublist es
    | some e =>
      by_cases he : e.name = name
      · cases hnew : expand filename e with
        | none => simpa [hlast, he, hnew] using Element.others_sublist es
        | some replacement =>
          obtain ⟨new, remarks⟩ := replacement
          have hothers : others es = others es.dropLast := Element.others_eq_dropLast hlast (he ▸ hname)
          have hkept : (others es.dropLast).Sublist (es.dropLast ++ new) :=
            (Element.others_sublist _).trans (List.sublist_append_left ..)
          simpa [hlast, he, hnew, hothers] using hkept
      · simpa [hlast, he] using Element.others_sublist es
  fixes block filename es hes := by
    cases hlast : es.getLast? with
    | none => simp
    | some e =>
      have he : e.name ≠ name := fun h => hes e (List.mem_of_getLast? hlast) (h ▸ hname)
      simp [he]

end Hook

/-! ### All hooks of a name -/

namespace Hooks

variable (block filename : String)

/-- What `applyElements` does with one hook. -/
def applyEntry (found : List Element × List String) (entry : HookEntry) : List Element × List String :=
  match entry.hook with
  | .element _ => found
  | .elements change =>
    ((change block filename found.1).1, found.2 ++ (change block filename found.1).2)

theorem applyElements_eq_foldl (h : Hooks) (name : String) (es : List Element) :
    h.applyElements name block filename es = (h.named name).foldl (applyEntry block filename) (es, []) :=
  rfl

variable {block filename}

/-- The step: one hook keeps the others of a list. -/
theorem others_applyEntry {entry : HookEntry} (h : entry.hook.IsExpansion) (found : List Element × List String) :
    (others found.1).Sublist (applyEntry block filename found entry).1 := by
  obtain ⟨priority, change | change⟩ := entry
  · exact h.elim
  · exact h.keeps block filename found.1

theorem applyEntry_of_others {entry : HookEntry} (h : entry.hook.IsExpansion)
    {found : List Element × List String} (hfound : ∀ e ∈ found.1, e.name ∉ standing) :
    applyEntry block filename found entry = found := by
  obtain ⟨priority, change | change⟩ := entry
  · exact h.elim
  · simp [applyEntry, h.fixes block filename found.1 hfound]

/-- The run: hooks one after the other keep the others of a list, although each
sees what the one before it left. -/
theorem others_foldl_applyEntry {entries : List HookEntry} (h : ∀ entry ∈ entries, entry.hook.IsExpansion)
    (found : List Element × List String) :
    (others found.1).Sublist (entries.foldl (applyEntry block filename) found).1 := by
  induction entries generalizing found with
  | nil => exact Element.others_sublist found.1
  | cons entry entries ih =>
    have hentry : (others found.1).Sublist (applyEntry block filename found entry).1 :=
      others_applyEntry (h entry List.mem_cons_self) found
    have hrest := ih (fun e he => h e (List.mem_cons_of_mem _ he)) (applyEntry block filename found entry)
    exact (Element.others_sublist_others hentry).trans hrest

theorem foldl_applyEntry_of_others {entries : List HookEntry}
    (h : ∀ entry ∈ entries, entry.hook.IsExpansion) {found : List Element × List String}
    (hfound : ∀ e ∈ found.1, e.name ∉ standing) :
    entries.foldl (applyEntry block filename) found = found := by
  induction entries with
  | nil => rfl
  | cons entry entries ih =>
    rw [List.foldl_cons, applyEntry_of_others (h entry List.mem_cons_self) hfound]
    exact ih fun e he => h e (List.mem_cons_of_mem _ he)

/-- A hook leaves alone what does not end with an element of its name. -/
theorem applyEntry_expandLast_of_ne (block filename : String) (priority : Int) {name : String}
    (expand : Tag.Expansion) {es : List Element} (h : ∀ e ∈ es.getLast?, e.name ≠ name) (remarks : List String) :
    applyEntry block filename (es, remarks) ⟨priority, Tag.expandLast name expand⟩ = (es, remarks) := by
  cases hlast : es.getLast? with
  | none => simp [applyEntry, Tag.expandLast, hlast]
  | some e =>
    have he : e.name ≠ name := h e hlast
    simp [applyEntry, Tag.expandLast, hlast, he]

/-- An element of its name at the end is replaced. -/
theorem applyEntry_expandLast_of_eq (block : String) {filename : String} (priority : Int) {name : String}
    {expand : Tag.Expansion} {e : Element} {new : List Element} {more : List String} (hname : e.name = name)
    (hexpand : expand filename e = some (new, more)) (es : List Element) (remarks : List String) :
    applyEntry block filename (es ++ [e], remarks) ⟨priority, Tag.expandLast name expand⟩ =
      (es ++ new, remarks ++ more) := by
  simp [applyEntry, Tag.expandLast, hname, hexpand]

/-! ### The hooks that come with the program -/

theorem named_builtin (tree : FileTree) : (Hooks.builtin tree).named findElements =
    [⟨190, Tag.expandLast "openapi" (Tag.openApiExpansion tree)⟩,
      ⟨200, Tag.expandLast "apischema" (Tag.schemaExpansion tree)⟩,
      ⟨300, Tag.expandLast "apicode" (Tag.codeExpansion tree)⟩] := rfl

theorem isExpansion_of_mem_builtin {tree : FileTree} {entry : HookEntry}
    (h : entry ∈ (Hooks.builtin tree).named findElements) : entry.hook.IsExpansion := by
  have hhooks : entry.hook = Tag.expandLast "openapi" (Tag.openApiExpansion tree) ∨
      entry.hook = Tag.expandLast "apischema" (Tag.schemaExpansion tree) ∨
      entry.hook = Tag.expandLast "apicode" (Tag.codeExpansion tree) := by
    rw [named_builtin] at h
    simp only [List.mem_cons, List.not_mem_nil, or_false] at h
    exact h.imp (congrArg HookEntry.hook) (Or.imp (congrArg HookEntry.hook) (congrArg HookEntry.hook))
  obtain heq | heq | heq := hhooks
  all_goals
    rw [heq]
    apply Hook.isExpansion_expandLast
    simp [standing]

/-- The two kinds of hooks have names of different kinds. -/
theorem findElements_ne_findElement (name : String) : findElements ≠ findElement name := by
  intro h
  have hchars : (findElement name).toList = "parser-find-element-".toList ++ name.toList := String.toList_append
  have hplace : 19 < "parser-find-element-".toList.length := by decide
  have hs : findElements.toList[19]? = some 's' := by decide
  have hdash : "parser-find-element-".toList[19]? = some '-' := by decide
  rw [h, hchars, List.getElem?_append_left hplace, hdash] at hs
  exact absurd hs (by decide)

/-- No hook that comes with the program is one for elements of one name. -/
theorem named_findElement_builtin (tree : FileTree) (name : String) :
    (Hooks.builtin tree).named (findElement name) = [] := by
  have hother : (findElements == findElement name) = false :=
    beq_eq_false_iff_ne.mpr (findElements_ne_findElement name)
  have hlists : (Hooks.builtin tree).lists = [(findElements, (Hooks.builtin tree).named findElements)] := rfl
  rw [named, hlists]
  simp [hother]

end Hooks

/-! ### A whole comment -/

namespace Element

section

variable (tree : FileTree) (block filename : String)

/-- How an element of a comment joins those found before it. -/
def join (found : List Element × List String) (e : Element) : List Element × List String :=
  let next := (Hooks.builtin tree).applyElements Hooks.findElements block filename (found.1 ++ [e])
  (next.1, found.2 ++ next.2)

theorem findElements_builtin_eq_foldl :
    findElements (Hooks.builtin tree) block filename =
      (cut block).foldl (join tree block filename) ([], []) := by
  have helement : ∀ e, (Hooks.builtin tree).applyElement (Hooks.findElement e.name) block filename e = e := by
    intro e
    rw [Hooks.applyElement, Hooks.named_findElement_builtin, List.foldl_nil]
  simp only [findElements, helement]
  rfl

variable {tree block filename}

/-- The step: an element that joins displaces none of the others, and is
itself displaced only if it stands for others. -/
theorem others_join (found : List Element × List String) (e : Element) :
    (others (found.1 ++ [e])).Sublist (join tree block filename found e).1 := by
  rw [join, Hooks.applyElements_eq_foldl]
  exact Hooks.others_foldl_applyEntry (fun _ => Hooks.isExpansion_of_mem_builtin) (found.1 ++ [e], [])

theorem join_of_others {found : List Element × List String} {e : Element}
    (h : ∀ x ∈ found.1 ++ [e], x.name ∉ standing) :
    join tree block filename found e = (found.1 ++ [e], found.2) := by
  have hnext : (Hooks.builtin tree).applyElements Hooks.findElements block filename (found.1 ++ [e]) =
      (found.1 ++ [e], []) := by
    rw [Hooks.applyElements_eq_foldl]
    exact Hooks.foldl_applyEntry_of_others (fun _ => Hooks.isExpansion_of_mem_builtin) h
  simp [join, hnext]

/-- The run: the others of the elements that have joined are all there, in
their order. -/
theorem others_foldl_join (es : List Element) (found : List Element × List String) :
    (others (found.1 ++ es)).Sublist (es.foldl (join tree block filename) found).1 := by
  induction es generalizing found with
  | nil => simpa using others_sublist found.1
  | cons e es ih =>
    have hstep : (others (found.1 ++ [e])).Sublist (others (join tree block filename found e).1) :=
      others_sublist_others (others_join found e)
    calc others (found.1 ++ e :: es) = others (found.1 ++ [e]) ++ others es := by
          rw [← others_append, List.append_assoc, List.singleton_append]
      _ |>.Sublist (others (join tree block filename found e).1 ++ others es) := hstep.append_right _
      _ |>.Sublist ((e :: es).foldl (join tree block filename) found).1 := by
          rw [← others_append]
          exact ih _

theorem foldl_join_of_others (es : List Element) (found : List Element × List String)
    (h : ∀ e ∈ found.1 ++ es, e.name ∉ standing) :
    es.foldl (join tree block filename) found = (found.1 ++ es, found.2) := by
  induction es generalizing found with
  | nil => simp
  | cons e es ih =>
    rw [List.append_cons] at h ⊢
    have hstep : join tree block filename found e = (found.1 ++ [e], found.2) :=
      join_of_others fun x hx => h x (List.mem_append_left es hx)
    rw [List.foldl_cons, hstep, ih _ h]

end

/-- **Expansion loses no element of another name.** Whatever files there are,
the elements of a comment that are no schema, no code file and no document are
found with the hooks of the program, in their order; and a comment that has no
others is read as without hooks. -/
theorem findElements_builtin_keeps_others (tree : FileTree) (block filename : String) :
    (others (findElements {} block filename).1).Sublist (findElements (Hooks.builtin tree) block filename).1 ∧
      ((∀ e ∈ (findElements {} block filename).1, e.name ∉ standing) →
        findElements (Hooks.builtin tree) block filename = findElements {} block filename) := by
  rw [findElements_noHooks, findElements_builtin_eq_foldl]
  generalize cut block = es
  constructor
  · exact others_foldl_join es ([], [])
  · intro h
    exact foldl_join_of_others es ([], []) h

/-- A comment of which a file that is not there takes only the schema, and one
without a schema. -/
theorem findElements_builtin_keeps_others_schema :
    ([.new "apiName" "A" "@apiName A", .new "apiGroup" "B" "@apiGroup B"] : List Element).Sublist
        (findElements (Hooks.builtin {})
          "@apiName A\n@apiSchema {jsonschema=a.json} apiParam\n@apiGroup B" "a.js").1 ∧
      (∀ e ∈ (findElements {} "@apiName A\n@apiGroup B" "a.js").1, e.name ∉ standing) ∧
      findElements (Hooks.builtin {}) "@apiName A\n@apiGroup B" "a.js" =
        findElements {} "@apiName A\n@apiGroup B" "a.js" := by
  have hplain : ∀ e ∈ (findElements {} "@apiName A\n@apiGroup B" "a.js").1, e.name ∉ standing := by decide +kernel
  refine ⟨?_, hplain, (findElements_builtin_keeps_others {} _ _).2 hplain⟩
  have hothers : others (findElements {}
      "@apiName A\n@apiSchema {jsonschema=a.json} apiParam\n@apiGroup B" "a.js").1 =
      [.new "apiName" "A" "@apiName A", .new "apiGroup" "B" "@apiGroup B"] := by decide +kernel
  rw [← hothers]
  exact (findElements_builtin_keeps_others {} _ _).1

end Element
end Docblock
