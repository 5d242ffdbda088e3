/-
# Hooks in force

Whatever is registered, and in whatever order, the hooks of a name stand in
strictly ascending order of their priorities. A hook is put into such a list
where one pass over it finds its place (`placed_eq_insertEntry`), and it takes
the place of the one of the same priority and no other (`mem_insertEntry_iff`).
So what is in the list of a name is what was registered last under the name
with its priority (`ascending_named`, `mem_named_iff`).

A list in strictly ascending order is settled by its members
(`eq_of_ascending`). So it does not matter in which order hooks of different
names or priorities come (`alike_of_perm`), such as those that the tags bring
along, for which there is no order but that of a table (`alike_wired`).

Key definitions: `Hooks.Registration`, `Hooks.addAll`, `Hooks.InForce`,
`Hooks.Alike`, `Hooks.placed`, `Hooks.wired`.
Key theorems: `Hooks.placed_eq_insertEntry`, `Hooks.mem_named_iff`,
`Hooks.alike_of_perm`, `Hooks.hooks_in_force`.
-/
import Docblock.Proofs.Element.Expansion
import Docblock.Proofs.Tag.Registry
import Mathlib.Data.List.Perm.Basic
import Mathlib.Data.List.Pairwise

namespace Docblock

/-- What the hook does to single elements, if it is of this kind. -/
def HookEntry.elementChange? (entry : HookEntry) : Option ((block filename : String) → Element → Element) :=
  match entry.hook with
  | .element change => some change
  | .elements _ => none

/-- What the hook does to lists of elements, if it is of this kind. -/
def HookEntry.listChange? (entry : HookEntry) :
    Option ((block filename : String) → List Element → List Element × List String) :=
  match entry.hook with
  | .element _ => none
  | .elements change => some change

namespace Hooks

/-! ### Lists in order -/

/-- Each entry comes before those of higher priority, and no two have the same. -/
def Ascending (es : List HookEntry) : Prop := es.Pairwise fun a b => a.priority < b.priority

variable {new entry : HookEntry} {es : List HookEntry}

theorem Ascending.nodup (h : Ascending es) : es.Nodup :=
  h.imp fun hlt heq => by
    rw [heq] at hlt
    exact absurd hlt (Int.lt_irrefl _)

/-- **A list in order is settled by its members.** -/
theorem eq_of_ascending {fs : List HookEntry} (hes : Ascending es) (hfs : Ascending fs)
    (h : ∀ entry, entry ∈ es ↔ entry ∈ fs) : es = fs := by
  have hperm : es.Perm fs := (List.perm_ext_iff_of_nodup hes.nodup hfs.nodup).mpr h
  exact hperm.eq_of_pairwise (fun a b _ _ hab hba => absurd hab (not_lt.mpr hba.le)) hes hfs

/-- In a list in order, a new entry takes the place of the one with its priority
and of no other. -/
theorem mem_insertEntry_iff (h : Ascending es) :
    entry ∈ insertEntry new es ↔ entry = new ∨ entry ∈ es ∧ entry.priority ≠ new.priority := by
  induction es with
  | nil => simp [insertEntry]
  | cons e es ih =>
    obtain ⟨hfirst, hrest⟩ := List.pairwise_cons.mp h
    have hrest := ih hrest
    unfold insertEntry
    by_cases heq : new.priority = e.priority
    · rw [if_pos (by simpa using heq), List.mem_cons, List.mem_cons]
      constructor
      · rintro (rfl | hmem)
        · exact .inl rfl
        · have hlt := hfirst entry hmem
          exact .inr ⟨.inr hmem, by omega⟩
      · rintro (rfl | ⟨rfl | hmem, hne⟩)
        · exact .inl rfl
        · exact absurd heq.symm hne
        · exact .inr hmem
    · rw [if_neg (by simpa using heq)]
      by_cases hlt : new.priority < e.priority
      · rw [if_pos hlt, List.mem_cons]
        refine or_congr_right (iff_self_and.mpr fun hmem => ?_)
        rcases List.mem_cons.mp hmem with rfl | hmem
        · omega
        · have hlater := hfirst entry hmem
          omega
      · rw [if_neg hlt, List.mem_cons, List.mem_cons, hrest]
        constructor
        · rintro (rfl | rfl | ⟨hmem, hne⟩)
          · exact .inr ⟨.inl rfl, Ne.symm heq⟩
          · exact .inl rfl
          · exact .inr ⟨.inr hmem, hne⟩
        · rintro (rfl | ⟨rfl | hmem, hne⟩)
          · exact .inr (.inl rfl)
          · exact .inl rfl
          · exact .inr (.inr ⟨hmem, hne⟩)

/-- The step: putting a hook into a list in order leaves it in order. -/
theorem Ascending.insertEntry (h : Ascending es) : Ascending (insertEntry new es) := by
  induction es with
  | nil => exact List.pairwise_singleton _ _
  | cons e es ih =>
    obtain ⟨hfirst, hrest⟩ := List.pairwise_cons.mp h
    unfold Hooks.insertEntry
    by_cases heq : new.priority = e.priority
    · rw [if_pos (by simpa using heq)]
      refine List.pairwise_cons.mpr ⟨fun entry hmem => ?_, hrest⟩
      rw [heq]
      exact hfirst entry hmem
    · rw [if_neg (by simpa using heq)]
      by_cases hlt : new.priority < e.priority
      · rw [if_pos hlt]
        refine List.pairwise_cons.mpr ⟨fun entry hmem => ?_, h⟩
        rcases List.mem_cons.mp hmem with rfl | hmem
        · exact hlt
        · exact hlt.trans (hfirst entry hmem)
      · rw [if_neg hlt]
        refine List.pairwise_cons.mpr ⟨fun entry hmem => ?_, ih hrest⟩
        rcases (mem_insertEntry_iff hrest).mp hmem with rfl | ⟨hmem, -⟩
        · omega
        · exact hfirst entry hmem

/-! ### One pass -/

/-- Where one pass over a list finds the place of a priority: behind the last
entry with a lower one, or at the last entry with the same, and which of the two.
The pass is at index `i`, and `found` is the place so far. -/
def findPlace (priority : Int) : (i : Nat) → (found : Nat × Bool) → List HookEntry → Nat × Bool
  | _, found, [] => found
  | i, found, e :: es =>
    findPlace priority (i + 1)
      (if priority = e.priority then (i, true)
      else if e.priority < priority then (i + 1, found.2)
      else found) es

/-- The list with a hook put where one pass finds its place. -/
def placed (new : HookEntry) (es : List HookEntry) : List HookEntry :=
  match findPlace new.priority 0 (0, false) es with
  | (i, true) => es.set i new
  | (i, false) => es.insertIdx i new

theorem findPlace_of_forall_lt {priority : Int} (i : Nat) (found : Nat × Bool)
    (h : ∀ e ∈ es, priority < e.priority) : findPlace priority i found es = found := by
  induction es generalizing i with
  | nil => rfl
  | cons e es ih =>
    obtain ⟨he, hes⟩ := List.forall_mem_cons.mp h
    have hne : priority ≠ e.priority := he.ne
    have hnot : ¬ e.priority < priority := he.not_gt
    rw [findPlace, if_neg hne, if_neg hnot]
    exact ih (i + 1) hes

/-- From any index on, the pass finds the place among the entries that are left. -/
theorem exists_findPlace (new : HookEntry) (h : Ascending es) (i : Nat) :
    ∃ k same, findPlace new.priority i (i, false) es = (i + k, same) ∧
      insertEntry new es = if same then es.set k new else es.insertIdx k new := by
  induction es generalizing i with
  | nil => exact ⟨0, false, rfl, rfl⟩
  | cons e es ih =>
    obtain ⟨hfirst, hrest⟩ := List.pairwise_cons.mp h
    unfold findPlace insertEntry
    by_cases heq : new.priority = e.priority
    · -- what comes behind has higher priorities, so the place stays
      refine ⟨0, true, ?_, ?_⟩
      · rw [if_pos heq, findPlace_of_forall_lt _ _ fun entry hmem => heq ▸ hfirst entry hmem]
        rfl
      · rw [if_pos (by simpa using heq)]
        rfl
    · rw [if_neg heq, if_neg (show ¬ (new.priority == e.priority) = true by simpa using heq)]
      by_cases hlt : new.priority < e.priority
      · refine ⟨0, false, ?_, ?_⟩
        · rw [if_neg hlt.not_gt, findPlace_of_forall_lt _ _ fun entry hmem => hlt.trans (hfirst entry hmem)]
          rfl
        · rw [if_pos hlt]
          rfl
      · have hgt : e.priority < new.priority := by omega
        obtain ⟨k, same, hfind, hinsert⟩ := ih hrest (i + 1)
        refine ⟨k + 1, same, ?_, ?_⟩
        · rw [if_pos hgt, hfind, Nat.add_right_comm, Nat.add_assoc]
        · rw [if_neg hlt, hinsert]
          cases same <;> rfl

/-- **In a list in order, one pass finds the place of a hook.** -/
theorem placed_eq_insertEntry (new : HookEntry) (h : Ascending es) : placed new es = insertEntry new es := by
  obtain ⟨k, same, hfind, hinsert⟩ := exists_findPlace new h 0
  rw [placed, hfind, hinsert, Nat.zero_add]
  cases same <;> rfl

/-! ### Registrations -/

/-- A hook as it is registered: under a name, with a priority. -/
structure Registration where
  name : String
  entry : HookEntry

/-- The hooks with more registered, one after the other. -/
def addAll (h : Hooks) (rs : List Registration) : Hooks :=
  rs.foldl (fun h r => h.add r.name r.entry.priority r.entry.hook) h

/-- Adding a hook changes the list of its own name and no other. -/
theorem named_add (h : Hooks) (name other : String) (priority : Int) (hook : Hook) :
    (h.add name priority hook).named other =
      if other = name then insertEntry ⟨priority, hook⟩ (h.named name) else h.named other := by
  obtain ⟨lists⟩ := h
  simp only [add, named]
  induction lists with
  | nil =>
    by_cases hname : other = name
    · simp [update, hname]
    · simp [update, hname, Ne.symm hname]
  | cons list rest ih =>
    obtain ⟨n, entries⟩ := list
    by_cases hn : n = name
    · subst hn
      by_cases hname : other = n
      · simp [update, hname]
      · simp [update, hname, Ne.symm hname]
    · by_cases hother : n = other
      · subst hother
        simp [update, hn]
      · simpa [update, hn, hother] using ih

/-- One registration more changes the list of its own name and no other. -/
theorem named_addAll_concat (rs : List Registration) (r : Registration) (name : String) :
    (addAll {} (rs ++ [r])).named name =
      if name = r.name then insertEntry r.entry ((addAll {} rs).named r.name) else (addAll {} rs).named name := by
  have hconcat : addAll {} (rs ++ [r]) = (addAll {} rs).add r.name r.entry.priority r.entry.hook := List.foldl_append
  rw [hconcat, named_add]

/-- The hook was registered under the name, and no later one with its priority. -/
def InForce (rs : List Registration) (name : String) (entry : HookEntry) : Prop :=
  ∃ earlier later, rs = earlier ++ ⟨name, entry⟩ :: later ∧
    ∀ r ∈ later, r.name = name → r.entry.priority ≠ entry.priority

variable {rs : List Registration} {name : String}

/-- The step: a registration is in force, and those that were before are, but for
the one of its name and priority. -/
theorem inForce_concat_iff (r : Registration) :
    InForce (rs ++ [r]) name entry ↔
      r = ⟨name, entry⟩ ∨ InForce rs name entry ∧ (r.name = name → r.entry.priority ≠ entry.priority) := by
  constructor
  · rintro ⟨earlier, later, heq, hlater⟩
    rcases List.eq_nil_or_concat later with rfl | ⟨later, last, rfl⟩
    · exact .inl (List.append_inj_right' heq rfl |> List.cons.inj |>.1)
    · rw [List.concat_eq_append, ← List.cons_append, ← List.append_assoc] at heq
      obtain ⟨rfl, hlast⟩ := List.append_inj' heq rfl
      obtain rfl : r = last := (List.cons.inj hlast).1
      rw [List.concat_eq_append, List.forall_mem_append] at hlater
      exact .inr ⟨⟨earlier, later, rfl, hlater.1⟩, hlater.2 r (List.mem_singleton_self r)⟩
  · rintro (rfl | ⟨⟨earlier, later, rfl, hlater⟩, hr⟩)
    · exact ⟨rs, [], rfl, by simp⟩
    · refine ⟨earlier, later ++ [r], by simp, ?_⟩
      rw [List.forall_mem_append, List.forall_mem_singleton]
      exact ⟨hlater, hr⟩

/-- Each priority under which a hook was registered has one in force. -/
theorem exists_inForce_iff (priority : Int) :
    (∃ entry, InForce rs name entry ∧ entry.priority = priority) ↔
      ∃ r ∈ rs, r.name = name ∧ r.entry.priority = priority := by
  induction rs using List.reverseRecOn with
  | nil => simp [InForce]
  | append_singleton rs r ih =>
    simp only [inForce_concat_iff, List.mem_append, List.mem_singleton]
    constructor
    · rintro ⟨entry, rfl | ⟨hentry, -⟩, hpriority⟩
      · exact ⟨_, .inr rfl, rfl, hpriority⟩
      · obtain ⟨other, hmem, hother⟩ := ih.mp ⟨entry, hentry, hpriority⟩
        exact ⟨other, .inl hmem, hother⟩
    · rintro ⟨other, hmem, hname, hpriority⟩
      by_cases hr : r.name = name ∧ r.entry.priority = priority
      · refine ⟨r.entry, .inl ?_, hr.2⟩
        rw [← hr.1]
      · rcases hmem with hmem | rfl
        · obtain ⟨entry, hentry, hentryPriority⟩ := ih.mpr ⟨other, hmem, hname, hpriority⟩
          refine ⟨entry, .inr ⟨hentry, fun hrname hsame => hr ⟨hrname, ?_⟩⟩, hentryPriority⟩
          rw [hsame, hentryPriority]
        · exact absurd ⟨hname, hpriority⟩ hr

/-- **The run: after any registrations, the hooks of each name are in order.** -/
theorem ascending_named (rs : List Registration) (name : String) : Ascending ((addAll {} rs).named name) := by
  induction rs using List.reverseRecOn with
  | nil => exact List.Pairwise.nil
  | append_singleton rs r ih =>
    rw [named_addAll_concat]
    split
    · next hname =>
      rw [← hname]
      exact ih.insertEntry
    · exact ih

/-- **The run: after any registrations, those in force are the hooks of their
names.** -/
theorem mem_named_iff (rs : List Registration) (name : String) (entry : HookEntry) :
    entry ∈ (addAll {} rs).named name ↔ InForce rs name entry := by
  induction rs using List.reverseRecOn with
  | nil => simp [addAll, named, InForce]
  | append_singleton rs r ih =>
    rw [inForce_concat_iff, named_addAll_concat]
    obtain ⟨rname, new⟩ := r
    by_cases hname : name = rname
    · subst hname
      rw [if_pos rfl, mem_insertEntry_iff (ascending_named rs name), ih]
      simp [eq_comm]
    · rw [if_neg hname, ih]
      simp [Ne.symm hname]

/-! ### The order of registrations -/

/-- The same hooks under every name. -/
def Alike (h k : Hooks) : Prop := ∀ name, h.named name = k.named name

theorem alike_of_inForce_iff {rs' : List Registration}
    (h : ∀ name entry, InForce rs name entry ↔ InForce rs' name entry) : Alike (addAll {} rs) (addAll {} rs') := by
  intro name
  refine eq_of_ascending (ascending_named rs name) (ascending_named rs' name) fun entry => ?_
  rw [mem_named_iff, mem_named_iff, h]

/-- One of two registrations does not take the place of the other. -/
def Registration.Apart (a b : Registration) : Prop := a.name ≠ b.name ∨ a.entry.priority ≠ b.entry.priority

theorem Registration.Apart.symm {a b : Registration} (h : a.Apart b) : b.Apart a := h.imp Ne.symm Ne.symm

theorem inForce_swap {a b : Registration} (h : a.Apart b) (hforce : InForce (rs ++ [a] ++ [b]) name entry) :
    InForce (rs ++ [b] ++ [a]) name entry := by
  rw [inForce_concat_iff, inForce_concat_iff] at hforce ⊢
  rcases hforce with rfl | ⟨rfl | ⟨hrs, ha⟩, hb⟩
  · refine .inr ⟨.inl rfl, fun hname hpriority => ?_⟩
    exact h.elim (· hname) (· hpriority)
  · exact .inl rfl
  · exact .inr ⟨.inr ⟨hrs, hb⟩, ha⟩

/-- **Registrations that are apart can change places.** -/
theorem alike_swap (rs : List Registration) {a b : Registration} (h : a.Apart b) :
    Alike (addAll {} (rs ++ [a, b])) (addAll {} (rs ++ [b, a])) := by
  refine alike_of_inForce_iff fun name entry => ?_
  have hab : rs ++ [a, b] = rs ++ [a] ++ [b] := by simp
  have hba : rs ++ [b, a] = rs ++ [b] ++ [a] := by simp
  rw [hab, hba]
  exact ⟨inForce_swap h, inForce_swap h.symm⟩

/-- If all registrations are apart, all of them are in force. -/
theorem inForce_iff_mem (h : rs.Pairwise Registration.Apart) : InForce rs name entry ↔ ⟨name, entry⟩ ∈ rs := by
  constructor
  · rintro ⟨earlier, later, rfl, -⟩
    simp
  · intro hmem
    obtain ⟨earlier, later, rfl⟩ := List.append_of_mem hmem
    refine ⟨earlier, later, rfl, fun r hr hname hpriority => ?_⟩
    have hapart := (List.pairwise_cons.mp (List.pairwise_append.mp h).2.1).1 r hr
    exact hapart.elim (· hname.symm) (· hpriority.symm)

/-- **Registrations that are all apart can come in any order.** -/
theorem alike_of_perm {rs' : List Registration} (h : rs.Pairwise Registration.Apart) (hperm : rs.Perm rs') :
    Alike (addAll {} rs) (addAll {} rs') := by
  have h' : rs'.Pairwise Registration.Apart := hperm.pairwise h Registration.Apart.symm
  refine alike_of_inForce_iff fun name entry => ?_
  rw [inForce_iff_mem h, inForce_iff_mem h', hperm.mem_iff]

namespace Alike

variable {h k : Hooks}

theorem applyElement_eq (halike : Alike h k) (name block filename : String) (e : Element) :
    h.applyElement name block filename e = k.applyElement name block filename e := by
  rw [applyElement, applyElement, halike name]

theorem applyElements_eq (halike : Alike h k) (name block filename : String) (es : List Element) :
    h.applyElements name block filename es = k.applyElements name block filename es := by
  rw [applyElements, applyElements, halike name]

/-- A comment has the same elements with hooks that are alike. -/
theorem findElements_eq (halike : Alike h k) (block filename : String) :
    Element.findElements h block filename = Element.findElements k block filename := by
  unfold Element.findElements
  simp only [halike.applyElement_eq, halike.applyElements_eq]

end Alike

/-! ### What hooks do -/

/-- A single element goes through the hooks of its kind, in their order. -/
theorem applyElement_eq_foldl (h : Hooks) (name block filename : String) (e : Element) :
    h.applyElement name block filename e =
      ((h.named name).filterMap HookEntry.elementChange?).foldl (fun e change => change block filename e) e := by
  rw [applyElement, List.foldl_filterMap]
  congr
  funext e entry
  unfold HookEntry.elementChange?
  cases entry.hook <;> rfl

/-- So does a list of elements, and the remarks are collected. -/
theorem applyElements_eq_foldl_listChange (h : Hooks) (name block filename : String) (es : List Element) :
    h.applyElements name block filename es =
      ((h.named name).filterMap HookEntry.listChange?).foldl (fun found change =>
        ((change block filename found.1).1, found.2 ++ (change block filename found.1).2)) (es, []) := by
  rw [applyElements_eq_foldl, List.foldl_filterMap]
  congr
  funext found entry
  unfold HookEntry.listChange? applyEntry
  cases entry.hook <;> rfl

/-! ### The hooks that tags bring along -/

/-- The hook that the tag of a name brings along. -/
def broughtBy (tree : FileTree) (name : String) : Option Registration :=
  match name with
  | "openapi" => some ⟨findElements, 190, Tag.expandLast "openapi" (Tag.openApiExpansion tree)⟩
  | "apischema" => some ⟨findElements, 200, Tag.expandLast "apischema" (Tag.schemaExpansion tree)⟩
  | "apicode" => some ⟨findElements, 300, Tag.expandLast "apicode" (Tag.codeExpansion tree)⟩
  | _ => none

/-- The hooks that the tags of a table bring along, in the order of the table. -/
def wired (tree : FileTree) (tags : List (String × Tag)) : Hooks :=
  addAll {} (tags.filterMap fun entry => broughtBy tree entry.1)

theorem broughtBy_of_not_mem (tree : FileTree) {name : String} (h : name ∉ Element.standing) :
    broughtBy tree name = none := by
  unfold broughtBy
  split <;> first | rfl | exact absurd (by simp [Element.standing]) h

/-- The names of the tags that come with the program are among them the names of
those that bring hooks along, each once. -/
theorem filter_standing_builtin (tree : FileTree) :
    (((Registry.builtin tree).tags.map Prod.fst).filter (Element.standing.contains ·)).Perm Element.standing := by
  rw [Registry.names_builtin]
  refine (List.perm_ext_iff_of_nodup ((Registry.nodup_builtinTags tree).filter _) (by decide)).mpr fun name => ?_
  rw [List.mem_filter, List.contains_iff_mem]
  refine and_iff_right_of_imp fun hname => ?_
  have hwritten : ∃ written ∈ ["apiSchema", "apiCode", "openapi"], Text.lower written = name := by
    revert name
    decide +kernel
  obtain ⟨written, hmem, rfl⟩ := hwritten
  have hlisted : written ∈ (Registry.builtinTags tree).map Prod.fst := by
    simp only [List.mem_cons, List.not_mem_nil, or_false] at hmem
    rcases hmem with rfl | rfl | rfl <;>
      simp [Registry.builtinTags, Tag.schemaTags, Tag.exampleTags, Tag.openApiTags]
  obtain ⟨entry, hentry, rfl⟩ := List.mem_map.mp hlisted
  exact List.mem_map.mpr ⟨entry, hentry, rfl⟩

/-- What the tags that come with the program bring along. -/
theorem filterMap_broughtBy_builtin (tree : FileTree) :
    ((Registry.builtin tree).tags.filterMap fun entry => broughtBy tree entry.1).Perm [
      ⟨findElements, 200, Tag.expandLast "apischema" (Tag.schemaExpansion tree)⟩,
      ⟨findElements, 300, Tag.expandLast "apicode" (Tag.codeExpansion tree)⟩,
      ⟨findElements, 190, Tag.expandLast "openapi" (Tag.openApiExpansion tree)⟩] := by
  have hfun : broughtBy tree = fun name => if Element.standing.contains name then broughtBy tree name else none := by
    funext name
    split
    · rfl
    · next hname => exact broughtBy_of_not_mem tree (by simpa using hname)
  have hmap : (Registry.builtin tree).tags.filterMap (fun entry => broughtBy tree entry.1) =
      (((Registry.builtin tree).tags.map Prod.fst).filter (Element.standing.contains ·)).filterMap
        (broughtBy tree) := by
    rw [List.filterMap_filter, ← hfun, List.filterMap_map]
    rfl
  rw [hmap]
  exact (filter_standing_builtin tree).filterMap (broughtBy tree)

/-- **The hooks that come with the program do not depend on the order of the
table of tags.** -/
theorem alike_wired {tree : FileTree} {tags : List (String × Tag)} (h : tags.Perm (Registry.builtin tree).tags) :
    Alike (wired tree tags) (Hooks.builtin tree) := by
  let openApi : Registration := ⟨findElements, 190, Tag.expandLast "openapi" (Tag.openApiExpansion tree)⟩
  let schema : Registration := ⟨findElements, 200, Tag.expandLast "apischema" (Tag.schemaExpansion tree)⟩
  let code : Registration := ⟨findElements, 300, Tag.expandLast "apicode" (Tag.codeExpansion tree)⟩
  have hbrought : (tags.filterMap fun entry => broughtBy tree entry.1).Perm [schema, code, openApi] :=
    (h.filterMap _).trans (filterMap_broughtBy_builtin tree)
  have horder : ([schema, code] ++ [openApi]).Perm ([openApi] ++ [schema, code]) := List.perm_append_comm
  have hapart : [openApi, schema, code].Pairwise Registration.Apart := by
    simp [Registration.Apart, openApi, schema, code]
  have halike : Alike (Hooks.builtin tree) (wired tree tags) := alike_of_perm hapart (hbrought.trans horder).symm
  exact fun name => (halike name).symm

/-! ### Hooks in force -/

/-- **What the hooks of a name are and do, after any registrations.** They stand in
strictly ascending order of their priorities, one for each priority under which a
hook was registered, and it is the one that was registered last. Single elements
and lists of elements go through those of their kind in this order. Hooks of
different names or priorities can be registered in either order, and those that
come with the program in any order of the table of tags. -/
theorem hooks_in_force (rs : List Registration) (name : String) :
    let hooks := addAll {} rs
    Ascending (hooks.named name) ∧
      (∀ entry, entry ∈ hooks.named name ↔ InForce rs name entry) ∧
      (∀ priority, (∃ entry ∈ hooks.named name, entry.priority = priority) ↔
        ∃ r ∈ rs, r.name = name ∧ r.entry.priority = priority) ∧
      (∀ new, (addAll {} (rs ++ [⟨name, new⟩])).named name = placed new (hooks.named name)) ∧
      (∀ block filename e, hooks.applyElement name block filename e =
        ((hooks.named name).filterMap HookEntry.elementChange?).foldl (fun e change => change block filename e) e) ∧
      (∀ block filename es, hooks.applyElements name block filename es =
        ((hooks.named name).filterMap HookEntry.listChange?).foldl (fun found change =>
          ((change block filename found.1).1, found.2 ++ (change block filename found.1).2)) (es, [])) ∧
      (∀ a b : Registration, a.Apart b → Alike (addAll {} (rs ++ [a, b])) (addAll {} (rs ++ [b, a]))) ∧
      ∀ tree tags, tags.Perm (Registry.builtin tree).tags →
        Alike (wired tree tags) (Hooks.builtin tree) ∧
          ∀ block filename, Element.findElements (wired tree tags) block filename =
            Element.findElements (Hooks.builtin tree) block filename := by
  intro hooks
  refine ⟨ascending_named rs name, mem_named_iff rs name, fun priority => ?_, fun new => ?_,
    applyElement_eq_foldl hooks name, applyElements_eq_foldl_listChange hooks name, fun a b => alike_swap rs,
    fun tree tags hperm => ⟨alike_wired hperm, (alike_wired hperm).findElements_eq⟩⟩
  · rw [← exists_inForce_iff]
    simp only [hooks, mem_named_iff]
  · rw [named_addAll_concat, placed_eq_insertEntry new (ascending_named rs name), if_pos rfl]

/-- A hook that leaves an element behind the others. -/
def leaving (tag : String) : Hook := .elements fun _ _ es => (es ++ [.new tag "" ""], [])

theorem hooks_in_force_replaced :
    let rs : List Registration := [⟨findElements, 300, leaving "late"⟩, ⟨findElements, 200, leaving "old"⟩,
      ⟨findElement "api", 200, leaving "other"⟩, ⟨findElements, 200, leaving "new"⟩]
    let early : Registration := ⟨findElements, 100, leaving "early"⟩
    let middle : Registration := ⟨findElements, 250, leaving "middle"⟩
    InForce rs findElements ⟨200, leaving "new"⟩ ∧
      ((addAll {} rs).applyElements findElements "" "" []).1.map Element.sourceName = ["new", "late"] ∧
      middle.Apart early ∧ Alike (addAll {} (rs ++ [middle, early])) (addAll {} (rs ++ [early, middle])) ∧
      Alike (wired ⟨[]⟩ (Registry.builtin ⟨[]⟩).tags.reverse) (Hooks.builtin ⟨[]⟩) := by
  intro rs early middle
  obtain ⟨-, hmem, -, -, -, hlists, hswap, hwired⟩ := hooks_in_force rs findElements
  have hapart : middle.Apart early := .inr (by decide)
  refine ⟨(hmem ⟨200, leaving "new"⟩).mp (.head _), ?_, hapart, hswap middle early hapart,
    (hwired ⟨[]⟩ _ (List.reverse_perm _)).1⟩
  rw [hlists]
  rfl

end Hooks
end Docblock
