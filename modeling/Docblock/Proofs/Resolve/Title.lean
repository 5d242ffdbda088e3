/-
# Titles where nothing is defined

Where no look-up fails, setting titles adds each field of a section to the group
of its title (`regroup_eq_gather`). Where no name is defined, this is the group
that the field names (`regroup_of_undefined`). Groups that are sorted like this
already stay as they are (`byGroup_contents`), and whatever is sorted is of that
form (`grouped_byGroup`). So a section stays as it is if and only if each of its
groups is a list of fields that name it (`titles_eq_self_iff`), and a run of such
stages over sorted sections changes nothing (`runNamed_of_unchanged`).

Key definitions: `Resolve.Grouped`, `Resolve.byGroup`, `Resolve.contents`,
`Resolve.SectionGrouped`, `Resolve.gather`, `Resolve.titleStages`.
Key theorems: `Resolve.byGroup_contents`, `Resolve.titles_eq_self_iff`,
`Resolve.runNamed_of_unchanged`.
-/
import Docblock.Proofs.Block.Attach
import Docblock.Proofs.Resolve.Run

namespace Docblock

namespace Resolve

open Fields

/-! ### Sorting fields into groups -/

/-- Each group is a list of fields that name it. -/
def Grouped (groups : Fields) : Prop :=
  Distinct groups ∧ ∀ entry ∈ groups, ∃ fields, fields ≠ [] ∧ entry.2 = .arr fields ∧
    ∀ field ∈ fields, groupOf field = entry.1

/-- The fields of all groups. -/
def contents (groups : Fields) : List Json := groups.flatMap fun (_, group) => group.arr?.getD []

/-- The fields in the groups that they name, in the order in which these come
up. -/
def byGroup (fields : List Json) : Fields :=
  fields.foldl (fun groups field => addToGroup (groupOf field) field groups) []

theorem grouped_nil : Grouped [] := ⟨List.nodup_nil, by simp⟩

/-- The list that a group holds, and whatever else names the group, may be
stored under it. -/
theorem Grouped.set {groups : Fields} (h : Grouped groups) {group : String} {more : List Json}
    (hmore : more ≠ []) (hnames : ∀ field ∈ more, groupOf field = group) :
    Grouped (groups.set group (.arr (((groups.get? group).bind Json.arr?).getD [] ++ more))) := by
  refine ⟨h.1.set _ _, fun entry hentry => ?_⟩
  obtain ⟨key, value⟩ := entry
  have hget := (get?_eq_some_iff (h.1.set _ _)).mpr hentry
  rw [get?_set] at hget
  by_cases hkey : key = group
  · subst hkey
    rw [if_pos rfl, Option.some.injEq] at hget
    refine ⟨_, by simp [hmore], hget.symm, fun field hfield => ?_⟩
    rcases List.mem_append.mp hfield with hold | hnew
    · cases hgroup : groups.get? key with
      | none => simp [hgroup] at hold
      | some old =>
        obtain ⟨fields, -, rfl, hfields⟩ := h.2 _ ((get?_eq_some_iff h.1).mp hgroup)
        rw [hgroup] at hold
        exact hfields field hold
    · exact hnames field hnew
  · rw [if_neg hkey, get?_eq_some_iff h.1] at hget
    exact h.2 _ hget

theorem Grouped.addToGroup {groups : Fields} (h : Grouped groups) (field : Json) :
    Grouped (addToGroup (groupOf field) field groups) :=
  h.set (by simp) (by simp)

/-- Whatever is sorted into groups is grouped. -/
theorem grouped_byGroup (fields : List Json) : Grouped (byGroup fields) := by
  have hrun : ∀ (fields : List Json) (groups : Fields), Grouped groups →
      Grouped (fields.foldl (fun groups field => Resolve.addToGroup (groupOf field) field groups) groups) := by
    intro fields
    induction fields with
    | nil => exact fun _ h => h
    | cons field fields ih => exact fun groups h => ih _ (h.addToGroup field)
  exact hrun fields [] grouped_nil

/-- Fields that all name the last group join it. -/
theorem foldl_addToGroup_last {front : Fields} {group : String} (hnew : group ∉ keys front) :
    ∀ {more : List Json} (fields : List Json), (∀ field ∈ more, groupOf field = group) →
      more.foldl (fun groups field => addToGroup (groupOf field) field groups) (front ++ [(group, .arr fields)]) =
        front ++ [(group, .arr (fields ++ more))]
  | [], fields, _ => by simp
  | field :: more, fields, h => by
    rw [List.forall_mem_cons] at h
    have hstep : addToGroup (groupOf field) field (front ++ [(group, .arr fields)]) =
        front ++ [(group, .arr (fields ++ [field]))] := by
      rw [h.1, addToGroup, set_append_of_not_mem _ _ hnew, get?_append_of_not_mem _ hnew]
      simp [Fields.get?, Fields.set, Json.arr?]
    rw [List.foldl_cons, hstep, foldl_addToGroup_last hnew _ h.2, List.append_assoc, List.singleton_append]

/-- **Sorting grouped fields changes nothing.** -/
theorem byGroup_contents {groups : Fields} (h : Grouped groups) : byGroup (contents groups) = groups := by
  -- the groups in front are finished, and the fields of those behind come up one group after the other
  have hrun : ∀ (rest front : Fields), Grouped (front ++ rest) →
      (contents rest).foldl (fun groups field => addToGroup (groupOf field) field groups) front = front ++ rest := by
    intro rest
    induction rest with
    | nil => exact fun front _ => (List.append_nil front).symm
    | cons entry rest ih =>
      intro front hgrouped
      obtain ⟨group, value⟩ := entry
      obtain ⟨fields, hne, rfl, hnames⟩ := hgrouped.2 (group, value) (by simp)
      obtain ⟨first, others, rfl⟩ := List.exists_cons_of_ne_nil hne
      rw [List.forall_mem_cons] at hnames
      have hnew : group ∉ keys front := by
        have hdistinct := hgrouped.1
        rw [Distinct, keys, List.map_append, List.nodup_append] at hdistinct
        intro hmem
        exact hdistinct.2.2 group hmem group (by simp) rfl
      have hfirst : addToGroup (groupOf first) first front = front ++ [(group, .arr [first])] := by
        have hset := set_append_of_not_mem (.arr [first]) [] hnew
        rw [List.append_nil] at hset
        rw [hnames.1, addToGroup, (get?_eq_none_iff group front).mpr hnew]
        exact hset
      have hlast := foldl_addToGroup_last hnew [first] hnames.2
      have hcontents : contents ((group, .arr (first :: others)) :: rest) = first :: others ++ contents rest := rfl
      rw [hcontents, List.foldl_append, List.foldl_cons, hfirst, hlast, List.singleton_append,
        ih _ (by simpa using hgrouped), List.append_assoc, List.singleton_append]
  exact hrun groups [] h

/-! ### Titles -/

/-- The fields of a section of a block are grouped, if they stand in groups. -/
def SectionGrouped (target : String) (own : Fields) : Prop :=
  ∀ groups, Json.getAt? [target, "fields"] (.obj own) = some (.obj groups) → Grouped groups

variable {c : Context}

theorem titleOf_of_find {b : Block} {name : String} {d? : Option Definition} (h : c.find b name = .ok d?) :
    titleOf c b name = .ok ((d?.map fun d => d.title name).getD name) := by
  rw [titleOf, h]
  cases d? <;> rfl

/-- The fields in groups, each added to the group of its title. -/
def gather (title : Json → String) (fields : List Json) : Fields :=
  fields.foldl (fun groups field => addToGroup (title field) field groups) []

/-- Where no look-up fails, the fields are added to the groups of their titles. -/
theorem regroup_eq_gather {b : Block} {title : Json → String} {fields : List Json}
    (h : ∀ field ∈ fields, titleOf c b (groupOf field) = .ok (title field)) :
    regroup c b fields = .ok (gather title fields) := by
  have hrun : ∀ (fields : List Json) (groups : Fields),
      (∀ field ∈ fields, titleOf c b (groupOf field) = .ok (title field)) →
      fields.foldlM (fun groups field => do
        return addToGroup (← titleOf c b (groupOf field)) field groups) groups =
      (.ok (fields.foldl (fun groups field => addToGroup (title field) field groups) groups) :
        Except Cause Fields) := by
    intro fields
    induction fields with
    | nil => exact fun _ _ => rfl
    | cons field fields ih =>
      intro groups h
      rw [List.forall_mem_cons] at h
      rw [List.foldlM_cons, h.1, List.foldl_cons, ← ih _ h.2]
      rfl
  exact hrun fields [] h

theorem find_of_undefined (hc : c.definitions.byName = []) (b : Block) (name : String) :
    c.find b name = .ok none := by
  have hnone : c.definitions.versions? name = none := by
    rw [Definitions.versions?, hc]
    rfl
  rw [Context.find, Definitions.lookup, hnone]

theorem mapM_titledField_of_undefined (hc : c.definitions.byName = []) (b : Block) :
    ∀ fields : List Json, fields.mapM (titledField c b) = .ok fields
  | [] => rfl
  | field :: fields => by
    have hfield : titledField c b field = .ok field := by
      rw [titledField, find_of_undefined hc]
      rfl
    rw [List.mapM_cons, hfield, mapM_titledField_of_undefined hc b fields]
    rfl

/-- Without definitions, fields are sorted by the groups that they name. -/
theorem regroup_of_undefined (hc : c.definitions.byName = []) (b : Block) (fields : List Json) :
    regroup c b fields = .ok (byGroup fields) :=
  regroup_eq_gather fun field _ => titleOf_of_find (find_of_undefined hc b (groupOf field))

/-- Without definitions, the groups of a section are sorted anew. -/
theorem titles_of_undefined (hc : c.definitions.byName = []) {target : String} {b : Block} {part groups : Fields}
    (htarget : b.own.get? target = some (.obj part)) (hfields : part.get? "fields" = some (.obj groups)) :
    titles c target b =
      ({ b with own := b.own.set target (.obj (part.set "fields" (.obj (byGroup (contents groups))))) }, none) := by
  unfold titles
  simp only [htarget, hfields, Option.bind_some, Json.obj?]
  rw [regroup_of_undefined hc]
  rfl

/-- **A section stays as it is if and only if it is grouped.** -/
theorem titles_eq_self_iff (hc : c.definitions.byName = []) (target : String) (b : Block) :
    titles c target b = (b, none) ↔ SectionGrouped target b.own := by
  unfold SectionGrouped
  rw [Json.getAt?_cons]
  cases htarget : b.own.get? target with
  | none => simp [titles, htarget]
  | some old =>
    rw [Option.bind_some]
    cases old with
    | arr fields =>
      -- fields in a plain list are in no group
      have hset : b.own.set target (.arr fields) = b.own := set_of_get? htarget
      simp [titles, htarget, mapM_titledField_of_undefined hc, withOwn, bind, Except.bind, pure, Except.pure,
        hset, Json.getAt?, Json.get?]
    | obj part =>
      rw [Json.getAt?_singleton]
      by_cases hgroups : ∃ groups, Fields.get? "fields" part = some (.obj groups)
      · obtain ⟨groups, hfields⟩ := hgroups
        rw [titles_of_undefined hc htarget hfields, hfields]
        constructor
        · intro hsame _ hgroups
          cases hgroups
          let sorted : Fields := Fields.set "fields" (.obj (byGroup (contents groups))) part
          have hown : b.own.set target (.obj sorted) = b.own := congrArg (fun r : Result => r.1.own) hsame
          have hpart := get?_set_self target (.obj sorted) b.own
          rw [hown, htarget, Option.some.injEq, Json.obj.injEq] at hpart
          have hsorted : sorted.get? "fields" = some (.obj (byGroup (contents groups))) :=
            get?_set_self "fields" (.obj (byGroup (contents groups))) part
          rw [← hpart, hfields, Option.some.injEq, Json.obj.injEq] at hsorted
          rw [hsorted]
          exact grouped_byGroup _
        · intro hgrouped
          rw [byGroup_contents (hgrouped groups rfl), set_of_get? hfields, set_of_get? htarget]
      · refine ⟨fun _ groups hfields => absurd ⟨groups, hfields⟩ hgroups, fun _ => ?_⟩
        unfold titles
        simp only [htarget]
        cases hfields : (Fields.get? "fields" part).bind Json.obj? with
        | none => rfl
        | some groups =>
          obtain ⟨v, hv, hobj⟩ := Option.bind_eq_some_iff.mp hfields
          cases v <;> cases hobj
          exact absurd ⟨groups, hv⟩ hgroups
    | _ => simp [titles, htarget, Json.getAt?, Json.get?]

/-! ### Runs -/

/-- The stages that set titles. -/
def titleStages : List Stage := stages.take 6

/-- The sections whose groups have titles. -/
def titleTargets : List String := ["body", "error", "header", "parameter", "query", "success"]

theorem exists_target_of_mem_titleStages {s : Stage} (h : s ∈ titleStages) :
    ∃ target ∈ titleTargets, s.action = .titles target := by
  have hactions : titleStages.map Stage.action = titleTargets.map Action.titles := rfl
  have hmem : s.action ∈ titleTargets.map Action.titles := hactions ▸ List.mem_map_of_mem h
  obtain ⟨target, htarget, heq⟩ := List.mem_map.mp hmem
  exact ⟨target, htarget, heq.symm⟩

/-- Stages that leave each block as it is leave all of them. -/
theorem runNamed_of_unchanged {p : Package} {named : List (BlockFile × String)} : ∀ {ss : List Stage},
    (∀ s ∈ ss, ∀ x ∈ named, ∀ b ∈ x.1,
      s.action.apply (contextOf p (named.map Prod.fst)) x.2 b = (b, none)) →
    (runNamed p ss named).files = named.map Prod.fst ∧ (runNamed p ss named).fault = none
  | [], _ => ⟨rfl, rfl⟩
  | s :: ss, h => by
    rw [List.forall_mem_cons] at h
    have hpasses : s.Passes p named := by
      intro x hx b hb
      rw [Stage.apply, h.1 x hx b hb]
      rfl
    have hafter : s.after p named = named := by
      rw [Stage.after, mapNamed]
      refine (List.map_congr_left fun x hx => ?_).trans (List.map_id named)
      have hblocks : x.1.map (s.block p (named.map Prod.fst) x.2) = x.1 := by
        refine (List.map_congr_left fun b hb => ?_).trans (List.map_id x.1)
        rw [Stage.block, Stage.apply, h.1 x hx b hb]
        rfl
      rw [hblocks]
      rfl
    obtain ⟨hfiles, hfault⟩ := runNamed_cons_of_passes hpasses ss
    rw [hfiles, hfault, hafter]
    exact runNamed_of_unchanged h.2

end Resolve
end Docblock
