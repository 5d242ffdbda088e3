/-
# Parents of fields

A parameter whose name has dots names a parent: of the parts of its name that
end before a dot, the longest that an earlier parameter had as its name,
together with an object type. What it says of the parent is what the latest such
parameter said (`parent_links`). The table of parents is all that is needed for
that: for each name it holds what the latest value said (`Recalls`), and a
parameter changes it at its own name alone (`Recalls.readParameter`). Each entry
has a copy of the parent that it had then, and still going from parent to parent
leads to ever shorter names, and to an end (`Climbs`).

Key definitions: `Tag.readEach`, `Tag.IsAbove`, `Tag.latest?`, `Tag.parentOf`,
`Tag.Climbs`, `Tag.Recalls`, `Tag.Linked`.
Key theorems: `Tag.readParameter_cases`, `Tag.Recalls.readParameter`,
`Tag.Recalls.linked`, `Tag.parent_links`.
-/
import Docblock.Proofs.Tag.Typed
import Mathlib.Data.List.ReduceOption

namespace Docblock
namespace Tag

open Text

/-! ### Parameters one after the other -/

/-- What parameters give one after the other, each text with its own default
group and read with the memory that those before it left. -/
def readEach : List (String × String) → Memory → List (Option Json)
  | [], _ => []
  | (defaultGroup, content) :: calls, memory =>
    (readParameter defaultGroup content memory).1 :: readEach calls (readParameter defaultGroup content memory).2

/-- Whether a value is that of a field of this name with an object type. -/
def isObjectField (path : String) (v : Json) : Bool :=
  v.getStr? "field" == some path && (v.getStr? "type").any fun kind => contains kind "Object"

/-- The latest value of a field of this name with an object type. -/
def latest? (path : String) (values : List Json) : Option Json := values.reverse.find? (isObjectField path)

/-- A name that ends before a dot of another. -/
def IsAbove (path field : String) : Prop := ∃ below, field.toList = path.toList ++ '.' :: below

/-- What the table of parents says of a field with an object type. -/
def remembered (v : Json) : Fields :=
  ["parentNode", "field", "type", "isArray"].filterMap fun key => (v.get? key).map fun w => (key, w)

/-- What a value says of a parent: where it is, and what the parent said. -/
def parentOf (path : String) (v : Json) : Json := .obj (("path", .str path) :: remembered v)

/-- From a field on, each parent is above the one before, and there is a last
one. -/
inductive Climbs : String → Option Json → Prop
  | top (field : String) : Climbs field none
  | up {field path : String} {node : Json} (hpath : node.getStr? "path" = some path) (habove : IsAbove path field)
      (h : Climbs path (node.get? "parentNode")) : Climbs field (some node)

/-! ### The parts of a name -/

theorem mem_dottedPrefixes_iff (path field : String) : path ∈ dottedPrefixes field ↔ IsAbove path field := by
  simp only [dottedPrefixes, List.mem_map, List.mem_filter, List.mem_reverse, List.mem_range, beq_iff_eq]
  constructor
  · rintro ⟨i, ⟨hi, hdot⟩, rfl⟩
    refine ⟨field.toList.drop (i + 1), ?_⟩
    obtain ⟨_, hget⟩ := List.getElem?_eq_some_iff.mp hdot
    rw [String.toList_ofList, ← hget, List.getElem_cons_drop, List.take_append_drop]
  · rintro ⟨below, hfield⟩
    refine ⟨path.toList.length, ⟨?_, ?_⟩, ?_⟩
    · rw [hfield]; simp
    · rw [hfield]; simp
    · rw [hfield]; simp

/-- The longest part comes first. -/
theorem pairwise_dottedPrefixes (field : String) :
    (dottedPrefixes field).Pairwise fun longer shorter => shorter.length < longer.length := by
  have hrange : (List.range field.toList.length).reverse.Pairwise fun i j => j < i := by
    rw [List.pairwise_reverse]
    exact List.pairwise_lt_range
  rw [dottedPrefixes, List.pairwise_map]
  refine (hrange.filter _).imp_of_mem fun {i j} hi hj hlt => ?_
  have hlength : i < field.toList.length := by simpa using (List.mem_filter.mp hi).1
  rw [String.length_ofList, String.length_ofList, List.length_take, List.length_take]
  omega

/-! ### One parameter -/

/-- What a value says of the type and the name that a parameter has, and of its
parent in a table. -/
structure Says (kind name : Option String) (parents : Fields) (v : Json) : Prop where
  type : v.get? "type" = kind.map .str
  field : v.get? "field" = name.map .str
  isArray : v.get? "isArray" = some (.bool (kind.any fun t => contains t "[]"))
  parentNode : v.get? "parentNode" = name.bind (parentNode? parents)

/-- The table with a parameter, if that has an object type. -/
def withParent (kind name : Option String) (parents : Fields) : Fields :=
  match kind, name with
  | some t, some f => if contains t "Object" then parents.set f (parentEntry parents t f) else parents
  | _, _ => parents

theorem readParameter_cases (defaultGroup content : String) (memory : Memory) :
    (readParameter defaultGroup content memory = (none, memory)) ∨
      ∃ v kind name, (readParameter defaultGroup content memory).1 = some v ∧ Says kind name memory.parents v ∧
        (readParameter defaultGroup content memory).2.parents = withParent kind name memory.parents := by
  unfold readParameter
  cases parameterPattern.find? (oneLine content) with
  | none => exact .inl rfl
  | some m =>
    have hnone : ∀ key, (Json.ofPresent []).get? key = none := fun _ => rfl
    refine .inr ⟨_, restored m 2, restored m 6, rfl, ⟨?_, ?_, ?_, ?_⟩, ?_⟩
    · simp [get?_ofPresent_cons, hnone]
    · simp [get?_ofPresent_cons, hnone]
    · simp [get?_ofPresent_cons]
    · simp [get?_ofPresent_cons, hnone]
    · dsimp only
      cases restored m 2 <;> cases restored m 6 <;> rfl

namespace Says

variable {kind name : Option String} {parents : Fields} {v : Json}

theorem isObjectField_iff (h : Says kind name parents v) (path : String) :
    isObjectField path v = true ↔ name = some path ∧ ∃ t, kind = some t ∧ contains t "Object" = true := by
  rw [isObjectField, Json.getStr?, Json.getStr?, h.type, h.field]
  cases kind <;> cases name <;> simp [Json.str?]

/-- What the table says of a parameter is what its value says. -/
theorem parentEntry_eq {t f : String} (h : Says (some t) (some f) parents v) :
    parentEntry parents t f = .obj (remembered v) := by
  have hnode : v.get? "parentNode" = parentNode? parents f := h.parentNode
  rw [parentEntry, remembered]
  simp only [List.filterMap_cons, h.type, h.field, h.isArray, hnode]
  cases parentNode? parents f <;> rfl

theorem get?_withParent (h : Says kind name parents v) (path : String) :
    Fields.get? path (withParent kind name parents) =
      if isObjectField path v then some (.obj (remembered v)) else Fields.get? path parents := by
  simp only [h.isObjectField_iff]
  cases kind with
  | none => simp [withParent]
  | some t =>
    cases name with
    | none => simp [withParent]
    | some f =>
      by_cases hobject : contains t "Object" = true
      · rw [withParent, if_pos hobject, Fields.get?_set, h.parentEntry_eq]
        by_cases hpath : path = f
        · simp [hpath, hobject]
        · simp [hpath, Ne.symm hpath]
      · simp [withParent, hobject]

end Says

/-- A parameter takes its parent from the table. -/
theorem parentNode_readParameter {defaultGroup content field : String} {memory : Memory} {v : Json}
    (h : (readParameter defaultGroup content memory).1 = some v) (hfield : v.getStr? "field" = some field) :
    v.get? "parentNode" = parentNode? memory.parents field := by
  rcases readParameter_cases defaultGroup content memory with hnone | ⟨w, kind, name, hw, hsays, -⟩
  · rw [hnone] at h
    cases h
  · obtain rfl : w = v := Option.some.inj (hw.symm.trans h)
    rw [Json.getStr?, hsays.field] at hfield
    cases name with
    | none => cases hfield
    | some name =>
      obtain rfl : name = field := Option.some.inj hfield
      exact hsays.parentNode

/-! ### The table -/

/-- The table of parents holds what the latest value of each name said. -/
def Recalls (values : List Json) (parents : Fields) : Prop :=
  ∀ path, Fields.get? path parents = (latest? path values).map fun v => .obj (remembered v)

theorem latest?_concat (path : String) (values : List Json) (v : Json) :
    latest? path (values ++ [v]) = if isObjectField path v then some v else latest? path values := by
  rw [latest?, List.reverse_concat, List.find?_cons]
  split <;> simp_all [latest?]

theorem latest?_isSome_iff (path : String) (values : List Json) :
    (latest? path values).isSome ↔ ∃ v ∈ values, isObjectField path v = true := by
  simp [latest?, List.find?_isSome]

theorem exists_of_latest? {path : String} {values : List Json} {v : Json} (h : latest? path values = some v) :
    v ∈ values ∧ isObjectField path v = true :=
  ⟨List.mem_reverse.mp (List.mem_of_find?_eq_some h), List.find?_some h⟩

/-- The step: a parameter with an object type becomes the latest of its name. -/
theorem Recalls.readParameter {values : List Json} {memory : Memory} (h : Recalls values memory.parents)
    (defaultGroup content : String) :
    Recalls (values ++ (readParameter defaultGroup content memory).1.toList)
      (readParameter defaultGroup content memory).2.parents := by
  rcases readParameter_cases defaultGroup content memory with hnone | ⟨v, kind, name, hv, hsays, hparents⟩
  · rw [hnone, Option.toList_none, List.append_nil]
    exact h
  · intro path
    rw [hv, hparents, hsays.get?_withParent, Option.toList_some, latest?_concat, h path]
    split_ifs <;> rfl

theorem get?_filterMap_get? (v : Json) (key : String) : ∀ keys : List String,
    Fields.get? key (keys.filterMap fun k => (v.get? k).map fun w => (k, w)) = if key ∈ keys then v.get? key else none
  | [] => rfl
  | k :: keys => by
    have ih := get?_filterMap_get? v key keys
    by_cases hk : k = key
    · subst hk
      cases hv : v.get? k with
      | none => simp [hv, ih]
      | some w => simp [hv, Fields.get?]
    · cases hv : v.get? k with
      | none => simp [hv, ih, Ne.symm hk]
      | some w => simp [hv, Fields.get?, hk, ih, Ne.symm hk]

theorem keys_filterMap_get? (v : Json) : ∀ keys : List String,
    (Fields.keys (keys.filterMap fun k => (v.get? k).map fun w => (k, w))).Sublist keys
  | [] => .slnil
  | k :: keys => by
    have ih := keys_filterMap_get? v keys
    cases hv : v.get? k with
    | none => simpa [hv] using ih.cons k
    | some w => simpa [hv, Fields.keys] using ih.cons_cons k

/-- A parent in the table does not say where it is, so its path comes first. -/
theorem setAll_remembered (path : String) (v : Json) :
    Json.obj (Fields.setAll [("path", .str path)] (remembered v)) = parentOf path v := by
  have hkeys : (Fields.keys (remembered v)).Sublist ["parentNode", "field", "type", "isArray"] :=
    keys_filterMap_get? v _
  have hdistinct : Fields.Distinct (remembered v) := hkeys.nodup (by decide)
  have happend : Fields.setAll [("path", .str path)] (remembered v) = [("path", .str path)] ++ remembered v := by
    refine Fields.setAll_eq_append hdistinct fun key hkey hpath => ?_
    obtain rfl : key = "path" := by simpa [Fields.keys] using hpath
    exact absurd (hkeys.subset hkey) (by decide)
  exact congrArg Json.obj happend

theorem Recalls.parentNode?_eq {values : List Json} {parents : Fields} (h : Recalls values parents) (field : String) :
    parentNode? parents field =
      (dottedPrefixes field).findSome? fun path => (latest? path values).map (parentOf path) := by
  rw [parentNode?]
  congr 1
  funext path
  rw [h path]
  cases latest? path values with
  | none => rfl
  | some v => exact congrArg some (setAll_remembered path v)

/-! ### The nearest parent -/

/-- The parent of a field, given the values of the parameters before it. -/
structure Linked (values : List Json) (field : String) (parent : Option Json) : Prop where
  /-- There is one if a field above it came before, with an object type. -/
  isSome_iff : parent.isSome ↔ ∃ path, IsAbove path field ∧ ∃ v ∈ values, isObjectField path v = true
  /-- It is the nearest of them, as its latest value describes it. -/
  nearest : ∀ node, parent = some node → ∃ path v, node = parentOf path v ∧ IsAbove path field ∧
    latest? path values = some v ∧
    ∀ other, IsAbove other field → (∃ w ∈ values, isObjectField other w = true) → other.length ≤ path.length
  /-- From parent to parent the names get shorter, and there is a last one. -/
  climbs : Climbs field parent

/-- The values that came before lead from parent to parent upwards. -/
def AllClimb (values : List Json) : Prop :=
  ∀ v ∈ values, ∀ field, v.getStr? "field" = some field → Climbs field (v.get? "parentNode")

theorem get?_parentNode_parentOf (path : String) (v : Json) :
    (parentOf path v).get? "parentNode" = v.get? "parentNode" := by
  have hget := get?_filterMap_get? v "parentNode" ["parentNode", "field", "type", "isArray"]
  rw [if_pos List.mem_cons_self] at hget
  exact hget

theorem Recalls.linked {values : List Json} {parents : Fields} (h : Recalls values parents) (hclimb : AllClimb values)
    (field : String) : Linked values field (parentNode? parents field) := by
  have hnearest : ∀ node, parentNode? parents field = some node → ∃ path v, node = parentOf path v ∧
      IsAbove path field ∧ latest? path values = some v ∧
      ∀ other, IsAbove other field → (∃ w ∈ values, isObjectField other w = true) → other.length ≤ path.length := by
    intro node hnode
    rw [h.parentNode?_eq, List.findSome?_eq_some_iff] at hnode
    obtain ⟨longer, path, shorter, hsplit, hfound, hnone⟩ := hnode
    obtain ⟨v, hv, rfl⟩ := Option.map_eq_some_iff.mp hfound
    refine ⟨path, v, rfl, ?_, hv, fun other hother hcame => ?_⟩
    · rw [← mem_dottedPrefixes_iff, hsplit]
      simp
    · have hsorted := pairwise_dottedPrefixes field
      rw [hsplit, List.pairwise_append, List.pairwise_cons] at hsorted
      rw [← mem_dottedPrefixes_iff, hsplit, List.mem_append, List.mem_cons] at hother
      rcases hother with hother | rfl | hother
      · have hmissing := hnone other hother
        rw [← latest?_isSome_iff] at hcame
        rw [Option.map_eq_none_iff] at hmissing
        rw [hmissing] at hcame
        cases hcame
      · exact le_rfl
      · exact (hsorted.2.1.1 other hother).le
  refine ⟨?_, hnearest, ?_⟩
  · rw [h.parentNode?_eq, List.findSome?_isSome_iff]
    simp only [mem_dottedPrefixes_iff, Option.isSome_map, latest?_isSome_iff]
  · cases hnode : parentNode? parents field with
    | none => exact .top field
    | some node =>
      obtain ⟨path, v, rfl, habove, hv, -⟩ := hnearest node hnode
      obtain ⟨hmem, hobject⟩ := exists_of_latest? hv
      have hfield : v.getStr? "field" = some path := by
        rw [isObjectField, Bool.and_eq_true, beq_iff_eq] at hobject
        exact hobject.1
      refine .up rfl habove ?_
      rw [get?_parentNode_parentOf]
      exact hclimb v hmem path hfield

/-! ### All parameters -/

/-- The run: each parameter is linked to those before it. -/
theorem linked_readEach : ∀ {calls : List (String × String)} {memory : Memory} {values : List Json},
    Recalls values memory.parents → AllClimb values →
    ∀ {i : Nat} {v : Json} {field : String}, (readEach calls memory)[i]? = some (some v) →
      v.getStr? "field" = some field →
      Linked (values ++ ((readEach calls memory).take i).reduceOption) field (v.get? "parentNode")
  | [], _, _, _, _, i, v, field, hi, _ => by simp [readEach] at hi
  | (defaultGroup, content) :: calls, memory, values, hrecalls, hclimb, i, v, field, hi, hfield => by
    rw [readEach] at hi ⊢
    cases i with
    | zero =>
      rw [List.take_zero, List.reduceOption_nil, List.append_nil,
        parentNode_readParameter (Option.some.inj hi) hfield]
      exact hrecalls.linked hclimb field
    | succ i =>
      -- the first value joins those that came before
      have hclimb' : AllClimb (values ++ (readParameter defaultGroup content memory).1.toList) := by
        intro w hw name hname
        rcases List.mem_append.mp hw with hw | hw
        · exact hclimb w hw name hname
        · rw [parentNode_readParameter (Option.mem_toList.mp hw) hname]
          exact (hrecalls.linked hclimb name).climbs
      have ih := linked_readEach (hrecalls.readParameter defaultGroup content) hclimb' hi hfield
      rw [List.append_assoc] at ih
      rw [List.take_succ_cons]
      cases hfirst : (readParameter defaultGroup content memory).1 with
      | none =>
        rw [hfirst] at ih
        rwa [List.reduceOption_cons_of_none]
      | some w =>
        rw [hfirst] at ih
        rwa [List.reduceOption_cons_of_some]

/-- **Fields are linked to their parents.** Of parameters that are read one
after the other, with no parents before them, each that has a field is linked to
the values of those before it: it has a parent if one of them had an object
type and a name above its own, and its parent is the nearest of them, as the
latest such value describes it, with the parent that it had then. From parent to
parent the names get shorter, and there is a last one. -/
theorem parent_links (calls : List (String × String)) (memory : Memory) (i : Nat) (v : Json) (field : String)
    (hv : (readEach calls { memory with parents := [] })[i]? = some (some v))
    (hfield : v.getStr? "field" = some field) :
    Linked ((readEach calls { memory with parents := [] }).take i).reduceOption field (v.get? "parentNode") := by
  have hstart : Recalls [] ({ memory with parents := [] } : Memory).parents := fun _ => rfl
  exact linked_readEach hstart (by simp [AllClimb]) hv hfield

/-- `a.b` is documented twice before `a.b.c.d`. -/
def nestedFields : List (String × String) :=
  [("Parameter", "\x7bObject\x7d a"), ("Parameter", "\x7bObject[]\x7d a.b"),
  ("Body", "(Nested) \x7bObject\x7d [a.b]"), ("Success 200", "\x7bString\x7d a.b.c.d Deep")]

theorem parent_links_nested :
    ∃ v node, (readEach nestedFields {})[3]? = some (some v) ∧ v.getStr? "field" = some "a.b.c.d" ∧
      v.get? "parentNode" = some node ∧ node.getStr? "path" = some "a.b" ∧ node.getStr? "type" = some "Object" ∧
      (node.get? "parentNode").bind (·.getStr? "path") = some "a" ∧
      Linked ((readEach nestedFields {}).take 3).reduceOption "a.b.c.d" (some node) := by
  have hread : (readEach nestedFields {})[3]?.join.bind (fun v => (v.get? "parentNode").bind fun node =>
      some (v.getStr? "field", node.getStr? "path", node.getStr? "type",
        (node.get? "parentNode").bind (·.getStr? "path"))) =
      some (some "a.b.c.d", some "a.b", some "Object", some "a") := by decide +kernel
  obtain ⟨v, hv, hread⟩ := Option.bind_eq_some_iff.mp hread
  obtain ⟨node, hnode, hread⟩ := Option.bind_eq_some_iff.mp hread
  obtain ⟨hfield, hpath, htype, habove⟩ : v.getStr? "field" = some "a.b.c.d" ∧ node.getStr? "path" = some "a.b" ∧
      node.getStr? "type" = some "Object" ∧ (node.get? "parentNode").bind (·.getStr? "path") = some "a" := by
    simpa using hread
  have hread' : (readEach nestedFields {})[3]? = some (some v) := Option.join_eq_some_iff.mp hv
  have hlinked := parent_links nestedFields {} 3 v "a.b.c.d" hread' hfield
  rw [hnode] at hlinked
  exact ⟨v, node, hread', hfield, hnode, hpath, htype, habove, hlinked⟩

end Tag
end Docblock
