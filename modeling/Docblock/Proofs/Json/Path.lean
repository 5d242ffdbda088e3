/-
# Reading and writing at a place

A place in a value is reached through objects. Each of them is a layer around
what it holds: the entries in front, the key, and the entries behind it
(`Layer`). A place can be read if and only if the value is made of layers with
these keys (`getAt?_eq_some_iff`), and writing there puts another value into the
same layers (`setAt_inside`). So reading and writing agree on the places that
there are, and what writing does can be read off the layers: a place beside the
one that is written reads as before (`getAt?_inside_of_beside`), and the objects
around it have the same keys in the same order (`outline_getAt?_inside`).

Key definitions: `Json.outline`, `Json.Layer`, `Json.inside`.
Key theorems: `Json.getAt?_append`, `Json.getAt?_eq_some_iff`,
`Json.setAt_inside`, `Json.setAt_of_none`, `Json.getAt?_inside_of_beside`,
`Json.outline_getAt?_inside`, `Json.dotted_path_laws`.
-/
import Docblock.Json.Path
import Docblock.Proofs.Json.Fields

namespace Docblock
namespace Json

/-! ### What stands at a place -/

theorem getAt?_cons (key : String) (keys : List String) (fields : Fields) :
    getAt? (key :: keys) (.obj fields) = (fields.get? key).bind (getAt? keys) := rfl

theorem getAt?_singleton (key : String) (fields : Fields) : getAt? [key] (.obj fields) = fields.get? key := by
  rw [getAt?_cons]
  cases fields.get? key <;> rfl

theorem getAt?_append : ∀ (keys more : List String) (v : Json),
    getAt? (keys ++ more) v = (getAt? keys v).bind (getAt? more)
  | [], _, _ => rfl
  | key :: keys, more, v => by
    cases h : v.get? key with
    | none => simp [getAt?, h]
    | some w => simp [getAt?, h, getAt?_append keys more w]

/-- A value without what is below it: of an object the keys, in order, and
anything else as it is. -/
def outline : Json → Json
  | .obj fields => .obj (fields.map fun entry => (entry.1, .null))
  | v => v

theorem outline_obj_eq {fields others : Fields} (h : fields.keys = others.keys) :
    outline (.obj fields) = outline (.obj others) := by
  have hmap := congrArg (List.map fun key => (key, Json.null)) h
  rw [Fields.keys, Fields.keys, List.map_map, List.map_map] at hmap
  exact congrArg Json.obj hmap

/-! ### Layers -/

/-- An object around a value: the entries in front of it, its key, which none of
them has, and the entries behind it. -/
structure Layer where
  front : Fields
  key : String
  back : Fields
  notInFront : key ∉ front.keys

namespace Layer

/-- The entries with the value under its key. -/
def fields (l : Layer) (v : Json) : Fields := l.front ++ (l.key, v) :: l.back

theorem get?_fields (l : Layer) (v : Json) : (l.fields v).get? l.key = some v := by
  rw [fields, Fields.get?_append_of_not_mem _ l.notInFront]
  simp [Fields.get?]

theorem set_fields (l : Layer) (v w : Json) : (l.fields v).set l.key w = l.fields w := by
  rw [fields, Fields.set_append_of_not_mem w _ l.notInFront]
  simp [Fields.set, fields]

theorem get?_fields_of_ne (l : Layer) {other : String} (h : other ≠ l.key) (v w : Json) :
    (l.fields v).get? other = (l.fields w).get? other := by
  rw [← l.set_fields v w, Fields.get?_set_of_ne w h]

theorem keys_fields (l : Layer) (v w : Json) : (l.fields v).keys = (l.fields w).keys := by
  simp [fields, Fields.keys]

end Layer

/-- An object with a value under a key is a layer around it. -/
theorem exists_layer {key : String} {v : Json} : ∀ {fields : Fields}, fields.get? key = some v →
    ∃ l : Layer, key = l.key ∧ fields = l.fields v
  | [], h => by cases h
  | (k, w) :: rest, h => by
    by_cases hk : k = key
    · obtain rfl : w = v := by simpa [Fields.get?, hk] using h
      exact ⟨⟨[], k, rest, List.not_mem_nil⟩, hk.symm, rfl⟩
    · have hrest : Fields.get? key rest = some v := by simpa [Fields.get?, hk] using h
      obtain ⟨l, rfl, rfl⟩ := exists_layer hrest
      have hnew : l.key ∉ Fields.keys ((k, w) :: l.front) := by
        rw [Fields.keys, List.map_cons, List.mem_cons, not_or]
        exact ⟨Ne.symm hk, l.notInFront⟩
      exact ⟨⟨(k, w) :: l.front, l.key, l.back, hnew⟩, rfl, rfl⟩

/-- A value inside layers, the outermost first. -/
def inside (layers : List Layer) (v : Json) : Json :=
  layers.foldr (fun l w => .obj (l.fields w)) v

theorem inside_cons (l : Layer) (layers : List Layer) (v : Json) :
    inside (l :: layers) v = .obj (l.fields (inside layers v)) := rfl

theorem inside_append (layers more : List Layer) (v : Json) :
    inside (layers ++ more) v = inside layers (inside more v) :=
  List.foldr_append

/-- At the end of its keys and below it there is the value inside the layers. -/
theorem getAt?_inside (layers : List Layer) (more : List String) (v : Json) :
    getAt? (layers.map Layer.key ++ more) (inside layers v) = getAt? more v := by
  induction layers with
  | nil => rfl
  | cons l layers ih =>
    rw [List.map_cons, List.cons_append, inside_cons, getAt?_cons, l.get?_fields, Option.bind_some, ih]

/-- **There is a place in a value if the value is made of layers with its keys.** -/
theorem getAt?_eq_some_iff {keys : List String} {v w : Json} :
    getAt? keys v = some w ↔ ∃ layers, keys = layers.map Layer.key ∧ v = inside layers w := by
  constructor
  · intro h
    induction keys generalizing v with
    | nil => exact ⟨[], rfl, Option.some.inj h⟩
    | cons key keys ih =>
      obtain ⟨u, hu, hw⟩ := Option.bind_eq_some_iff.mp h
      obtain ⟨layers, rfl, rfl⟩ := ih hw
      cases v with
      | obj fields =>
        obtain ⟨l, rfl, rfl⟩ := exists_layer hu
        exact ⟨l :: layers, rfl, rfl⟩
      | _ => cases hu
  · rintro ⟨layers, rfl, rfl⟩
    have hread := getAt?_inside layers [] w
    rwa [List.append_nil] at hread

/-! ### Writing -/

/-- **Writing puts another value into the same layers.** -/
theorem setAt_inside (layers : List Layer) (old new : Json) :
    setAt new (layers.map Layer.key) (inside layers old) = inside layers new := by
  induction layers with
  | nil => rfl
  | cons l layers ih =>
    rw [List.map_cons, inside_cons, setAt, l.get?_fields]
    dsimp only
    rw [ih, l.set_fields, inside_cons]

/-- Where there is no such place, nothing is written. -/
theorem setAt_of_none {new : Json} : ∀ {keys : List String} {v : Json}, getAt? keys v = none → setAt new keys v = v
  | [], _, h => by cases h
  | key :: keys, v, h => by
    cases v with
    | obj fields =>
      rw [getAt?_cons] at h
      rw [setAt]
      cases hkey : Fields.get? key fields with
      | none => rfl
      | some w =>
        rw [hkey, Option.bind_some] at h
        dsimp only
        rw [setAt_of_none h, Fields.set_of_get? hkey]
    | _ => rfl

/-! ### Other places -/

/-- A place that is neither above the value inside the layers nor below it does
not depend on it. -/
theorem getAt?_inside_of_beside {layers : List Layer} {other : List String}
    (habove : ¬ other <+: layers.map Layer.key) (hbelow : ¬ layers.map Layer.key <+: other) (v w : Json) :
    getAt? other (inside layers v) = getAt? other (inside layers w) := by
  induction layers generalizing other with
  | nil => exact absurd List.nil_prefix hbelow
  | cons l layers ih =>
    cases other with
    | nil => exact absurd List.nil_prefix habove
    | cons first other =>
      rw [List.map_cons, List.cons_prefix_cons, not_and] at habove hbelow
      rw [inside_cons, inside_cons, getAt?_cons, getAt?_cons]
      by_cases hfirst : first = l.key
      · rw [hfirst, l.get?_fields, l.get?_fields, Option.bind_some, Option.bind_some]
        exact ih (habove hfirst) (hbelow hfirst.symm)
      · rw [l.get?_fields_of_ne hfirst]

/-- Neither does the outline of what stands above it: its keys are those of the
layer. -/
theorem outline_getAt?_inside {layers : List Layer} {place : List String}
    (h : ¬ layers.map Layer.key <+: place) (v w : Json) :
    (getAt? place (inside layers v)).map outline = (getAt? place (inside layers w)).map outline := by
  by_cases habove : place <+: layers.map Layer.key
  · obtain ⟨below, hkeys⟩ := habove
    obtain ⟨outer, inner, rfl, rfl, rfl⟩ := List.map_eq_append_iff.mp hkeys.symm
    have hread : ∀ u, getAt? (outer.map Layer.key) (inside (outer ++ inner) u) = some (inside inner u) := fun u =>
      getAt?_eq_some_iff.mpr ⟨outer, rfl, inside_append outer inner u⟩
    rw [hread, hread, Option.map_some, Option.map_some]
    cases inner with
    | nil => exact absurd (by simp) h
    | cons l inner => exact congrArg some (outline_obj_eq (l.keys_fields _ _))
  · rw [getAt?_inside_of_beside habove h v w]

/-! ### Dotted paths -/

/-- What stands at a path is inside layers with its keys, and so is whatever is
written there. -/
theorem exists_layers_of_getPath? {v old : Json} {path : String} (h : v.getPath? path = some old) :
    ∃ layers, Text.split '.' path = layers.map Layer.key ∧ v = inside layers old ∧
      ∀ new, v.setPath path new = inside layers new := by
  obtain ⟨layers, hkeys, rfl⟩ := getAt?_eq_some_iff.mp h
  refine ⟨layers, hkeys, rfl, fun new => ?_⟩
  rw [setPath, hkeys, setAt_inside]

theorem setPath_of_none {v : Json} {path : String} (h : v.getPath? path = none) (new : Json) :
    v.setPath path new = v :=
  setAt_of_none h

theorem setPath_setPath (v : Json) (path : String) (x y : Json) :
    (v.setPath path x).setPath path y = v.setPath path y := by
  cases hold : v.getPath? path with
  | none => rw [setPath_of_none hold]
  | some old =>
    obtain ⟨layers, hkeys, -, hset⟩ := exists_layers_of_getPath? hold
    rw [hset, hset, setPath, hkeys, setAt_inside]

/-- **The laws of dotted paths.** If there is something at a path, then after
writing a value there the path reads that value, and every path that is neither a
start of it nor a continuation reads as before. At every place that is no
continuation of the path there is the same as before: an object with the same
keys in the same order, or the same value, or nothing. Writing what was read
changes nothing. If there is nothing at the path, writing changes nothing at all.
And of two values that are written one after the other, the second counts. -/
theorem dotted_path_laws (v : Json) (path : String) (x y : Json) :
    (∀ old, v.getPath? path = some old →
      (v.setPath path x).getPath? path = some x ∧
      (∀ other, ¬ Text.split '.' other <+: Text.split '.' path → ¬ Text.split '.' path <+: Text.split '.' other →
        (v.setPath path x).getPath? other = v.getPath? other) ∧
      (∀ place, ¬ Text.split '.' path <+: place →
        ((v.setPath path x).getAt? place).map outline = (v.getAt? place).map outline) ∧
      v.setPath path old = v) ∧
    (v.getPath? path = none → v.setPath path x = v) ∧
    (v.setPath path x).setPath path y = v.setPath path y := by
  refine ⟨fun old hold => ?_, fun hnone => setPath_of_none hnone x, setPath_setPath v path x y⟩
  obtain ⟨layers, hkeys, hv, hset⟩ := exists_layers_of_getPath? hold
  rw [hset x, hset old, hkeys]
  refine ⟨getAt?_eq_some_iff.mpr ⟨layers, hkeys, rfl⟩, fun other habove hbelow => ?_, fun place hbelow => ?_, hv.symm⟩
  · rw [hv]
    exact getAt?_inside_of_beside habove hbelow x old
  · rw [hv]
    exact outline_getAt?_inside hbelow x old

/-- A value with a note on what it replaces. -/
def deprecatedValue : Json :=
  .obj [("title", .str "A"), ("deprecated", .obj [("since", .arr [.str "1.0"]), ("content", .str "old")])]

theorem dotted_path_laws_deprecated :
    let path := "deprecated.content"
    let after := deprecatedValue.setPath path (.str "new")
    deprecatedValue.getPath? path = some (.str "old") ∧ after.getPath? path = some (.str "new") ∧
      (¬ Text.split '.' "deprecated.since" <+: Text.split '.' path ∧
        ¬ Text.split '.' path <+: Text.split '.' "deprecated.since" ∧
        after.getPath? "deprecated.since" = some (.arr [.str "1.0"])) ∧
      (¬ Text.split '.' path <+: ["deprecated"] ∧
        (after.getAt? ["deprecated"]).map outline = some (.obj [("since", .null), ("content", .null)])) ∧
      deprecatedValue.setPath path (.str "old") = deprecatedValue ∧
      deprecatedValue.getPath? "title.content" = none ∧
      deprecatedValue.setPath "title.content" .null = deprecatedValue ∧
      after.setPath path .null = deprecatedValue.setPath path .null := by
  intro path after
  obtain ⟨hthere, -, htwice⟩ := dotted_path_laws deprecatedValue path (.str "new") .null
  have hold : deprecatedValue.getPath? path = some (.str "old") := by
    rw [getPath?, show Text.split '.' path = ["deprecated", "content"] by decide]
    rfl
  obtain ⟨hread, hbeside, houtline, hsame⟩ := hthere (.str "old") hold
  have habove : ¬ Text.split '.' "deprecated.since" <+: Text.split '.' path := by decide
  have hbelow : ¬ Text.split '.' path <+: Text.split '.' "deprecated.since" := by decide
  have houter : ¬ Text.split '.' path <+: ["deprecated"] := by decide
  have hnone : deprecatedValue.getPath? "title.content" = none := by
    rw [getPath?, show Text.split '.' "title.content" = ["title", "content"] by decide]
    rfl
  refine ⟨hold, hread, ⟨habove, hbelow, ?_⟩, ⟨houter, ?_⟩, hsame, hnone,
    (dotted_path_laws deprecatedValue "title.content" .null .null).2.1 hnone, htwice⟩
  · rw [hbeside "deprecated.since" habove hbelow, getPath?,
      show Text.split '.' "deprecated.since" = ["deprecated", "since"] by decide]
    rfl
  · rw [houtline ["deprecated"] houter]
    rfl

end Json
end Docblock
