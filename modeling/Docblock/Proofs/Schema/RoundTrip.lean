/-
# Schemas as parameters

A schema stands for one parameter for each of its properties, and for each
property inside them. Listed from the top down, each before those inside it
(`properties`), they are the lines that the schema is turned into
(`parameterLines_eq`). Reading the lines in order gives the list back
(`parameterLines_read_back`): the description may be any text, since it comes
behind the field, and the parent of a nested property is in the table by the
time it is read, because it stands on an earlier line and is an object.

Key definitions: `Schema.Property`, `Schema.properties`,
`Schema.Property.Recorded`.
Key theorems: `Schema.parameterLines_eq`, `Schema.readParameter_line`,
`Schema.readBack_propertiesBelow`, `Schema.parameterLines_read_back`.
-/
import Docblock.Proofs.Tag.Typed
import Docblock.Proofs.TypeScript.Property
import Docblock.Schema.Properties
import Mathlib.Data.List.Forall2

namespace Docblock
namespace Schema

open Tag Text
open TypeScript (IsName)

/-! ### The properties of a schema -/

/-- A property of a schema or of one inside it. -/
structure Property where
  /-- The names from the top down to its own. -/
  path : List String
  /-- Whether the schema that it belongs to requires it. -/
  required : Bool
  /-- What it may be. -/
  schema : Json

/-- The properties that belong to the schema itself: those of an object. -/
def ownProperties (schema : Json) : Fields :=
  if isObject schema then ((schema.get? "properties").bind Json.obj?).getD [] else []

theorem sizeOf_get?_lt {key : String} {v : Json} : ∀ {fields : Fields}, Fields.get? key fields = some v →
    sizeOf v < sizeOf fields
  | (k, w) :: rest, h => by
    by_cases hk : k = key
    · simp only [Fields.get?, hk, beq_self_eq_true, ↓reduceIte, Option.some.injEq] at h
      subst h
      simp only [List.cons.sizeOf_spec, Prod.mk.sizeOf_spec]
      omega
    · simp only [Fields.get?, beq_iff_eq, hk, ↓reduceIte] at h
      have ih := sizeOf_get?_lt h
      simp only [List.cons.sizeOf_spec]
      omega

/-- A property is smaller than the schema it belongs to. -/
theorem sizeOf_ownProperties_lt {schema : Json} {entry : String × Json} (h : entry ∈ ownProperties schema) :
    sizeOf entry.2 < sizeOf schema := by
  unfold ownProperties at h
  split_ifs at h with hobject
  · cases schema with
    | obj fields =>
      cases hget : Fields.get? "properties" fields with
      | none => simp [Json.get?, hget] at h
      | some v =>
        cases v with
        | obj entries =>
          have hentry : entry ∈ entries := by simpa [Json.get?, hget, Json.obj?] using h
          have hinside : sizeOf entry < sizeOf entries := List.sizeOf_lt_of_mem hentry
          have hproperties := sizeOf_get?_lt hget
          obtain ⟨key, property⟩ := entry
          simp only [Prod.mk.sizeOf_spec, Json.obj.sizeOf_spec] at hinside hproperties ⊢
          omega
        | _ => simp [Json.get?, hget, Json.obj?] at h
    | _ => simp [Json.get?] at h
  · simp at h

/-- The properties of a schema below these names, each before those inside
it. -/
def propertiesBelow (above : List String) (schema : Json) : List Property :=
  (List.attach (ownProperties schema)).flatMap fun entry =>
    ⟨above ++ [entry.1.1], (requiredNames schema).contains entry.1.1, entry.1.2⟩ ::
      propertiesBelow (above ++ [entry.1.1]) entry.1.2
termination_by sizeOf schema
decreasing_by exact sizeOf_ownProperties_lt entry.2

/-- All properties of a schema. -/
def properties (schema : Json) : List Property := propertiesBelow [] schema

/-- The property of an entry below these names. -/
def propertyOf (above : List String) (schema : Json) (entry : String × Json) : Property :=
  ⟨above ++ [entry.1], (requiredNames schema).contains entry.1, entry.2⟩

section

variable (above : List String) (schema : Json) (entry : String × Json)

@[simp] theorem path_propertyOf : (propertyOf above schema entry).path = above ++ [entry.1] := rfl

@[simp] theorem required_propertyOf :
    (propertyOf above schema entry).required = (requiredNames schema).contains entry.1 := rfl

@[simp] theorem schema_propertyOf : (propertyOf above schema entry).schema = entry.2 := rfl

end

theorem propertiesBelow_eq (above : List String) (schema : Json) :
    propertiesBelow above schema = (ownProperties schema).flatMap fun entry =>
      propertyOf above schema entry :: propertiesBelow (above ++ [entry.1]) entry.2 := by
  rw [propertiesBelow, List.flatMap_subtype]
  · rw [List.unattach_attach]
  · intro entry h
    rfl

namespace Property

/-- The dotted name of a property. -/
def name (p : Property) : String := join "." p.path

/-- The dotted name of the property that it is inside of. -/
def enclosing? (p : Property) : Option String :=
  if p.path.dropLast = [] then none else some (join "." p.path.dropLast)

/-- The line of a property. -/
def line (p : Property) : String :=
  bracedText (typeName p.schema) (!p.required) p.name ((p.schema.getStr? "description").getD "")

/-- The value says what the property is and where it stands. -/
structure Recorded (p : Property) (v : Json) : Prop where
  field : v.getStr? "field" = some p.name
  optional : v.get? "optional" = some (.bool !p.required)
  type : v.getStr? "type" = some (typeName p.schema)
  parent : parentPath? (v.get? "parentNode") = p.enclosing?

end Property

/-! ### The lines of the properties -/

theorem join_concat {above : List String} (hne : above ≠ []) (key : String) :
    join "." (above ++ [key]) = join "." above ++ "." ++ key := by
  rw [join, String.intercalate_append_of_ne_nil hne (List.cons_ne_nil _ _), String.intercalate_singleton]
  rfl

theorem join_ne_empty {names : List String} (hne : names ≠ []) (hnames : ∀ name ∈ names, name ≠ "") :
    join "." names ≠ "" := by
  rcases List.eq_nil_or_concat names with rfl | ⟨above, key, rfl⟩
  · exact absurd rfl hne
  · have hkey : key ≠ "" := hnames key (by simp)
    by_cases habove : above = []
    · subst habove
      rw [join]
      simpa using hkey
    · rw [List.concat_eq_append, join_concat habove]
      intro hempty
      exact hkey (String.append_eq_empty_iff.mp hempty).2

/-- The dotted name of a property is that of its schema and its own. -/
theorem dotted_join {above : List String} (hnames : ∀ name ∈ above, name ≠ "") (key : String) :
    dotted (join "." above) key = join "." (above ++ [key]) := by
  by_cases habove : above = []
  · subst habove
    simp [dotted, join]
  · rw [dotted, join_concat habove, if_neg]
    simpa using join_ne_empty habove hnames

theorem parameterLine_eq (required : List String) (name key : String) (property : Json) :
    parameterLine required name key property = bracedText (typeName property) (!required.contains key) name
      ((property.getStr? "description").getD "") := by
  unfold parameterLine bracedText
  cases required.contains key <;> rfl

theorem linesOfEntries_eq (above : String) (required : List String) : ∀ entries : Fields,
    linesOfEntries above required entries = entries.flatMap fun entry =>
      parameterLine required (dotted above entry.1) entry.1 entry.2 :: linesOf (dotted above entry.1) entry.2
  | [] => by rw [linesOfEntries, List.flatMap_nil]
  | (key, property) :: rest => by
    rw [linesOfEntries, linesOfEntries_eq above required rest, List.flatMap_cons, List.cons_append]

theorem linesIn_eq (above : String) (required : List String) : ∀ fields : Fields,
    linesIn above required fields =
      linesOfEntries above required (((Fields.get? "properties" fields).bind Json.obj?).getD [])
  | [] => by simp [linesIn, Fields.get?, linesOfEntries]
  | (key, v) :: rest => by
    by_cases hkey : key = "properties"
    · cases v <;> simp [linesIn, Fields.get?, hkey, linesOfProperties, Json.obj?, linesOfEntries]
    · simp [linesIn, Fields.get?, hkey, linesIn_eq above required rest]

/-- The lines of a schema are those of its properties. -/
theorem linesOf_eq (above : String) (schema : Json) :
    linesOf above schema = (ownProperties schema).flatMap fun entry =>
      parameterLine (requiredNames schema) (dotted above entry.1) entry.1 entry.2 ::
        linesOf (dotted above entry.1) entry.2 := by
  rw [← linesOfEntries_eq]
  unfold ownProperties
  cases schema with
  | obj fields =>
    rw [linesOf]
    split_ifs
    · exact linesIn_eq above _ fields
    · rw [linesOfEntries]
  | _ => simp [linesOf, isObject, Json.getStr?, Json.get?, linesOfEntries]

/-- The names of all properties below these are made of the given characters. -/
def NamedBelow (above : List String) (schema : Json) : Prop :=
  ∀ p ∈ propertiesBelow above schema, ∀ name ∈ p.path, IsName name

theorem NamedBelow.of_mem {above : List String} {schema : Json} (h : NamedBelow above schema)
    {entry : String × Json} (hentry : entry ∈ ownProperties schema) :
    (∀ name ∈ above ++ [entry.1], IsName name) ∧ NamedBelow (above ++ [entry.1]) entry.2 := by
  have hmem : ∀ p ∈ propertyOf above schema entry :: propertiesBelow (above ++ [entry.1]) entry.2,
      p ∈ propertiesBelow above schema := by
    intro p hp
    rw [propertiesBelow_eq]
    exact List.mem_flatMap.mpr ⟨entry, hentry, hp⟩
  constructor
  · exact h _ (hmem _ List.mem_cons_self)
  · exact fun p hp => h p (hmem p (List.mem_cons_of_mem _ hp))

/-- **The lines are those of all properties, in order.** -/
theorem linesOf_eq_map {above : List String} {schema : Json} (h : NamedBelow above schema) :
    linesOf (join "." above) schema = (propertiesBelow above schema).map Property.line := by
  rw [linesOf_eq, propertiesBelow_eq, List.map_flatMap]
  refine List.flatMap_congr fun entry hentry => ?_
  obtain ⟨hnames, hbelow⟩ := h.of_mem hentry
  have hne : ∀ name ∈ above, name ≠ "" := fun name hname => (hnames name (List.mem_append_left _ hname)).ne_empty
  have hsize := sizeOf_ownProperties_lt hentry
  rw [dotted_join hne, List.map_cons, linesOf_eq_map hbelow, parameterLine_eq]
  rfl
termination_by sizeOf schema

theorem parameterLines_eq {schema : Json} (h : NamedBelow [] schema) :
    parameterLines schema = (properties schema).map Property.line :=
  linesOf_eq_map h

/-! ### The types of the properties -/

/-- A text that is the name of a type. -/
def IsTypeName (s : String) : Prop := s ≠ "" ∧ ∀ c ∈ s.toList, isTypeChar c = true

theorem IsTypeName.array {s : String} (h : IsTypeName s) : IsTypeName (s ++ "[]") := by
  constructor
  · intro hempty
    exact h.1 (String.append_eq_empty_iff.mp hempty).1
  · intro c hc
    rw [String.toList_append, List.mem_append] at hc
    have hbrackets : ∀ c ∈ "[]".toList, isTypeChar c = true := by decide
    exact hc.elim (h.2 c) (hbrackets c)

mutual

theorem isTypeName_typeName : ∀ schema : Json, IsTypeName (typeName schema)
  | .obj fields => by
    have hnamed : ∀ s ∈ ["String", "Number", "Boolean", "Object", "Mixed"], IsTypeName s := by
      intro s hs
      simp only [List.mem_cons, List.not_mem_nil, or_false] at hs
      rcases hs with rfl | rfl | rfl | rfl | rfl <;> exact ⟨by decide, by decide⟩
    unfold typeName
    split
    · exact hnamed _ (by simp)
    · exact hnamed _ (by simp)
    · exact hnamed _ (by simp)
    · exact hnamed _ (by simp)
    · exact isTypeName_itemsType fields
    · exact hnamed _ (by simp)
    · exact hnamed _ (by simp)
  | .null => by unfold typeName; exact ⟨by decide, by decide⟩
  | .bool _ => by unfold typeName; exact ⟨by decide, by decide⟩
  | .num _ => by unfold typeName; exact ⟨by decide, by decide⟩
  | .str _ => by unfold typeName; exact ⟨by decide, by decide⟩
  | .arr _ => by unfold typeName; exact ⟨by decide, by decide⟩

theorem isTypeName_itemsType : ∀ fields : Fields, IsTypeName (itemsType fields)
  | [] => by unfold itemsType; exact ⟨by decide, by decide⟩
  | (key, v) :: rest => by
    unfold itemsType
    split
    · exact (isTypeName_typeName v).array
    · exact isTypeName_itemsType rest

end

theorem typeName_of_isObject {schema : Json} (h : isObject schema = true) : typeName schema = "Object" := by
  cases schema with
  | obj fields =>
    have htype : (Fields.get? "type" fields).bind Json.str? = some "object" := by
      simpa [isObject, Json.getStr?, Json.get?] using h
    simp only [typeName, htype]
  | _ => simp [isObject, Json.getStr?, Json.get?] at h

/-! ### Reading the lines -/

theorem chars_join {names : List String} (hnames : ∀ name ∈ names, IsName name) :
    ∀ c ∈ (join "." names).toList, isFieldChar c = true := by
  induction names using List.reverseRecOn with
  | nil =>
    intro c hc
    simp [join] at hc
  | append_singleton above key ih =>
    have hkey : ∀ c ∈ key.toList, isFieldChar c = true :=
      fun c hc => isFieldChar_of_isAsciiWord ((hnames key (by simp)).chars c hc)
    have habove := ih fun name hname => hnames name (List.mem_append_left _ hname)
    intro c hc
    by_cases hnil : above = []
    · subst hnil
      exact hkey c (by simpa [join] using hc)
    · rw [join_concat hnil, String.toList_append, String.toList_append, List.mem_append, List.mem_append] at hc
      rcases hc with (hc | hc) | hc
      · exact habove c hc
      · have hdot : ∀ c ∈ ".".toList, isFieldChar c = true := by decide
        exact hdot c hc
      · exact hkey c hc

theorem point_not_mem_of_isName {name : String} (h : IsName name) : '.' ∉ name.toList :=
  fun hmem => absurd (h.chars _ hmem) (by decide)

/-- The step: a property is read back if the one around it is in the table of
parents. If it is an object itself, it then is there too. -/
theorem readParameter_line {above : List String} {schema : Json} {entry : String × Json}
    (hnames : ∀ name ∈ above ++ [entry.1], IsName name) {memory : Memory}
    (hparent : above ≠ [] → HasParent memory (join "." above)) (defaultGroup : String) :
    (∃ v, (readParameter defaultGroup (propertyOf above schema entry).line memory).1 = some v ∧
      (propertyOf above schema entry).Recorded v) ∧
      (isObject entry.2 = true →
        HasParent (readParameter defaultGroup (propertyOf above schema entry).line memory).2
          (join "." (above ++ [entry.1]))) := by
  have htype := isTypeName_typeName entry.2
  have hne : join "." (above ++ [entry.1]) ≠ "" :=
    join_ne_empty (by simp) fun name hname => (hnames name hname).ne_empty
  have hpoint := point_not_mem_of_isName (hnames entry.1 (by simp))
  obtain ⟨⟨v, hv, hreads⟩, htable⟩ := readParameter_typed htype.1 htype.2 hne (chars_join hnames)
    (!(requiredNames schema).contains entry.1) ((entry.2.getStr? "description").getD "") defaultGroup memory
  have hline : (propertyOf above schema entry).line = bracedText (typeName entry.2)
      (!(requiredNames schema).contains entry.1) (join "." (above ++ [entry.1]))
      ((entry.2.getStr? "description").getD "") := rfl
  rw [hline]
  refine ⟨⟨v, hv, ?_⟩, fun hobject => ?_⟩
  · refine ⟨hreads.field, by simpa using hreads.optional, hreads.type, ?_⟩
    rw [hreads.parentNode, Property.enclosing?, path_propertyOf, List.dropLast_concat]
    by_cases hnil : above = []
    · subst hnil
      have hname : join "." ([] ++ [entry.1]) = entry.1 := by simp [join]
      rw [if_pos rfl, hname, parentNode?_of_not_mem _ hpoint]
      rfl
    · rw [if_neg hnil, join_concat hnil]
      exact parentPath?_parentNode? (hparent hnil) hpoint
  · refine hasParent_set (typeName entry.2) _ (htable ?_)
    rw [typeName_of_isObject hobject]
    decide

theorem ownProperties_of_not_isObject {schema : Json} (h : isObject schema = false) : ownProperties schema = [] := by
  rw [ownProperties, if_neg (by simp [h])]

/-- What is read of a property. -/
def ReadBack (p : Property) (v : Option Json) : Prop := ∃ w, v = some w ∧ p.Recorded w

/-- Entries one after the other: the table of parents only grows, so each finds
the schema around it there. -/
theorem readBack_entries {above : List String} {schema : Json} (h : NamedBelow above schema) (defaultGroup : String)
    (hinside : ∀ entry ∈ ownProperties schema, ∀ memory : Memory,
      (isObject entry.2 = true → HasParent memory (join "." (above ++ [entry.1]))) →
      List.Forall₂ ReadBack (propertiesBelow (above ++ [entry.1]) entry.2)
        (readParameters defaultGroup ((propertiesBelow (above ++ [entry.1]) entry.2).map Property.line) memory).1)
    (entries : Fields) (hentries : ∀ entry ∈ entries, entry ∈ ownProperties schema) (memory : Memory)
    (hparent : above ≠ [] → HasParent memory (join "." above)) :
    List.Forall₂ ReadBack
      (entries.flatMap fun entry => propertyOf above schema entry :: propertiesBelow (above ++ [entry.1]) entry.2)
      (readParameters defaultGroup
        ((entries.flatMap fun entry => propertyOf above schema entry :: propertiesBelow (above ++ [entry.1]) entry.2).map
          Property.line) memory).1 := by
  induction entries generalizing memory with
  | nil => exact .nil
  | cons entry entries ih =>
    rw [List.forall_mem_cons] at hentries
    obtain ⟨hread, htable⟩ := readParameter_line (h.of_mem hentries.1).1 hparent defaultGroup
    rw [List.flatMap_cons, List.map_append, List.map_cons, readParameters_append]
    refine List.rel_append (.cons hread (hinside entry hentries.1 _ htable)) (ih hentries.2 _ fun hne => ?_)
    exact (hparent hne).readParameters defaultGroup (_ :: _)

/-- **The properties below a schema are read back,** once the schema is in the
table of parents. -/
theorem readBack_propertiesBelow {above : List String} {schema : Json} (h : NamedBelow above schema)
    (defaultGroup : String) (memory : Memory)
    (hparent : isObject schema = true → above ≠ [] → HasParent memory (join "." above)) :
    List.Forall₂ ReadBack (propertiesBelow above schema)
      (readParameters defaultGroup ((propertiesBelow above schema).map Property.line) memory).1 := by
  rw [propertiesBelow_eq]
  by_cases hobject : isObject schema = true
  · refine readBack_entries h defaultGroup (fun entry hentry memory htable => ?_) _ (fun _ hentry => hentry) memory
      (hparent hobject)
    have hsize := sizeOf_ownProperties_lt hentry
    exact readBack_propertiesBelow (h.of_mem hentry).2 defaultGroup memory fun hinside _ => htable hinside
  · rw [ownProperties_of_not_isObject (eq_false_of_ne_true hobject)]
    exact .nil
termination_by sizeOf schema

/-- **A schema round-trips through the parameters.** If the names of all its
properties are words, reading its lines in order, whatever was read before,
gives one value for each property, from the top down: with its dotted name,
optional unless the schema it belongs to requires it, with its type, and with
the property that it is inside of as its parent. -/
theorem parameterLines_read_back {schema : Json}
    (h : ∀ p ∈ properties schema, ∀ name ∈ p.path, name ≠ "" ∧ ∀ c ∈ name.toList, isAsciiWord c = true)
    (defaultGroup : String) (memory : Memory) :
    List.Forall₂ (fun p v => ∃ w, v = some w ∧ p.Recorded w) (properties schema)
      (readParameters defaultGroup (parameterLines schema) memory).1 := by
  have hnamed : NamedBelow [] schema := fun p hp name hname => ⟨(h p hp name hname).1, (h p hp name hname).2⟩
  rw [parameterLines_eq hnamed]
  exact readBack_propertiesBelow hnamed defaultGroup memory fun _ hne => absurd rfl hne

/-- A list of texts. -/
def tagsSchema : Json := .obj [("type", .str "array"), ("items", .obj [("type", .str "string")])]

/-- An object whose description looks like other parts of a parameter. -/
def userSchema : Json :=
  .obj [("type", .str "object"), ("description", .str "=x] {y} @z"), ("properties", .obj [("tags", tagsSchema)])]

/-- An object with a nested one. -/
def accountSchema : Json :=
  .obj [("type", .str "object"), ("properties", .obj [("user", userSchema)]), ("required", .arr [.str "user"])]

theorem properties_accountSchema :
    properties accountSchema = [⟨["user"], true, userSchema⟩, ⟨["user", "tags"], false, tagsSchema⟩] := by
  have htags : propertiesBelow ["user", "tags"] tagsSchema = [] := by
    rw [propertiesBelow_eq]
    rfl
  have huser : propertiesBelow ["user"] userSchema = [⟨["user", "tags"], false, tagsSchema⟩] := by
    have hown : ownProperties userSchema = [("tags", tagsSchema)] := rfl
    rw [propertiesBelow_eq, hown, List.flatMap_singleton]
    exact congrArg (_ :: ·) htags
  have hown : ownProperties accountSchema = [("user", userSchema)] := rfl
  rw [properties, propertiesBelow_eq, hown, List.flatMap_singleton]
  exact congrArg (_ :: ·) huser

theorem parameterLines_read_back_account :
    properties accountSchema = [⟨["user"], true, userSchema⟩, ⟨["user", "tags"], false, tagsSchema⟩] ∧
      List.Forall₂ (fun p v => ∃ w, v = some w ∧ p.Recorded w) (properties accountSchema)
        (readParameters "Parameter" (parameterLines accountSchema) {}).1 := by
  refine ⟨properties_accountSchema, parameterLines_read_back ?_ "Parameter" {}⟩
  rw [properties_accountSchema]
  decide

end Schema
end Docblock
