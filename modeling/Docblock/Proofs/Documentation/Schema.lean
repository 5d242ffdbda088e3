/-
# Which schemas a checked run publishes

A run that checks schemas publishes what it would publish without the check, or
fails: it fails if the payload of a record with a topic has a schema in place
that is no JSON (`recordsOf_checked_iff`). A record has a topic if it publishes
or subscribes, or names one.

More records than these describe messages: quality of service, the retain flag
and the kind `inline` without an address mark a record too. The check does not
look at a record that has no other mark, so it can be published with a schema
that is no JSON (`unchecked_schema_published`); these are the only ones
(`published_schemas`).

Key definitions: `Record.inlineSchema?`, `Record.IsMarkedOnly`.
Key theorems: `Record.invalidSchema?_eq_none_iff`,
`Documentation.recordsOf_checked_iff`, `Documentation.published_schemas`.
-/
import Docblock.Documentation
import Docblock.Proofs.Json.Same

namespace Docblock

namespace Record

/-- The text of the schema that stands in place in the payload of a record. -/
def inlineSchema? (record : Fields) : Option String :=
  match record.get? "payloadSchema" with
  | none => none
  | some schema =>
    if schema.getStr? "type" = some "inline" then some ((schema.getStr? "content").getD "") else none

/-- The record describes messages by a mark alone: it neither publishes nor
subscribes and names no topic. -/
def IsMarkedOnly (record : Fields) : Prop :=
  hasTopic record = false ∧
    (record.contains "qos" = true ∨ record.contains "retain" = true ∨
      text "url" record = "" ∧ text "type" record = "inline")

theorem hasInvalidSchema_eq_false_iff (record : Fields) :
    hasInvalidSchema record = false ↔ ∀ text, inlineSchema? record = some text → (Json.parse? text).isSome := by
  unfold hasInvalidSchema inlineSchema?
  cases record.get? "payloadSchema" with
  | none => simp
  | some schema =>
    by_cases hinline : schema.getStr? "type" = some "inline"
    · simp [hinline, Option.isSome_iff_ne_none]
    · simp [hinline]

/-- The check finds nothing if the schemas of all records with a topic can be
read. -/
theorem invalidSchema?_eq_none_iff (records : List Fields) :
    invalidSchema? records = none ↔ ∀ record ∈ records, hasTopic record = true →
      ∀ text, inlineSchema? record = some text → (Json.parse? text).isSome := by
  unfold invalidSchema?
  rw [List.find?_eq_none]
  constructor
  · intro h record hmem htopic
    have hvalid := h record (List.mem_filter.mpr ⟨hmem, htopic⟩)
    exact (hasInvalidSchema_eq_false_iff record).mp (Bool.eq_false_iff.mpr hvalid)
  · intro h record hmem
    obtain ⟨hmem, htopic⟩ := List.mem_filter.mp hmem
    exact Bool.eq_false_iff.mp ((hasInvalidSchema_eq_false_iff record).mpr (h record hmem htopic))

theorem isMqtt_iff (record : Fields) : isMqtt record = true ↔ hasTopic record = true ∨ IsMarkedOnly record := by
  unfold isMqtt IsMarkedOnly
  cases hasTopic record <;> simp [or_assoc]

end Record

namespace Documentation

open Record

theorem publishable_checked_iff (o : Options) (sorted records : List Fields) (log : List Log.Entry)
    (hcheck : o.failOnMqttSchemaError = true) :
    (publishable o sorted log).1 = .ok records ↔
      (publishable { o with failOnMqttSchemaError := false } sorted log).1 = .ok records ∧
        invalidSchema? records = none := by
  unfold publishable
  simp only [hcheck, ↓reduceIte, Bool.false_eq_true]
  -- what is kept is the same in both runs
  generalize (if o.mqttOnly = true then _ else _ : List Fields) = kept
  cases hinvalid : invalidSchema? kept with
  | some record =>
    simp only [reduceCtorEq, false_iff, not_and, Except.ok.injEq]
    rintro rfl hnone
    rw [hinvalid] at hnone
    cases hnone
  | none =>
    simp only [Except.ok.injEq, iff_self_and]
    rintro rfl
    exact hinvalid

/-- A run that checks schemas publishes what it would publish without the check,
provided that the schemas of all records with a topic can be read. -/
theorem recordsOf_checked_iff (o : Options) (p : Package) (files : List (String × BlockFile))
    (records : List Fields) (hcheck : o.failOnMqttSchemaError = true) :
    (recordsOf o p files).1 = .ok records ↔
      (recordsOf { o with failOnMqttSchemaError := false } p files).1 = .ok records ∧
        ∀ record ∈ records, hasTopic record = true →
          ∀ text, inlineSchema? record = some text → (Json.parse? text).isSome := by
  rw [← invalidSchema?_eq_none_iff]
  unfold recordsOf
  split
  · constructor
    · rintro ⟨⟩
      exact ⟨rfl, rfl⟩
    · exact And.left
  dsimp only
  cases (Resolve.process p (files.map Prod.snd) (files.map Prod.fst)).fault with
  | some fault => simp
  | none =>
    dsimp only
    cases sort? (ofFiles (Resolve.process p (files.map Prod.snd) (files.map Prod.fst)).files) with
    | none => simp
    | some sorted => exact publishable_checked_iff o sorted records _ hcheck

/-- **Which schemas are published.** A run that checks schemas publishes what it
would publish without the check if the schemas of all records with a topic can
be read, and nothing otherwise. So if it publishes a record of messages with a
schema in place, the schema can be read, or the record has no topic and
describes messages by a mark alone. -/
theorem published_schemas (o : Options) (p : Package) (files : List (String × BlockFile)) (records : List Fields)
    (hcheck : o.failOnMqttSchemaError = true) :
    ((recordsOf o p files).1 = .ok records ↔
      (recordsOf { o with failOnMqttSchemaError := false } p files).1 = .ok records ∧
        ∀ record ∈ records, hasTopic record = true →
          ∀ text, inlineSchema? record = some text → (Json.parse? text).isSome) ∧
    ((recordsOf o p files).1 = .ok records →
      ∀ record ∈ records, isMqtt record = true → ∀ text, inlineSchema? record = some text →
        (Json.parse? text).isSome ∨ IsMarkedOnly record) := by
  have hchecked := recordsOf_checked_iff o p files records hcheck
  refine ⟨hchecked, fun hok record hmem hmqtt text htext => ?_⟩
  rcases (isMqtt_iff record).mp hmqtt with htopic | hmarked
  · exact .inl ((hchecked.mp hok).2 record hmem htopic text htext)
  · exact .inr hmarked

/-! ### Two payloads -/

/-- What the comment of an endpoint says: `@api {get} /a A`, a mark, and
`@payloadSchema` with the given text. -/
def payloadOwn (mark : String × Json) (schema : String) : Fields :=
  [("type", .str "get"), ("url", .str "/a"), ("title", .str "A"), mark,
    ("payloadSchema", .obj [("type", .str "inline"), ("schema", .str schema), ("isValid", .bool false),
      ("content", .str schema)])]

/-- A file with one such block. -/
def payloadFiles (mark : String × Json) (schema : String) : List (String × BlockFile) :=
  [("a.js", [{ own := payloadOwn mark schema, index := 1 }])]

/-- The record of the block. -/
def payloadRecord (mark : String × Json) (schema : String) : Fields :=
  payloadOwn mark schema ++ [("version", .str "0.0.0"), ("filename", .str "a.js"), ("name", .str "GetA"),
    ("group", .str "a"), ("groupTitle", .str "a")]

/-- A schema that is no JSON stops the run if its record has a topic, and one
that is JSON does not. -/
theorem published_schemas_topic :
    (∀ records, (recordsOf { failOnMqttSchemaError := true } {} (payloadFiles ("topic", .str "t") "\x7b")).1 ≠
      .ok records) ∧
    (recordsOf { failOnMqttSchemaError := true } {} (payloadFiles ("topic", .str "t") "1")).1 =
      .ok [payloadRecord ("topic", .str "t") "1"] ∧
    hasTopic (payloadRecord ("topic", .str "t") "1") = true ∧
    inlineSchema? (payloadRecord ("topic", .str "t") "1") = some "1" := by
  have hbad : (recordsOf {} {} (payloadFiles ("topic", .str "t") "\x7b")).1 =
      .ok [payloadRecord ("topic", .str "t") "\x7b"] := rfl
  have hgood : (recordsOf {} {} (payloadFiles ("topic", .str "t") "1")).1 =
      .ok [payloadRecord ("topic", .str "t") "1"] := rfl
  refine ⟨fun records hok => ?_, ?_, by decide, by decide⟩
  · obtain ⟨hsame, hread⟩ := (published_schemas _ _ _ records rfl).1.mp hok
    cases hbad.symm.trans hsame
    exact absurd (hread _ List.mem_cons_self (by decide) "\x7b" (by decide)) (by decide)
  · refine (published_schemas _ _ _ _ rfl).1.mpr ⟨hgood, ?_⟩
    rintro record hmem - text htext
    rw [List.mem_singleton.mp hmem] at htext
    cases htext
    decide

/-- With `@qos 1` and no topic, the schema that is no JSON is published. -/
theorem unchecked_schema_published :
    (recordsOf { failOnMqttSchemaError := true } {} (payloadFiles ("qos", Json.ofNat 1) "\x7b")).1 =
        .ok [payloadRecord ("qos", Json.ofNat 1) "\x7b"] ∧
      isMqtt (payloadRecord ("qos", Json.ofNat 1) "\x7b") = true ∧
      inlineSchema? (payloadRecord ("qos", Json.ofNat 1) "\x7b") = some "\x7b" ∧
      Json.parse? "\x7b" = none :=
  ⟨rfl, by decide, by decide, by decide⟩

end Documentation
end Docblock
