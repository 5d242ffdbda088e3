/-
# Categories

A source folder can have a category, which limits the tags that are read in
it. A category that is not listed allows every tag, and so does one without
tags of its own.

Key definitions: `Category`, `Category.all`, `Category.allows`.
-/
import Docblock.Text.Case

namespace Docblock

/-- A category of source folders. -/
structure Category where
  name : String
  /-- The tags that are read; all of them if the list is empty. -/
  enabled : List String
  /-- The tags that are never read. -/
  disabled : List String := []

namespace Category

/-- The categories. -/
def all : List Category := [
  ⟨"docs", [], []⟩,
  ⟨"tsdoc", ["apiSchema", "apiDefine", "apiUse", "apiTypedef", "apiInterface", "apiEnum"], []⟩,
  ⟨"api", ["api", "apiParam", "apiQuery", "apiBody", "apiSuccess", "apiError", "apiHeader",
    "apiExample", "apiUse", "apiGroup", "apiName", "apiDescription", "apiVersion",
    "apiPermission", "apiSampleRequest"], []⟩,
  ⟨"models", ["apiSchema", "apiDefine", "apiTypedef", "apiInterface"], []⟩,
  ⟨"mqtt", ["mqtt", "mqttPublish", "mqttSubscribe", "mqttMessage", "mqttPayload",
    "mqttPayloadExample", "mqttQos", "mqttRetain", "mqttClientId", "mqttTopic",
    "mqttTopicExample", "mqttSchema", "mqttSchemaExample", "mqttExample", "mqttGroup",
    "mqttName", "mqttDescription", "mqttVersion"], []⟩,
  ⟨"openapi", ["openapi", "openapi-path", "openapi-operation", "openapi-schema",
    "openapiComponent"], []⟩,
  ⟨"graphql", ["apiSchema", "apiDefine", "apiParam", "apiSuccess", "apiError", "apiExample"], []⟩]

/-- Whether a category reads a tag. -/
def reads (c : Category) (tag : String) : Bool :=
  let lists (tags : List String) := tags.any (Text.sameIgnoringCase · tag)
  !lists c.disabled && (c.enabled.isEmpty || lists c.enabled)

/-- Whether a tag is read in the category of that name. The case of names does
not matter. -/
def allows (category tag : String) : Bool :=
  match all.find? fun c => Text.sameIgnoringCase c.name category with
  | none => true
  | some c => c.reads tag

end Category
end Docblock
