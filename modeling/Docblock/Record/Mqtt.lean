/-
# Records of message topics

Records that describe messages can be selected, and the schemas of their
payloads can be checked.

Key definitions: `Record.isMqtt`, `Record.invalidSchema?`.
-/
import Docblock.Json.Parser
import Docblock.Record.Order

namespace Docblock
namespace Record

/-- Whether a record publishes or subscribes, or has a topic. -/
def hasTopic (record : Fields) : Bool :=
  ["publish", "subscribe"].contains (text "type" record) ||
    ((record.get? "topic").getD .null).isTruthy

/-- Whether a record describes messages. -/
def isMqtt (record : Fields) : Bool :=
  hasTopic record || record.contains "qos" || record.contains "retain" ||
    ((text "url" record).isEmpty && text "type" record == "inline")

/-- Whether the payload of a record has a schema in place that is no JSON. -/
def hasInvalidSchema (record : Fields) : Bool :=
  match record.get? "payloadSchema" with
  | none => false
  | some schema =>
    schema.getStr? "type" == some "inline" &&
      (Json.parse? ((schema.getStr? "content").getD "")).isNone

/-- The first record of messages whose schema is no JSON. -/
def invalidSchema? (records : List Fields) : Option Fields :=
  (records.filter hasTopic).find? hasInvalidSchema

end Record
end Docblock
