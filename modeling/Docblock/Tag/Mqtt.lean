/-
# MQTT operations

`@mqtt publish title` opens an operation; the other tags give its topic, the
parameters of the topic, quality of service, payload with its schema,
authentication, examples and limits.

Key definitions: `readOperation`, `checkTopic`, `readTopicParameter`,
`readPayloadSchema`, `mqttTags`.
-/
import Docblock.Tag.Parameter
import Docblock.Json.Parser
import Docblock.Text.Case

namespace Docblock
namespace Tag

open Pattern

/-! ### Operation and topic -/

/-- The direction and a title. -/
def operationPattern : Pattern :=
  all [.textStart, .group 1 (any [lit "publish", lit "subscribe"]),
    opt (all [blanks1, .group 2 (charsLazy1 notNewline)]), .textEnd]

/-- Reads `publish title` or `subscribe title`. -/
def readOperation (content : String) : Option Json :=
  (operationPattern.find? (firstLine (Text.trim content))).map fun m =>
    .obj [("type", .str (m.group 1)), ("title", .str (m.group 2))]

/-- Topics of the broker itself and topics with a NUL are refused. -/
def checkTopic (tag topic : String) : Except Fault Unit :=
  if Text.startsWith topic "$" && !Text.startsWith topic "$share/" then
    .error (.reservedTopic tag)
  else if topic.toList.contains (Char.ofNat 0) then .error (.nulInTopic tag)
  else .ok ()

/-- Reads a topic under the name of its tag. -/
def readTopic (tag content : String) : Except Fault (Option Json) :=
  match Text.nonBlank? content with
  | none => .ok none
  | some topic => (checkTopic tag topic).map fun _ => some (.obj [(tag, .str topic)])

/-- A group, a type with a size, a name and a description on one line, or else
any `@`. -/
def topicParameterPattern : Pattern :=
  any [all [.lineStart, groupPart 1, blanks,
    opt (all [lit "\x7b", blanks, .group 2 (chars1 isTypeChar), blanks, sizePart 3, blanks,
      lit "\x7d", blanks]),
    blanks, .group 4 (chars1 (alnumOr "$:./_-")), blanks, restPart 5, .lineEnd], lit "@"]

/-- Reads `(group) {type{size}} name description`. The group holds until the
next one. -/
def readTopicParameter : Reader := fun content _ memory =>
  match topicParameterPattern.find? (Text.trim content) with
  | none => { result := .ok none, memory }
  | some m =>
    let group := (m.group? 1).getD memory.topicParamGroup
    let group := if group.isEmpty then "Parameter" else group
    { result := .ok (some (Json.ofPresent [
        ("group", Json.str group),
        ("type", Json.str ((m.group? 2).getD "String")),
        ("size", (m.group? 3).map .str),
        ("name", (m.group? 4).map .str),
        ("description", Json.str (Text.unindent (m.group 5)))])),
      memory := { memory with topicParamGroup := group } }

/-! ### Quality of service and payload -/

/-- The number that ASCII digits stand for, if it is below `2 ^ 64`. -/
def word64? (digits : List Char) : Option Nat :=
  if digits.isEmpty || !digits.all Char.isDigit then none
  else
    let n := Json.digitsValue digits
    if n < Nat.pow 2 64 then some n else none

/-- Reads a quality of service: zero, one or two. -/
def readQos (content : String) : Option Json :=
  match word64? ((Text.stripBlanks content.toList).takeWhile Char.isDigit) with
  | some n => if n ≤ 2 then some (.obj [("qos", Json.ofNat n)]) else none
  | none => none

/-- Reads whether the broker keeps the message. -/
def readRetain (content : String) : Option Json :=
  let word := Text.lower (firstLine content)
  if ["true", "1", "yes", "on"].contains word then some (.obj [("retain", .bool true)])
  else if ["false", "0", "no", "off"].contains word then some (.obj [("retain", .bool false)])
  else none

/-- A media type and a description. -/
def payloadPattern : Pattern :=
  let name (more : String) : Pattern :=
    .seq (.one Char.isAlphanum) (.chars (alnumOr ("!#$&-^_" ++ more)))
  all [.textStart, .group 1 (all [name "", lit "/", name ".", opt (all [lit "+", name ""])]),
    blanks, restPart 2, .textEnd]

/-- Reads `mime/type description`. -/
def readPayload (content : String) : Option Json :=
  ((Text.nonBlank? content).bind fun text => payloadPattern.find? (firstLine text)).map fun m =>
    .obj [("mimeType", .str (m.group 1)), ("description", .str (Text.trim (m.group 2)))]

/-- Keys one of which a schema must have. -/
def schemaKeywords : List String :=
  ["type", "properties", "items", "$ref", "anyOf", "oneOf", "allOf"]

/-- A schema given in place. Text that is no JSON is kept as it is. -/
def inlineSchema (text : String) : Json :=
  match Json.parse? text with
  | some schema => .obj [("type", .str "inline"), ("schema", schema),
      ("isValid", .bool (schemaKeywords.any fun key => (schema.getTruthy? key).isSome)),
      ("content", .str text)]
  | none => .obj [("type", .str "inline"), ("schema", .str text), ("isValid", .bool false),
      ("content", .str text)]

/-- A schema in a file; the file must lie below the folder. -/
def fileSchema (path : String) : Json :=
  .obj [("type", .str "file"), ("schema", .str path),
    ("isValid", .bool (!Text.contains path ".." && !Text.startsWith path "/")),
    ("content", .str path)]

/-- Reads `inline` with JSON below it, `file path`, or JSON alone. -/
def readPayloadSchema (content : String) : Option Json :=
  match Text.nonBlank? content with
  | none => none
  | some content =>
    let (head, rest) := (Text.cutOnce? "\n" content).getD (content, "")
    let head := Text.trim head
    if head == "inline" then (Text.nonBlank? rest).map inlineSchema
    else match Text.strip? "file " head with
      | some path => (Text.nonBlank? path).map fileSchema
      | none => some (inlineSchema content)

/-- A kind of authentication and its details. -/
def authPattern : Pattern :=
  all [.textStart, .group 1 (any [lit "username", lit "tls", lit "apikey", lit "oauth", lit "none",
    lit "certificate", lit "token"]), blanks, restPart 2, .textEnd]

/-- Reads a kind of authentication. -/
def readAuth (content : String) : Option Json :=
  ((Text.nonBlank? content).bind authPattern.find?).map fun m =>
    .obj [("type", .str (m.group 1)), ("details", .str (Text.trim (m.group 2)))]

/-! ### Examples -/

/-- Whether a text starts and ends with the given characters. -/
def isEnclosed (text first last : String) : Bool :=
  Text.startsWith text first && Text.endsWith text last

/-- Whether a text looks like a command. -/
def looksLikeCommand (text : String) : Bool :=
  Text.contains text "$" || Text.contains text "#!/"

/-- An example whose type and title depend on its text. -/
def typedExample (choose : String → String × String) (content : String) : Option Json :=
  (Text.nonBlank? content).map fun text =>
    let (kind, title) := choose text
    .obj [("title", .str title), ("content", .str (Text.unindent text)), ("type", .str kind)]

/-- Type and title of an example of publishing or subscribing. -/
def commandExample (command json plain text : String) : String × String :=
  if Text.contains text command then ("bash", command ++ " Command")
  else if isEnclosed text "\x7b" "\x7d" then ("json", json)
  else if looksLikeCommand text then ("bash", "Command Example")
  else ("text", plain)

/-- Type and title of an example of a response. -/
def responseExample (text : String) : String × String :=
  let small := Text.lower text
  if isEnclosed text "\x7b" "\x7d" then ("json", "Response Example")
  else if isEnclosed text "<" ">" then ("xml", "XML Response")
  else if Text.contains small "ack" || Text.contains small "status" then
    ("text", "Acknowledgment Example")
  else ("text", "Response Example")

/-! ### Tags and limits -/

/-- Keeps the first of equal texts. -/
def distinct (xs : List String) : List String :=
  xs.foldl (fun seen x => if seen.contains x then seen else seen ++ [x]) []

/-- Reads words between commas or blanks, in small letters and once each. -/
def readTags (content : String) : Option Json :=
  match Text.nonBlank? content with
  | none => none
  | some content =>
    let separator := chars1 fun c => c == ',' || Text.isBlank c
    let tags := distinct (((separator.split content).filter fun t => !t.isEmpty).map Text.lower)
    if tags.isEmpty then none else some (.obj [("tags", Json.texts tags)])

/-- A number per unit of time and a description. -/
def rateLimitPattern : Pattern :=
  all [.textStart, .group 1 (chars1 Text.isDecimal), lit "/", .group 2 (chars1 Char.isAlpha), blanks,
    restPart 3, .textEnd]

/-- The full name of a unit of time. -/
def timeUnit (unit : String) : String :=
  let unit := Text.lower unit
  if ["s", "sec", "secs", "second", "seconds"].contains unit then "second"
  else if ["m", "min", "mins", "minute", "minutes"].contains unit then "minute"
  else if ["h", "hr", "hrs", "hour", "hours"].contains unit then "hour"
  else if ["d", "day", "days"].contains unit then "day"
  else unit

/-- Reads `100/minute description`. -/
def readRateLimit (content : String) : Option Json := do
  let m ← (Text.nonBlank? content).bind rateLimitPattern.find?
  let rate ← word64? (m.group 1).toList
  return .obj [("rate", Json.ofNat rate), ("unit", .str (timeUnit (m.group 2))),
    ("description", .str (Text.trim (m.group 3)))]

/-- Reads a description of errors. -/
def readErrors (content : String) : Option Json :=
  (Text.nonBlank? content).map fun text => .obj [("description", .str (Text.unindent text))]

/-- The tags of MQTT operations. -/
def mqttTags : List (String × Tag) := [
  ("mqtt", inserted "local" (.ofContent readOperation)),
  ("topic", inserted "local" (.checked (readTopic "topic"))),
  ("responseTopic", inserted "local" (.checked (readTopic "responseTopic"))),
  ("topicParam", {
    read := readTopicParameter
    path := fun memory => some ("local.topicParameter.fields." ++ memory.topicParamGroup) }),
  ("qos", inserted "local" (.ofContent readQos)),
  ("retain", inserted "local" (.ofContent readRetain)),
  ("payload", inserted "local" (.ofContent readPayload)),
  ("payloadSchema", inserted "local.payloadSchema" (.ofContent readPayloadSchema)),
  ("auth", inserted "local.auth" (.ofContent readAuth)),
  ("examplePublish", pushed "local.examplePublish" (.ofContent (typedExample
    (commandExample "mosquitto_pub" "Payload Example" "Publish Example")))),
  ("exampleSubscribe", pushed "local.exampleSubscribe" (.ofContent (typedExample
    (commandExample "mosquitto_sub" "Expected Message" "Subscribe Example")))),
  ("responseExample", pushed "local.responseExample" (.ofContent (typedExample responseExample))),
  ("errors", pushed "local.errors" (.ofContent readErrors)),
  ("tags", inserted "local" (.ofContent readTags)),
  ("ratelimit", inserted "local.ratelimit" (.ofContent readRateLimit)),
  ("mqttGroup", inserted "local" (.underscoredAs "group"))]

end Tag
end Docblock
