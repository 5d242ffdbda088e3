/-
# Tags

A tag reads the text of an element into a value and says where the value
belongs. Some tags depend on what was read before them: the group, the model
or the objects that earlier elements named. This memory is threaded through
all elements of a run, in order.

Key definitions: `Tag.Memory`, `Tag.Fault`, `Tag.Reply`, `Tag`.
-/
import Docblock.Block
import Docblock.Text.Blank
import Docblock.Pattern.Search

namespace Docblock
namespace Tag

/-- What elements remember for the elements after them. -/
structure Memory where
  /-- The group of the last parameter, which decides where it is stored. -/
  paramGroup : String := ""
  /-- The fields with an object type so far. -/
  parents : Fields := []
  /-- The group of the last topic parameter. -/
  topicParamGroup : String := ""
  /-- The model that was named last. -/
  currentModel : String := ""
  /-- The group of the last device parameter, return value or error. -/
  iotGroup : String := ""
  /-- How often each deprecated tag was used. -/
  deprecatedCounts : List (String × Nat) := []
  /-- The category of the folder that is being read. -/
  category : Option String := none
  /-- The file that is being read. -/
  filename : String := ""

/-- Why a tag refuses its text. -/
inductive Fault where
  | definitionMissing
  | definitionName
  | versionFormat
  | languageLength
  | unknownLanguage (code : String)
  | reservedTopic (tag : String)
  | nulInTopic (tag : String)
  | usage (message tag definition exampleText : String)
  | other (message : String)
  deriving DecidableEq, Repr

/-- How a tag should be written: the tag, its form and an example. -/
structure Usage where
  tag : String
  form : String
  sample : String

namespace Fault

/-- The wording of a fault. -/
def message : Fault → String
  | .definitionMissing => "No arguments found."
  | .definitionName => "Name must contain only alphanumeric and colon characters."
  | .versionFormat => "Version format not valid."
  | .languageLength => "Language code must be ISO 639-1 format (2 letters)."
  | .unknownLanguage code => "Language code \"" ++ code ++ "\" is not a valid ISO 639-1 code."
  | .reservedTopic _ => "Topics starting with '$' are reserved for the broker."
  | .nulInTopic _ => "Topic must not contain NUL characters."
  | .usage message _ _ _ => message
  | .other message => message

/-- How a topic tag should be written. -/
def topicUsage (tag : String) : Usage :=
  ⟨tag, "@" ++ tag ++ " path/to/\x7bparam\x7d/topic",
    "@" ++ tag ++ " sensors/\x7bdeviceId\x7d/temperature"⟩

/-- How the tag should have been written; nothing for faults of another kind. -/
def usage? : Fault → Option Usage
  | .definitionMissing => some ⟨"apiDefine", "@apiDefine name", "@apiDefine MyValidName"⟩
  | .definitionName => some ⟨"apiDefine", "@apiDefine name", "@apiDefine MyValidName"⟩
  | .versionFormat => some ⟨"apiVersion", "@apiVersion major.minor.patch", "@apiVersion 1.2.3"⟩
  | .languageLength => some ⟨"apiLang", "@apiLang <iso-639-1-code>",
      "@apiLang es\n@apiLang en\n@apiLang zh\n@apiLang fr"⟩
  | .unknownLanguage _ => some ⟨"apiLang", "@apiLang <iso-639-1-code>",
      "@apiLang es (Spanish)\n@apiLang en (English)\n@apiLang zh (Chinese)\n@apiLang ja (Japanese)"⟩
  | .reservedTopic tag => some (topicUsage tag)
  | .nulInTopic tag => some (topicUsage tag)
  | .usage _ tag definition exampleText => some ⟨tag, definition, exampleText⟩
  | .other _ => none

end Fault

/-- What reading an element gives: a value, nothing, or a fault; the memory
afterwards; and remarks for the reader of the log. -/
structure Reply where
  result : Except Fault (Option Json)
  memory : Memory
  remarks : List String := []

/-- Reads the content and the source of an element. -/
abbrev Reader := (content source : String) → Memory → Reply

/-- A reader that looks at the content alone and always gives a value or
nothing. -/
def Reader.ofContent (f : String → Option Json) : Reader :=
  fun content _ memory => { result := .ok (f content), memory }

/-- A reader that looks at the content alone and may refuse it. -/
def Reader.checked (f : String → Except Fault (Option Json)) : Reader :=
  fun content _ memory => { result := f content, memory }

/-- A reader that stores the trimmed content under a key. -/
def Reader.keyed (key : String) : Reader :=
  Reader.ofContent fun content => (Text.nonBlank? content).map fun text => .obj [(key, .str text)]

/-- The text with its runs of blanks as underscores. -/
def underscored (s : String) : String :=
  Pattern.blanks1.replaceAll (fun _ => "_") s

/-- A reader that stores the trimmed content under a key, with underscores for
its blanks. -/
def Reader.underscoredAs (key : String) : Reader :=
  Reader.ofContent fun content =>
    (Text.nonBlank? content).map fun text => .obj [(key, .str (underscored text))]

end Tag

/-- A tag: how it is read and what becomes of its value. -/
structure Tag where
  read : Tag.Reader
  /-- The dotted path of the value; it may depend on what was just read. -/
  path : Tag.Memory → Option String
  method : Method := .push
  /-- Whether the tag may not stand in a block that shares data. -/
  preventGlobal : Bool := false
  /-- Whether the value may join other shared values of its block; by default
  if it is pushed. -/
  mayRepeat : Option Bool := none
  /-- Whether the value is also stored at the root of the block. -/
  extendRoot : Bool := false
  /-- The fields that hold Markdown. -/
  markdownFields : List String := []
  /-- The fields whose rendered text loses its paragraph marks. -/
  removePTags : List String := []
  deprecated : Bool := false
  /-- The tag to use instead of a deprecated one. -/
  alternative : Option String := none

namespace Tag

/-- Whether the value may join other shared values of its block. -/
def allowMultiple (t : Tag) : Bool :=
  t.mayRepeat.getD (t.method == .push)

/-- A path that does not depend on what was read. -/
def fixed (path : String) : Memory → Option String :=
  fun _ => some path

/-- A tag whose value is pushed at a fixed path. -/
def pushed (path : String) (read : Reader) : Tag :=
  { read, path := fixed path, method := .push }

/-- A tag whose entries are inserted at a fixed path. -/
def inserted (path : String) (read : Reader) : Tag :=
  { read, path := fixed path, method := .insert }

end Tag
end Docblock
