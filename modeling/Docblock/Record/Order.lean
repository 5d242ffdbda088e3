/-
# The order of records

Records are sorted by group and name, and those of one name by version, the
latest first. Records that are equal in both keep their order.

Key definitions: `Record.order`, `Record.sort?`.
-/
import Docblock.Json.Basic
import Docblock.Sorting.Runs
import Docblock.Version

namespace Docblock
namespace Record

/-- The text under a key; empty if there is none. -/
def text (key : String) (record : Fields) : String :=
  ((record.get? key).bind Json.str?).getD ""

/-- What records are sorted by in the first place. -/
def sortKey (record : Fields) : String := text "group" record ++ text "name" record

/-- The order of versions, the latest first. -/
def latestFirst (a b : String) : Ordering :=
  if a == b then .eq else Version.compareTexts b a

/-- The order of records. -/
def order (a b : Fields) : Ordering :=
  (Text.order (sortKey a) (sortKey b)).then (latestFirst (text "version" a) (text "version" b))

/-- Whether a record comes before another one. -/
def comesBefore (a b : Fields) : Bool := order a b == .lt

/-- The records in order. Nothing if the sort finds that the comparison is no
order. There is room for eight million bytes of records, of 72 bytes each. -/
def sort? (records : List Fields) : Option (List Fields) :=
  Sorting.sort? comesBefore (8000000 / 72) records

end Record
end Docblock
