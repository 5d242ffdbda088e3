/-
# JSON values

Documentation is collected as JSON. An object is the list of its entries in
the order in which they were added: writing an existing key keeps its place,
and removing a key moves the last entry into the gap.

Key definitions: `Json`, `Json.Number`, `Fields.get?`, `Fields.set`,
`Fields.swapErase`, `Json.isFalsy`.
Key theorems: `Fields.get?_set_self`, `Fields.get?_set_of_ne`,
`Fields.keys_set_of_contains`.
-/
import Docblock.Decimal.Binary64

namespace Docblock

/-- A JSON number: a whole number, or a double for everything else. -/
inductive Json.Number where
  | int (n : Int)
  | real (x : Binary64)
  deriving DecidableEq, Repr

/-- A JSON value. -/
inductive Json where
  | null
  | bool (b : Bool)
  | num (n : Json.Number)
  | str (s : String)
  | arr (elems : List Json)
  | obj (fields : List (String × Json))
  deriving Inhabited, Repr

/-- The entries of an object, in order. -/
abbrev Fields := List (String × Json)

instance : Coe String Json := ⟨Json.str⟩
instance : Coe Bool Json := ⟨Json.bool⟩
instance : Coe Fields Json := ⟨Json.obj⟩

/-! ### Entries -/

namespace Fields

/-- The value stored under a key. -/
def get? (key : String) : Fields → Option Json
  | [] => none
  | (k, v) :: rest => if k == key then some v else get? key rest

/-- Whether there is an entry for the key. -/
def contains (key : String) (fields : Fields) : Bool :=
  (get? key fields).isSome

/-- Stores a value: in place if the key is there, else as the last entry. -/
def set (key : String) (value : Json) : Fields → Fields
  | [] => [(key, value)]
  | (k, v) :: rest => if k == key then (k, value) :: rest else (k, v) :: set key value rest

/-- Removes a key; the last entry takes its place. -/
def swapErase (key : String) : Fields → Fields
  | [] => []
  | (k, v) :: rest =>
    if k == key then
      match rest.getLast? with
      | none => []
      | some last => last :: rest.dropLast
    else (k, v) :: swapErase key rest

/-- Stores all entries of `new` one after the other. -/
def setAll (fields new : Fields) : Fields :=
  new.foldl (fun acc (k, v) => acc.set k v) fields

/-- Stores a value if there is one. -/
def set? (key : String) (value : Option Json) (fields : Fields) : Fields :=
  match value with
  | none => fields
  | some v => fields.set key v

/-- The keys in order. -/
def keys (fields : Fields) : List String :=
  fields.map Prod.fst

theorem get?_set_self (key : String) (value : Json) :
    ∀ fields : Fields, get? key (set key value fields) = some value
  | [] => by simp [set, get?]
  | (k, v) :: rest => by
    by_cases h : k = key <;> simp [set, get?, h, get?_set_self key value rest]

theorem get?_set_of_ne {key other : String} (value : Json) (hne : other ≠ key) :
    ∀ fields : Fields, get? other (set key value fields) = get? other fields
  | [] => by simp [set, get?, Ne.symm hne]
  | (k, v) :: rest => by
    by_cases h : k = key
    · subst h
      simp [set, get?, Ne.symm hne]
    · by_cases h' : k = other <;> simp [set, get?, h, h', hne, get?_set_of_ne value hne rest]

/-- Writing a key that is there keeps all keys and their order. -/
theorem keys_set_of_contains (key : String) (value : Json) :
    ∀ fields : Fields, contains key fields = true → keys (set key value fields) = keys fields
  | [], h => by simp [contains, get?] at h
  | (k, v) :: rest, h => by
    by_cases hk : k = key
    · simp [set, hk, keys]
    · have h' : contains key rest = true := by simpa [contains, get?, hk] using h
      have := keys_set_of_contains key value rest h'
      simpa [set, hk, keys] using this

end Fields

/-! ### Values -/

namespace Json

/-- The whole number `n`. -/
def ofNat (n : Nat) : Json := .num (.int n)

/-- The object with the entries that have a value. -/
def ofPresent (entries : List (String × Option Json)) : Json :=
  .obj (entries.filterMap fun (key, value) => value.map fun v => (key, v))

/-- An array of texts. -/
def texts (xs : List String) : Json := .arr (xs.map .str)

/-- A value that may be missing; `null` when it is. -/
def ofOption : Option Json → Json
  | none => .null
  | some v => v

/-- The text, if the value is one. -/
def str? : Json → Option String
  | .str s => some s
  | _ => none

/-- The elements, if the value is an array. -/
def arr? : Json → Option (List Json)
  | .arr xs => some xs
  | _ => none

/-- The entries, if the value is an object. -/
def obj? : Json → Option Fields
  | .obj fields => some fields
  | _ => none

/-- The truth value, if the value is one. -/
def bool? : Json → Option Bool
  | .bool b => some b
  | _ => none

/-- The value of a key of an object; nothing for other values. -/
def get? (key : String) : Json → Option Json
  | .obj fields => Fields.get? key fields
  | _ => none

/-- The text stored under a key of an object. -/
def getStr? (key : String) (v : Json) : Option String :=
  (v.get? key).bind str?

/-- Null, false, zero and the empty text count as absent. -/
def isFalsy : Json → Bool
  | .null => true
  | .bool b => !b
  | .num (.int n) => n == 0
  | .num (.real x) => x.isZero
  | .str s => s.isEmpty
  | .arr _ => false
  | .obj _ => false

/-- The opposite of `isFalsy`. -/
def isTruthy (v : Json) : Bool := !v.isFalsy

/-- The value of a key, unless it counts as absent. -/
def getTruthy? (key : String) (v : Json) : Option Json :=
  (v.get? key).filter isTruthy

mutual

/-- Equality of values; the order of the entries counts. -/
def same : Json → Json → Bool
  | .null, .null => true
  | .bool a, .bool b => a == b
  | .num a, .num b => a == b
  | .str a, .str b => a == b
  | .arr xs, .arr ys => sameElems xs ys
  | .obj xs, .obj ys => sameFields xs ys
  | _, _ => false

/-- `same` on arrays. -/
def sameElems : List Json → List Json → Bool
  | [], [] => true
  | x :: xs, y :: ys => same x y && sameElems xs ys
  | _, _ => false

/-- `same` on entries. -/
def sameFields : List (String × Json) → List (String × Json) → Bool
  | [], [] => true
  | (k, x) :: xs, (l, y) :: ys => k == l && same x y && sameFields xs ys
  | _, _ => false

end

instance : BEq Json := ⟨same⟩

end Json
end Docblock
