/-
# Equality of values can be decided

`Json.same` walks two values side by side. It says yes if and only if they are
equal (`Json.same_iff`), so statements that two values are equal can be
checked by running it.

Key theorems: `Json.same_iff`.
-/
import Docblock.Json.Basic

namespace Docblock
namespace Json

mutual

theorem same_iff : ∀ a b : Json, same a b = true ↔ a = b
  | .null, b => by cases b <;> simp [same]
  | .bool _, b => by cases b <;> simp [same]
  | .num _, b => by cases b <;> simp [same]
  | .str _, b => by cases b <;> simp [same]
  | .arr xs, b => by
    cases b with
    | arr ys => simp [same, sameElems_iff xs ys]
    | _ => simp [same]
  | .obj xs, b => by
    cases b with
    | obj ys => simp [same, sameFields_iff xs ys]
    | _ => simp [same]

theorem sameElems_iff : ∀ xs ys : List Json, sameElems xs ys = true ↔ xs = ys
  | [], ys => by cases ys <;> simp [sameElems]
  | x :: xs, ys => by
    cases ys with
    | nil => simp [sameElems]
    | cons y ys => simp [sameElems, same_iff x y, sameElems_iff xs ys]

theorem sameFields_iff : ∀ xs ys : List (String × Json), sameFields xs ys = true ↔ xs = ys
  | [], ys => by cases ys <;> simp [sameFields]
  | (k, x) :: xs, ys => by
    cases ys with
    | nil => simp [sameFields]
    | cons entry ys =>
      obtain ⟨l, y⟩ := entry
      simp [sameFields, same_iff x y, sameFields_iff xs ys]

end

instance : DecidableEq Json := fun a b => decidable_of_iff (same a b = true) (same_iff a b)

instance : LawfulBEq Json where
  eq_of_beq h := (same_iff _ _).mp h
  rfl := (same_iff _ _).mpr rfl

end Json
end Docblock
