/-
# What a block says itself stays

A block takes over what the definitions say to which it refers, and loses
nothing by it. The right order is this: one value keeps another
(`Json.Keeps`) if every path of keys that leads to something other than an
object in the second leads to the same in the first, or, where it is an
array, to an array that starts with it. A merge keeps the value it starts
from (`keeps_mergeValue`), so do any number of merges, and the references
of a block can be followed as far as they go (`keeps_mergeReferences`).

Key definitions: `Json.Continues`, `Json.Keeps`.
Key theorems: `Json.Keeps.trans`, `Resolve.keeps_mergeValue`,
`Resolve.keeps_mergeReferences`.
-/
import Docblock.Proofs.Resolve.Action

namespace Docblock

open Fields

namespace Json

/-- What may become of a value that is no object: an array may go on, any
other value stays. -/
def Continues : (old new : Json) → Prop
  | .arr xs, new => ∃ more, new = .arr (xs ++ more)
  | old, new => new = old

/-- Whatever keys lead to in the first value, unless it is an object, they
lead to in the second one, where it may go on. -/
def Keeps (old new : Json) : Prop :=
  ∀ path x, old.getAt? path = some x → x.obj? = none →
    ∃ y, new.getAt? path = some y ∧ x.Continues y

/-! ### Going on -/

theorem Continues.refl (x : Json) : x.Continues x := by
  cases x with
  | arr xs => exact ⟨[], by rw [List.append_nil]⟩
  | _ => rfl

theorem Continues.trans {x y z : Json} (hxy : x.Continues y) (hyz : y.Continues z) : x.Continues z := by
  cases x with
  | arr xs =>
    obtain ⟨more, rfl⟩ := hxy
    obtain ⟨rest, rfl⟩ := hyz
    exact ⟨more ++ rest, by rw [List.append_assoc]⟩
  | _ =>
    cases hxy
    exact hyz

theorem Continues.obj?_eq_none {x y : Json} (h : x.Continues y) (hx : x.obj? = none) : y.obj? = none := by
  cases x with
  | arr xs =>
    obtain ⟨more, rfl⟩ := h
    rfl
  | _ =>
    cases h
    exact hx

/-! ### Keeping -/

theorem Keeps.refl (v : Json) : v.Keeps v := fun _ x hx _ => ⟨x, hx, .refl x⟩

theorem Keeps.trans {u v w : Json} (huv : u.Keeps v) (hvw : v.Keeps w) : u.Keeps w := by
  intro path x hx hobj
  obtain ⟨y, hy, hxy⟩ := huv path x hx hobj
  obtain ⟨z, hz, hyz⟩ := hvw path y hy (hxy.obj?_eq_none hobj)
  exact ⟨z, hz, hxy.trans hyz⟩

/-- No key leads into a value that is no object. -/
theorem keeps_of_continues {old new : Json} (hobj : old.obj? = none) (h : old.Continues new) :
    old.Keeps new := by
  intro path x hx _
  cases path with
  | nil =>
    cases hx
    exact ⟨new, rfl, h⟩
  | cons key path =>
    have hnone : old.get? key = none := by
      cases old with
      | obj fields => cases hobj
      | _ => rfl
    rw [getAt?, hnone] at hx
    cases hx

/-- An object keeps another if it does key by key. -/
theorem keeps_obj {old new : Fields}
    (h : ∀ key v, old.get? key = some v → ∃ w, new.get? key = some w ∧ v.Keeps w) :
    Keeps (.obj old) (.obj new) := by
  intro path x hx hobj
  cases path with
  | nil =>
    cases hx
    cases hobj
  | cons key path =>
    obtain ⟨v, hv, hx⟩ := Option.bind_eq_some_iff.mp hx
    obtain ⟨w, hw, hvw⟩ := h key v hv
    obtain ⟨y, hy, hxy⟩ := hvw path x hx hobj
    exact ⟨y, Option.bind_eq_some_iff.mpr ⟨w, hw, hy⟩, hxy⟩

theorem keeps_set {fields : Fields} {key : String} {new : Json}
    (h : ∀ old, fields.get? key = some old → old.Keeps new) :
    Keeps (.obj fields) (.obj (fields.set key new)) := by
  refine keeps_obj fun other v hv => ?_
  rw [get?_set]
  by_cases hk : other = key
  · subst hk
    exact ⟨new, if_pos rfl, h v hv⟩
  · exact ⟨v, by rw [if_neg hk, hv], .refl v⟩

/-- A key that the first object does not have does not count in the second. -/
theorem Keeps.swapErase {old new : Fields} {key : String} (h : Keeps (.obj old) (.obj new))
    (hd : Distinct new) (hkey : old.get? key = none) : Keeps (.obj old) (.obj (new.swapErase key)) := by
  intro path x hx hobj
  obtain ⟨y, hy, hxy⟩ := h path x hx hobj
  refine ⟨y, ?_, hxy⟩
  cases path with
  | nil =>
    cases hx
    cases hobj
  | cons first path =>
    obtain ⟨v, hv, -⟩ := Option.bind_eq_some_iff.mp hx
    have hne : first ≠ key := by
      rintro rfl
      rw [get?, hkey] at hv
      cases hv
    rw [getAt?, get?, get?_swapErase key first hd, if_neg hne]
    exact hy

theorem keeps_without (key : String) (fields : Fields) :
    Keeps (.obj (fields.without key)) (.obj fields) := by
  refine keeps_obj fun other v hv => ?_
  rw [get?_without] at hv
  split_ifs at hv
  exact ⟨v, hv, .refl v⟩

end Json

namespace Resolve

open Json

/-! ### Merging -/

mutual

/-- A merge keeps the value that is there. -/
theorem keeps_mergeValue (old : Json) : ∀ new : Json, old.Keeps (mergeValue old new)
  | .arr more => by
    cases old with
    | arr xs => exact keeps_of_continues rfl ⟨more, rfl⟩
    | _ => exact .refl _
  | .obj more => by
    cases old with
    | arr xs => exact keeps_of_continues rfl ⟨[.obj more], rfl⟩
    | obj fields =>
      rw [mergeValue]
      exact keeps_mergeFields fields more
    | _ => exact .refl _
  | .null | .bool _ | .num _ | .str _ => by
    cases old with
    | arr xs => exact keeps_of_continues rfl ⟨[_], rfl⟩
    | _ => exact .refl _

/-- A merge keeps the entries that are there. -/
theorem keeps_mergeFields (fields : Fields) : ∀ more : Fields,
    Keeps (.obj fields) (.obj (mergeFields fields more))
  | [] => by
    rw [mergeFields]
    exact .refl _
  | (key, new) :: rest => by
    rw [mergeFields_cons]
    refine .trans (keeps_set fun old hold => ?_) (keeps_mergeFields _ rest)
    rw [hold]
    exact keeps_mergeValue old new

end

/-- Following references, a block keeps what it has under other keys, however
far it comes. -/
theorem keeps_mergeReferences (c : Context) (target : String) {b : Block} (hd : Distinct b.own) :
    Keeps (.obj (b.own.without target)) (.obj (mergeReferences c target b).1.own) := by
  have hkey : (b.own.without target).get? target = none := by rw [get?_without, if_pos rfl]
  refine (mergeLevels_keeps (motive := fun own =>
    Distinct own ∧ Keeps (.obj (b.own.without target)) (.obj own)) ?_ ?_ maxLevels b.own ?_).2
  · rintro own ⟨hown, hkeeps⟩
    exact ⟨hown.swapErase target, hkeeps.swapErase hown hkey⟩
  · rintro own name d - ⟨hown, hkeeps⟩
    exact ⟨distinct_mergeFields hown, hkeeps.trans (keeps_mergeFields own d.own)⟩
  · exact ⟨hd, keeps_without target b.own⟩

end Resolve
end Docblock
