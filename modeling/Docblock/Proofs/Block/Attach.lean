/-
# Attaching a value at a dotted path

A dotted path is split at its points (`split_append`), so a text without a
point is one key (`split_of_not_mem`) and one with a point never is
(`exists_split_of_mem`). Attaching goes down the keys, making what is missing,
and writes at the last one: the part below a prefix of the path is what
attaching the rest of the path to it gives (`attach_below`), and beside the
first key nothing changes (`exists_attachAt_eq_set`).

Key definitions: `Json.fieldsAt`, `Json.elementsAt`.
Key theorems: `Fields.attach_below`, `Fields.getAt?_attachAt_push`,
`Fields.attachAt_push_nil`, `Block.attach_local`.
-/
import Docblock.Block
import Docblock.Proofs.Json.Path
import Docblock.Proofs.Text.Line

namespace Docblock

/-! ### Splitting a path -/

namespace Text

/-- A text without the separator is one piece. -/
theorem split_of_not_mem {sep : Char} {s : String} (h : sep ∉ s.toList) : split sep s = [s] := by
  rw [split, splitBy, splitChars_of_not_mem h, List.map_singleton, String.ofList_toList]

/-- A piece in front is split off. -/
theorem split_append {sep : Char} {a : String} (b : String) (h : sep ∉ a.toList) :
    split sep (a ++ String.singleton sep ++ b) = a :: split sep b := by
  rw [split, splitBy, String.toList_append, String.toList_append, String.toList_singleton,
    List.append_assoc, List.singleton_append, splitChars_append _ h, List.map_cons, String.ofList_toList]
  rfl

/-- A text with the separator is no piece of its own. -/
theorem exists_split_of_mem {sep : Char} {s : String} (h : sep ∈ s.toList) :
    ∃ first next rest, split sep s = first :: next :: rest ∧ first ≠ s := by
  obtain ⟨line, lines, hsplit, hcs, hfree⟩ := exists_splitChars sep s.toList
  have hline : sep ∉ line := hfree line List.mem_cons_self
  cases lines with
  | nil =>
    rw [hcs, behindEnds_nil, List.append_nil] at h
    exact absurd h hline
  | cons second rest =>
    refine ⟨String.ofList line, String.ofList second, rest.map String.ofList, ?_, ?_⟩
    · rw [split, splitBy, hsplit, List.map_cons, List.map_cons]
    · rintro rfl
      rw [String.toList_ofList] at h
      exact hline h

end Text

/-! ### Objects and arrays at a place -/

namespace Json

/-- The entries of the object at a place; none if there is no object. -/
def fieldsAt (keys : List String) (v : Json) : Fields := ((getAt? keys v).bind obj?).getD []

/-- The elements of the array at a place; none if there is no array. -/
def elementsAt (keys : List String) (v : Json) : List Json := ((getAt? keys v).bind arr?).getD []

theorem fieldsAt_of_getAt? {keys : List String} {v : Json} {fields : Fields}
    (h : getAt? keys v = some (.obj fields)) : fieldsAt keys v = fields := by
  rw [fieldsAt, h]
  rfl

end Json

/-! ### Attaching to entries -/

namespace Fields

open Json

variable {method : Method} {value : Json}

/-- The entries that attaching goes on with below a key: those that are there,
or none if nothing is there. -/
theorem fieldsAt_cons {key : String} {fields inner : Fields}
    (h : (if ((fields.get? key).getD (.obj [])).isFalsy then .obj [] else (fields.get? key).getD (.obj [])) =
      Json.obj inner) (keys : List String) :
    fieldsAt (key :: keys) (.obj fields) = fieldsAt keys (.obj inner) ∧
      (keys ≠ [] → elementsAt (key :: keys) (.obj fields) = elementsAt keys (.obj inner)) := by
  rw [fieldsAt, fieldsAt, elementsAt, elementsAt, getAt?_cons]
  cases hkey : fields.get? key with
  | none =>
    rw [hkey] at h
    obtain rfl : inner = [] := by simpa [isFalsy] using h.symm
    cases keys with
    | nil => exact ⟨rfl, fun hne => absurd rfl hne⟩
    | cons k ks => exact ⟨rfl, fun _ => rfl⟩
  | some old =>
    rw [hkey, Option.getD_some] at h
    by_cases hold : old.isFalsy = true
    · -- what counts as absent is no object, so nothing can be read below it
      rw [if_pos hold] at h
      obtain rfl : inner = [] := by simpa using h.symm
      cases old with
      | obj old => simp [isFalsy] at hold
      | _ => cases keys with
        | nil => exact ⟨rfl, fun hne => absurd rfl hne⟩
        | cons k ks => exact ⟨rfl, fun _ => rfl⟩
    · rw [if_neg hold] at h
      subst h
      exact ⟨rfl, fun _ => rfl⟩

/-- Attaching below a key goes on with the entries there. -/
theorem attachAt_cons {key next : String} {keys : List String} {fields after : Fields}
    (h : attachAt method value key (next :: keys) fields = (after, true)) :
    ∃ inner innerAfter, (if ((fields.get? key).getD (.obj [])).isFalsy then .obj []
        else (fields.get? key).getD (.obj [])) = Json.obj inner ∧
      attachAt method value next keys inner = (innerAfter, true) ∧
      after = fields.set key (.obj innerAfter) := by
  rw [attachAt] at h
  split at h
  · next inner hinner =>
    rw [Prod.mk.injEq] at h
    exact ⟨inner, (attachAt method value next keys inner).1, hinner, Prod.ext rfl h.2, h.1.symm⟩
  · simp at h

/-- Attaching writes the first key of the path and no other. -/
theorem exists_attachAt_eq_set (method : Method) (value : Json) (key : String) (keys : List String)
    (fields : Fields) : ∃ v, (attachAt method value key keys fields).1 = fields.set key v := by
  cases keys with
  | nil =>
    rw [attachAt]
    split <;> exact ⟨_, rfl⟩
  | cons next keys =>
    rw [attachAt]
    split <;> exact ⟨_, rfl⟩

theorem get?_attachAt_of_ne {key other : String} (hne : other ≠ key) (keys : List String) (fields : Fields) :
    (attachAt method value key keys fields).1.get? other = fields.get? other := by
  obtain ⟨v, hv⟩ := exists_attachAt_eq_set method value key keys fields
  rw [hv, get?_set_of_ne v hne]

/-- **Attaching goes down the path.** What stands at a prefix of the path is
what the rest of the path makes of the entries that stood there. -/
theorem attach_below {key : String} {keys : List String} : ∀ {path : List String} {fields after : Fields},
    attach method value fields (path ++ key :: keys) = (after, true) →
    ∃ below, getAt? path (.obj after) = some (.obj below) ∧
      attachAt method value key keys (fieldsAt path (.obj fields)) = (below, true)
  | [], fields, after, h => ⟨after, rfl, h⟩
  | first :: path, fields, after, h => by
    obtain ⟨next, more, hnext⟩ : ∃ next more, path ++ key :: keys = next :: more :=
      List.exists_cons_of_ne_nil (by simp)
    rw [List.cons_append, attach, hnext] at h
    obtain ⟨inner, innerAfter, hinner, hattach, rfl⟩ := attachAt_cons h
    have hdown : attach method value inner (path ++ key :: keys) = (innerAfter, true) := by
      rw [hnext]
      exact hattach
    obtain ⟨below, hbelow, hat⟩ := attach_below hdown
    refine ⟨below, ?_, ?_⟩
    · rw [getAt?_cons, get?_set_self, Option.bind_some, hbelow]
    · rw [(fieldsAt_cons hinner path).1, hat]

/-- Pushing at a key makes the array there one element longer. -/
theorem attachAt_push_nil {key : String} {fields after : Fields}
    (h : attachAt .push value key [] fields = (after, true)) :
    after = fields.set key (.arr (elementsAt [key] (.obj fields) ++ [value])) := by
  rw [attachAt] at h
  split at h
  · next node hnode =>
    rw [Prod.mk.injEq] at h
    obtain ⟨rfl, -⟩ := h
    congr 1
    rw [elementsAt, getAt?_cons]
    cases hkey : fields.get? key with
    | none =>
      rw [hkey] at hnode
      simpa [isFalsy, Method.start, Method.join] using hnode.symm
    | some old =>
      rw [hkey, Option.getD_some] at hnode
      by_cases hold : old.isFalsy = true
      · rw [if_pos hold] at hnode
        cases old with
        | arr xs => simp [isFalsy] at hold
        | _ => simpa [getAt?, arr?, Method.start, Method.join] using hnode.symm
      · rw [if_neg hold] at hnode
        cases old with
        | arr xs => simpa [getAt?, arr?, Method.join] using hnode.symm
        | _ => simp [Method.join] at hnode
  · simp at h

/-- After pushing, the array at the path ends with the value, and what was in
it before stands before the value. -/
theorem getAt?_attachAt_push : ∀ {keys : List String} {key : String} {fields after : Fields},
    attachAt .push value key keys fields = (after, true) →
    getAt? (key :: keys) (.obj after) = some (.arr (elementsAt (key :: keys) (.obj fields) ++ [value]))
  | [], key, fields, after, h => by
    rw [attachAt_push_nil h, getAt?_cons, get?_set_self]
    rfl
  | next :: keys, key, fields, after, h => by
    obtain ⟨inner, innerAfter, hinner, hattach, rfl⟩ := attachAt_cons h
    rw [getAt?_cons, get?_set_self, Option.bind_some, getAt?_attachAt_push hattach,
      (fieldsAt_cons hinner (next :: keys)).2 (List.cons_ne_nil _ _)]

end Fields

/-! ### Attaching to a block -/

namespace Block

/-- A path below a key of `local` is split there. -/
theorem split_local {key : String} (rest : String) (hkey : '.' ∉ key.toList) :
    Text.split '.' ("local." ++ key ++ "." ++ rest) = "local" :: key :: Text.split '.' rest := by
  have hpath : "local." ++ key ++ "." ++ rest =
      "local" ++ String.singleton '.' ++ (key ++ String.singleton '.' ++ rest) := by
    have hlocal : "local." = "local" ++ String.singleton '.' := by decide
    have hpoint : "." = String.singleton '.' := by decide
    rw [hlocal, hpoint]
    simp only [String.append_assoc]
  rw [hpath, Text.split_append _ (by decide), Text.split_append _ hkey]

/-- The path of a field of a section. -/
theorem split_local_fields {part : String} (group : String) (hpart : '.' ∉ part.toList) :
    Text.split '.' ("local." ++ part ++ ".fields." ++ group) =
      "local" :: part :: "fields" :: Text.split '.' group := by
  have hpath : "local." ++ part ++ ".fields." ++ group =
      "local." ++ part ++ "." ++ ("fields" ++ String.singleton '.' ++ group) := by
    have hfields : ".fields." = "." ++ "fields" ++ String.singleton '.' := by decide
    rw [hfields]
    simp only [String.append_assoc]
  rw [hpath, split_local _ hpart, Text.split_append _ (by decide)]

/-- A path below `local` leads into the data of the endpoint. -/
theorem attach_local {b after : Block} {path key : String} {keys : List String} {method : Method} {value : Json}
    (hpath : Text.split '.' path = "local" :: key :: keys) (h : b.attach path method value = (after, true)) :
    Fields.attach method value b.own (key :: keys) = (after.own, true) := by
  simp only [attach, hpath, Prod.mk.injEq] at h
  obtain ⟨rfl, hfits⟩ := h
  exact Prod.ext rfl hfits

/-- Below `local` nothing that is shared changes. -/
theorem shared_attach_local {b : Block} {path : String} {keys : List String} (method : Method) (value : Json)
    (hpath : Text.split '.' path = "local" :: keys) : (b.attach path method value).1.shared = b.shared := by
  cases keys <;> simp only [attach, hpath]

/-- Only entries can join the data of the endpoint themselves. -/
theorem attach_here {b after : Block} {path : String} {method : Method} {value : Json}
    (hpath : Text.split '.' path = ["local"]) (h : b.attach path method value = (after, true)) :
    ∃ new, method = .insert ∧ value = .obj new ∧ after.own = b.own.setAll new := by
  simp only [attach, hpath, Prod.mk.injEq] at h
  obtain ⟨rfl, hfits⟩ := h
  unfold Fields.attachHere at hfits ⊢
  split at hfits
  · exact ⟨_, rfl, rfl, rfl⟩
  · cases hfits

end Block
end Docblock
