/-
# The law of attaching

Attaching a value below `local` or `global` looks at the values on the way and
at the one at the end. On the way there may be objects, and values that count as
absent, which become objects (`Fields.OpenAbove`). At the end there may be
nothing, a value that counts as absent, or one of the shape that the method
continues. If all of this fits (`Fields.attachAt_fits_iff`), the value joins what
was at the end (`Fields.getAt?_attachAt`); and whether it fits or not, whatever
is neither on the way nor below its end stays as it was
(`Fields.getAt?_attachAt_of_unrelated`).

Key definitions: `Method.Accepts`, `Method.base`, `Fields.OpenAbove`,
`Block.Part`, `Block.read`, `Block.pushAll`.
Key theorems: `Fields.attachAt_fits_iff`, `Fields.getAt?_attachAt`,
`Fields.getAt?_attachAt_of_unrelated`, `Block.attach_law`.
-/
import Docblock.Proofs.Block.Attach

namespace Docblock

/-! ### What attaching looks at -/

/-- Attaching can go through the value: it counts as absent, or it is an object. -/
def Json.IsOpen (v : Json) : Prop := v.isFalsy = true ∨ ∃ fields, v = .obj fields

namespace Method

/-- The shape that the method continues: an array, or an object. -/
def Accepts : Method → (node : Json) → Prop
  | .push, node => ∃ xs, node = .arr xs
  | .insert, node => ∃ fields, node = .obj fields

/-- The values that can join by the method: any value, or an object. -/
def Takes : Method → (value : Json) → Prop
  | .push, _ => True
  | .insert, value => ∃ new, value = .obj new

/-- What the value joins: what is there, or an empty node if that counts as
absent. -/
def base (method : Method) (old : Option Json) : Json :=
  if (old.getD .null).isFalsy then method.start else old.getD .null

theorem join_isSome_iff (method : Method) (node value : Json) :
    (method.join node value).isSome = true ↔ method.Accepts node ∧ method.Takes value := by
  cases method <;> cases node <;> cases value <;> simp [join, Accepts, Takes]

theorem accepts_base_iff (method : Method) (old : Option Json) :
    method.Accepts (method.base old) ↔ ∀ node, old = some node → node.isFalsy = true ∨ method.Accepts node := by
  have hstart : method.Accepts method.start := by cases method <;> exact ⟨[], rfl⟩
  cases old with
  | none => simpa [base, Json.isFalsy] using hstart
  | some node =>
    by_cases hnode : node.isFalsy = true
    · simpa [base, hnode] using hstart
    · simp [base, hnode]

/-- Inserted entries join those that are there, if there are any. -/
theorem eq_of_join_base_insert {old : Option Json} {new : Fields} {node : Json}
    (h : Method.insert.join (Method.insert.base old) (.obj new) = some node) :
    node = .obj (((old.bind Json.obj?).getD []).setAll new) := by
  cases old with
  | none => simpa [base, start, join, Json.isFalsy, eq_comm] using h
  | some v =>
    by_cases hfalsy : v.isFalsy = true
    · cases v with
      | obj fields => cases hfalsy
      | _ => simpa [base, start, join, hfalsy, Json.obj?, eq_comm] using h
    · cases v with
      | obj fields => simpa [base, join, hfalsy, Json.obj?, eq_comm] using h
      | _ => simp [base, join, hfalsy] at h

end Method

namespace Fields

open Json

variable {method : Method} {value : Json} {key next : String} {keys : List String} {fields : Fields}

/-- The values that stand above the last key are open. -/
def OpenAbove (fields : Fields) (keys : List String) : Prop :=
  ∀ above, above ≠ [] → above <+: keys → above ≠ keys → ∀ v, getAt? above (.obj fields) = some v → v.IsOpen

/-- Below a place one reads from the object there, if there is one. -/
theorem getAt?_fieldsAt {more : List String} (hmore : more ≠ []) (path : List String) (v : Json) :
    getAt? more (.obj (fieldsAt path v)) = getAt? (path ++ more) v := by
  obtain ⟨first, rest, rfl⟩ := List.exists_cons_of_ne_nil hmore
  rw [getAt?_append, fieldsAt]
  cases getAt? path v with
  | none => rfl
  | some w => cases w <;> rfl

theorem openAbove_singleton (fields : Fields) (key : String) : OpenAbove fields [key] := by
  intro above hne hprefix hproper
  rcases List.prefix_cons_iff.mp hprefix with rfl | ⟨rest, rfl, hrest⟩
  · exact absurd rfl hne
  · rw [List.prefix_nil.mp hrest] at hproper
    exact absurd rfl hproper

/-- The first value on the way is open, and so are those below it. -/
theorem openAbove_cons_iff : OpenAbove fields (key :: next :: keys) ↔
    (∀ v, fields.get? key = some v → v.IsOpen) ∧
      OpenAbove (fieldsAt [key] (.obj fields)) (next :: keys) := by
  constructor
  · intro h
    constructor
    · intro v hv
      refine h [key] (List.cons_ne_nil _ _) (by simp) (by simp) v ?_
      rwa [getAt?_singleton]
    · intro above hne hprefix hproper v hv
      rw [getAt?_fieldsAt hne] at hv
      refine h (key :: above) (List.cons_ne_nil _ _) (List.cons_prefix_cons.mpr ⟨rfl, hprefix⟩) ?_ v hv
      simpa using hproper
  · rintro ⟨hfirst, hbelow⟩ above hne hprefix hproper v hv
    rcases List.prefix_cons_iff.mp hprefix with rfl | ⟨rest, rfl, hrest⟩
    · exact absurd rfl hne
    · by_cases hnil : rest = []
      · subst hnil
        rw [getAt?_singleton] at hv
        exact hfirst v hv
      · refine hbelow rest hnil hrest (by simpa using hproper) v ?_
        rwa [getAt?_fieldsAt hnil]

/-! ### One step down the path -/

theorem attachAt_nil (method : Method) (value : Json) (key : String) (fields : Fields) :
    attachAt method value key [] fields = match method.join (method.base (fields.get? key)) value with
      | some node => (fields.set key node, true)
      | none => (fields.set key (method.base (fields.get? key)), false) := rfl

/-- Attaching goes on with the entries of an open value. -/
theorem attachAt_of_open (h : ∀ v, fields.get? key = some v → v.IsOpen) :
    attachAt method value key (next :: keys) fields =
      (fields.set key (.obj (attachAt method value next keys (fieldsAt [key] (.obj fields))).1),
        (attachAt method value next keys (fieldsAt [key] (.obj fields))).2) := by
  have hbelow : fieldsAt [key] (.obj fields) = ((fields.get? key).bind obj?).getD [] := by
    rw [fieldsAt, getAt?_singleton]
  rw [attachAt, hbelow]
  cases hkey : fields.get? key with
  | none => rfl
  | some v =>
    rcases h v hkey with hfalsy | ⟨inner, rfl⟩
    · cases v with
      | obj inner => cases hfalsy
      | _ => simp [hfalsy, obj?]
    · rfl

/-- Another value on the way stops the attaching, which changes nothing then. -/
theorem attachAt_of_not_open {v : Json} (hkey : fields.get? key = some v) (h : ¬ v.IsOpen) :
    attachAt method value key (next :: keys) fields = (fields, false) := by
  obtain ⟨hfalsy, hobj⟩ := not_or.mp h
  rw [attachAt, hkey]
  cases v with
  | obj inner => exact absurd ⟨inner, rfl⟩ hobj
  | _ => simp [hfalsy, set_of_get? hkey]

/-! ### The whole path -/

/-- **When attaching fits.** The values on the way are open, what stands at the
end counts as absent or has the shape that the method continues, and the value
is one that can join. -/
theorem attachAt_fits_iff : ∀ {keys : List String} {key : String} {fields : Fields},
    (attachAt method value key keys fields).2 = true ↔
      OpenAbove fields (key :: keys) ∧
        (∀ node, getAt? (key :: keys) (.obj fields) = some node → node.isFalsy = true ∨ method.Accepts node) ∧
        method.Takes value
  | [], key, fields => by
    have hjoin := method.join_isSome_iff (method.base (fields.get? key)) value
    rw [method.accepts_base_iff] at hjoin
    rw [attachAt_nil, getAt?_singleton]
    simp only [openAbove_singleton, true_and, ← hjoin]
    cases method.join (method.base (fields.get? key)) value <;> simp
  | next :: keys, key, fields => by
    rw [openAbove_cons_iff]
    by_cases hopen : ∀ v, fields.get? key = some v → v.IsOpen
    · have hread : getAt? (next :: keys) (.obj (fieldsAt [key] (.obj fields))) =
          getAt? (key :: next :: keys) (.obj fields) :=
        getAt?_fieldsAt (List.cons_ne_nil _ _) [key] _
      rw [attachAt_of_open hopen, attachAt_fits_iff, hread, and_assoc, and_iff_right hopen]
    · obtain ⟨v, hkey, hv⟩ : ∃ v, fields.get? key = some v ∧ ¬ v.IsOpen := by simpa using hopen
      rw [attachAt_of_not_open hkey hv]
      simp [hopen]

/-- **What attaching makes.** At the end of the path stands what the value and
what was there make together. -/
theorem getAt?_attachAt : ∀ {keys : List String} {key : String} {fields after : Fields},
    attachAt method value key keys fields = (after, true) →
    ∃ node, method.join (method.base (getAt? (key :: keys) (.obj fields))) value = some node ∧
      getAt? (key :: keys) (.obj after) = some node
  | [], key, fields, after, h => by
    rw [attachAt_nil] at h
    rw [getAt?_singleton, getAt?_singleton]
    split at h
    · next node hnode =>
      obtain ⟨rfl, -⟩ := Prod.mk.inj h
      exact ⟨node, hnode, get?_set_self _ _ _⟩
    · cases h
  | next :: keys, key, fields, after, h => by
    have hopen := (openAbove_cons_iff.mp (attachAt_fits_iff.mp (congrArg Prod.snd h)).1).1
    rw [attachAt_of_open hopen] at h
    obtain ⟨rfl, hfits⟩ := Prod.mk.inj h
    obtain ⟨node, hjoin, hread⟩ := getAt?_attachAt (Prod.ext rfl hfits)
    rw [getAt?_fieldsAt (List.cons_ne_nil _ _)] at hjoin
    refine ⟨node, hjoin, ?_⟩
    rw [getAt?_cons, get?_set_self]
    exact hread

/-- **What attaching leaves alone.** A place that is neither on the way to the
end of the path nor below it reads the same before and after, whether the value
fits or not. -/
theorem getAt?_attachAt_of_unrelated : ∀ {keys : List String} {key : String} {other : List String}
    {fields : Fields}, ¬ other <+: key :: keys → ¬ key :: keys <+: other →
    getAt? other (.obj (attachAt method value key keys fields).1) = getAt? other (.obj fields)
  | keys, key, [], fields, habove, _ => absurd List.nil_prefix habove
  | keys, key, first :: other, fields, habove, hbelow => by
    by_cases hfirst : first = key
    · subst hfirst
      cases keys with
      | nil => exact absurd (List.cons_prefix_cons.mpr ⟨rfl, List.nil_prefix⟩) hbelow
      | cons next keys =>
        have habove' : ¬ other <+: next :: keys := fun h => habove (List.cons_prefix_cons.mpr ⟨rfl, h⟩)
        have hbelow' : ¬ next :: keys <+: other := fun h => hbelow (List.cons_prefix_cons.mpr ⟨rfl, h⟩)
        have hother : other ≠ [] := fun h => habove' (h ▸ List.nil_prefix)
        by_cases hopen : ∀ v, fields.get? first = some v → v.IsOpen
        · rw [attachAt_of_open hopen, getAt?_cons, get?_set_self, Option.bind_some,
            getAt?_attachAt_of_unrelated habove' hbelow', getAt?_fieldsAt hother]
          rfl
        · obtain ⟨v, hkey, hv⟩ : ∃ v, fields.get? first = some v ∧ ¬ v.IsOpen := by simpa using hopen
          rw [attachAt_of_not_open hkey hv]
    · rw [getAt?_cons, getAt?_cons, get?_attachAt_of_ne hfirst]

end Fields

namespace Block

open Fields

/-! ### The parts of a block -/

/-- The parts of a block into which paths lead by their names. -/
inductive Part where
  | own
  | shared
  deriving DecidableEq

/-- The first key of the paths into a part. -/
def Part.name : Part → String
  | .own => "local"
  | .shared => "global"

/-- The data of a part. -/
def fieldsIn (b : Block) : Part → Fields
  | .own => b.own
  | .shared => b.shared

/-- The block with other data in a part. -/
def setPart (b : Block) (fields : Fields) : Part → Block
  | .own => { b with own := fields }
  | .shared => { b with shared := fields }

@[simp] theorem fieldsIn_setPart (b : Block) (fields : Fields) (part : Part) :
    (b.setPart fields part).fieldsIn part = fields := by cases part <;> rfl

theorem fieldsIn_setPart_of_ne (b : Block) (fields : Fields) {part other : Part} (h : other ≠ part) :
    (b.setPart fields part).fieldsIn other = b.fieldsIn other := by
  cases part <;> cases other <;> first | rfl | exact absurd rfl h

/-- What stands in a part at the place that the keys name. -/
def read (b : Block) (part : Part) (keys : List String) : Option Json := Json.getAt? keys (.obj (b.fieldsIn part))

/-- The elements of the array at a place; none if there is no array. -/
def elementsIn (b : Block) (part : Part) (keys : List String) : List Json :=
  Json.elementsAt keys (.obj (b.fieldsIn part))

/-- The entries of the object at a place; none if there is no object. -/
def entriesIn (b : Block) (part : Part) (keys : List String) : Fields :=
  Json.fieldsAt keys (.obj (b.fieldsIn part))

variable {part : Part} {path key : String} {keys : List String}

/-- A path into a part attaches to the data of this part. -/
theorem attach_eq_setPart (hpath : Text.split '.' path = part.name :: key :: keys) (b : Block) (method : Method)
    (value : Json) : b.attach path method value =
      (b.setPart (attachAt method value key keys (b.fieldsIn part)).1 part,
        (attachAt method value key keys (b.fieldsIn part)).2) := by
  unfold Block.attach
  rw [hpath]
  cases part <;> rfl

theorem attach_fits_iff (hpath : Text.split '.' path = part.name :: key :: keys) (b : Block) (method : Method)
    (value : Json) : (b.attach path method value).2 = true ↔
      OpenAbove (b.fieldsIn part) (key :: keys) ∧
        (∀ node, b.read part (key :: keys) = some node → node.isFalsy = true ∨ method.Accepts node) ∧
        method.Takes value := by
  rw [attach_eq_setPart hpath]
  exact attachAt_fits_iff

/-- A value that fits joins what is at the end of its path. -/
theorem read_attach (hpath : Text.split '.' path = part.name :: key :: keys) {b after : Block} {method : Method}
    {value : Json} (h : b.attach path method value = (after, true)) :
    ∃ node, method.join (method.base (b.read part (key :: keys))) value = some node ∧
      after.read part (key :: keys) = some node := by
  rw [attach_eq_setPart hpath, Prod.mk.injEq] at h
  obtain ⟨rfl, hfits⟩ := h
  rw [read, read, fieldsIn_setPart]
  exact getAt?_attachAt (Prod.ext rfl hfits)

/-- Pushed values come behind those that are there. -/
theorem read_push (hpath : Text.split '.' path = part.name :: key :: keys) {b after : Block} {value : Json}
    (h : b.attach path .push value = (after, true)) :
    after.read part (key :: keys) = some (.arr (b.elementsIn part (key :: keys) ++ [value])) := by
  rw [attach_eq_setPart hpath, Prod.mk.injEq] at h
  obtain ⟨rfl, hfits⟩ := h
  rw [read, fieldsIn_setPart]
  exact getAt?_attachAt_push (Prod.ext rfl hfits)

/-- Pushing at a key of a part makes the array there one element longer. -/
theorem attach_push_of_fits (hpath : Text.split '.' path = [part.name, key]) {b : Block}
    (h : ∀ node, b.read part [key] = some node → node.isFalsy = true ∨ Method.push.Accepts node) (value : Json) :
    b.attach path .push value =
      (b.setPart ((b.fieldsIn part).set key (.arr (b.elementsIn part [key] ++ [value]))) part, true) := by
  have hfits : (b.attach path .push value).2 = true :=
    (attach_fits_iff hpath b .push value).mpr ⟨openAbove_singleton _ key, h, trivial⟩
  rw [attach_eq_setPart hpath] at hfits ⊢
  rcases hattach : attachAt .push value key [] (b.fieldsIn part) with ⟨after, fits⟩
  rw [hattach] at hfits
  obtain rfl : fits = true := hfits
  rw [attachAt_push_nil hattach]
  rfl

/-- Inserted entries join those that are there. -/
theorem read_insert (hpath : Text.split '.' path = part.name :: key :: keys) {b after : Block} {new : Fields}
    (h : b.attach path .insert (.obj new) = (after, true)) :
    after.read part (key :: keys) = some (.obj ((b.entriesIn part (key :: keys)).setAll new)) := by
  obtain ⟨node, hjoin, hread⟩ := read_attach hpath h
  rw [hread, Method.eq_of_join_base_insert hjoin]
  rfl

/-- Attaching changes one part, and in it nothing but what is on the way to the
end of the path or below it. -/
theorem attach_frame (hpath : Text.split '.' path = part.name :: key :: keys) (b : Block) (method : Method)
    (value : Json) :
    let after := (b.attach path method value).1
    (∀ other, ¬ other <+: key :: keys → ¬ key :: keys <+: other → after.read part other = b.read part other) ∧
      (∀ other ≠ part, after.fieldsIn other = b.fieldsIn other) ∧ after.root = b.root ∧ after.index = b.index := by
  rw [attach_eq_setPart hpath]
  refine ⟨fun other habove hbelow => ?_, fun other hne => fieldsIn_setPart_of_ne b _ hne, ?_⟩
  · rw [read, read, fieldsIn_setPart]
    exact getAt?_attachAt_of_unrelated habove hbelow
  · cases part <;> exact ⟨rfl, rfl⟩

/-! ### Values one after the other -/

/-- Pushes values at one path, one after the other; none if one of them does not
fit. -/
def pushAll (path : String) : List Json → Block → Option Block
  | [], b => some b
  | value :: values, b =>
    match b.attach path .push value with
    | (after, true) => pushAll path values after
    | (_, false) => none

theorem elementsIn_of_read {b : Block} {xs : List Json} (h : b.read part keys = some (.arr xs)) :
    b.elementsIn part keys = xs := by
  rw [read] at h
  rw [elementsIn, Json.elementsAt, h]
  rfl

/-- Values that are pushed one after the other stand one after the other. -/
theorem elementsIn_pushAll (hpath : Text.split '.' path = part.name :: key :: keys) :
    ∀ {values : List Json} {b after : Block}, pushAll path values b = some after →
      after.elementsIn part (key :: keys) = b.elementsIn part (key :: keys) ++ values
  | [], b, after, h => by
    cases h
    rw [List.append_nil]
  | value :: values, b, after, h => by
    rw [pushAll] at h
    split at h
    · next first hfirst =>
      rw [elementsIn_pushAll hpath h, elementsIn_of_read (read_push hpath hfirst), List.append_assoc,
        List.singleton_append]
    · cases h

/-- **The law of attaching.** Let a path lead into a part of a block.

Pushing fits exactly if the values on the way count as absent or are objects, and
the one at the end is missing, counts as absent or is an array; then the end has
the elements of the array, if there was one, with the value behind them.
Inserting fits exactly if the values on the way are so, the one at the end is
missing, counts as absent or is an object, and the value is an object; then the
end has the new entries, and the old ones under all other keys.

However it ends, whatever is neither on the way to the end of the path nor below
it stays as it was, and so do the other part, the root and the index of the
block. Values that are pushed at the path one after the other stand there in
this order. -/
theorem attach_law (hpath : Text.split '.' path = part.name :: key :: keys) (b : Block) (value : Json) :
    ((b.attach path .push value).2 = true ↔ OpenAbove (b.fieldsIn part) (key :: keys) ∧
      ∀ node, b.read part (key :: keys) = some node → node.isFalsy = true ∨ ∃ xs, node = .arr xs) ∧
    (∀ after, b.attach path .push value = (after, true) →
      after.read part (key :: keys) = some (.arr (b.elementsIn part (key :: keys) ++ [value]))) ∧
    ((b.attach path .insert value).2 = true ↔ OpenAbove (b.fieldsIn part) (key :: keys) ∧
      (∀ node, b.read part (key :: keys) = some node → node.isFalsy = true ∨ ∃ fields, node = .obj fields) ∧
      ∃ new, value = .obj new) ∧
    (∀ new after, Distinct new → b.attach path .insert (.obj new) = (after, true) →
      ∃ entries : Fields, after.read part (key :: keys) = some (.obj entries) ∧
        ∀ k, entries.get? k = (new.get? k).or ((b.entriesIn part (key :: keys)).get? k)) ∧
    (∀ method, let after := (b.attach path method value).1
      (∀ other, ¬ other <+: key :: keys → ¬ key :: keys <+: other → after.read part other = b.read part other) ∧
        (∀ other ≠ part, after.fieldsIn other = b.fieldsIn other) ∧ after.root = b.root ∧
        after.index = b.index) ∧
    (∀ values after, pushAll path values b = some after →
      after.elementsIn part (key :: keys) = b.elementsIn part (key :: keys) ++ values) := by
  refine ⟨?_, fun after h => read_push hpath h, attach_fits_iff hpath b .insert value, fun new after hnew h => ?_,
    fun method => attach_frame hpath b method value, fun values after h => elementsIn_pushAll hpath h⟩
  · rw [attach_fits_iff hpath]
    simp only [Method.Accepts, Method.Takes, and_true]
  · exact ⟨_, read_insert hpath h, fun k => get?_setAll k _ hnew⟩

/-- A block whose parameters are not there yet. -/
def withoutParameters : Block := { own := [("parameter", .null), ("title", .str "A")] }

theorem attach_law_login :
    let path := "local.parameter.fields.Login"
    Text.split '.' path = Part.own.name :: "parameter" :: ["fields", "Login"] ∧
      ∃ after, pushAll path [.str "name", .str "password"] withoutParameters = some after ∧
        after.elementsIn .own ["parameter", "fields", "Login"] = [.str "name", .str "password"] := by
  intro path
  have hpath : Text.split '.' path = Part.own.name :: "parameter" :: ["fields", "Login"] := by decide
  have hfits : (pushAll path [.str "name", .str "password"] withoutParameters).isSome = true := by decide
  obtain ⟨after, hafter⟩ := Option.isSome_iff_exists.mp hfits
  obtain ⟨-, -, -, -, -, hpushed⟩ := attach_law hpath withoutParameters .null
  exact ⟨hpath, after, hafter, hpushed _ after hafter⟩

end Block
end Docblock
