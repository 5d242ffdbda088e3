/-
# Parameters with a plain type

A parameter that is written as `{type} [field] text`, with nothing but a name
in the braces, is read with its type and its field, whatever the text behind
it is (`readParameter_typed`). It takes its parent from the memory. A field
with an object type becomes a parent itself (`hasParent_of_object`), and no
later parameter takes that away (`HasParent.readParameters`): it may be
replaced, but only by another parent of the same name.

Key definitions: `Tag.Reads`, `Tag.HasParent`, `Tag.readParameters`.
Key theorems: `Tag.exists_match_typed`, `Tag.readParameter_typed`,
`Tag.HasParent.readParameters`, `Tag.path_parentNode?`.
-/
import Docblock.Proofs.Json.Fields
import Docblock.Proofs.Tag.Braced

namespace Docblock
namespace Tag

open Pattern Text

/-! ### The match -/

/-- **A plain type and the field behind it are found,** whatever comes behind
them. -/
theorem exists_match_typed {kind name tail : List Char} {optional : Bool} (hne : kind ≠ [])
    (hkind : ∀ c ∈ kind, isTypeChar c = true) (h : IsFieldLine name tail) {s : String}
    (hs : s.toList = bracedLine kind optional name tail) :
    ∃ m, parameterPattern.find? s = some m ∧ captured m.captures 2 = some (String.ofList kind) ∧
      captured m.captures 6 = some (String.ofList name) ∧
      ∃ more, captured m.captures 5 = some (String.ofList (opener optional ++ (name ++ more))) := by
  let plain : TypeForm := ⟨kind, none, none⟩
  have hplain : plain.IsWritten := ⟨hne, hkind, by simp [plain], by simp [plain]⟩
  let line := opener optional ++ (name ++ (closer optional ++ tail))
  have htype : ∀ n < 5, captured (plain.captures ([' '] ++ line) ++ []) n =
      if n = 2 then some (String.ofList kind) else none := by
    intro n hn
    have hcaptures : plain.captures ([' '] ++ line) ++ [] =
        [(2, ⟨kind ++ plain.afterName ([' '] ++ line), plain.afterName ([' '] ++ line)⟩)] := rfl
    rw [hcaptures, captured_cons, text_span]
    simp [captured, eq_comm]
  have hfield : Accepts (run parameterFieldPart (run (restPart 10) (run .textEnd fun there caps =>
      some (Match.mk ⟨[], bracedLine kind optional name tail⟩ there caps)))) line
      (plain.captures ([' '] ++ line) ++ []) fun m => captured m.captures 2 = some (String.ofList kind) ∧
        captured m.captures 6 = some (String.ofList name) ∧
        ∃ more, captured m.captures 5 = some (String.ofList (opener optional ++ (name ++ more))) := by
    refine accepts_anyField h.name_ne_nil h.name_chars h.head?_behind h.newline_not_mem fun m hkept hname hwhole => ?_
    refine ⟨?_, hname, hwhole⟩
    rw [hkept 2 (by decide), htype 2 (by decide), if_pos rfl]
  have hbraces := accepts_type hplain (by simp [isBlank]) h.head?_field hfield
  have hbrace : ∀ c ∈ (bracedLine kind optional name tail).head?, isBlank c = false ∧ c ≠ '(' := by
    rintro c ⟨⟩
    decide
  obtain ⟨m, hm, hheld⟩ :=
    accepts_groupPart_absent 1 hbrace (accepts_chars_nil (fun c hc => (hbrace c hc).1) hbraces) []
  have hmatch : matchAt? parameterPattern ⟨[], bracedLine kind optional name tail⟩ = some m := run_alt_left hm
  exact ⟨m, by rw [find?, hs, search_of_matchAt? hmatch], hheld⟩

/-! ### The value -/

/-- What a value says of the type and of the field, if it was read with these
parents. -/
structure Reads (kind name : String) (isOptional : Bool) (parents : Fields) (v : Json) : Prop where
  type : v.getStr? "type" = some kind
  field : v.getStr? "field" = some name
  optional : v.get? "optional" = some (.bool isOptional)
  parentNode : v.get? "parentNode" = parentNode? parents name

/-- The entry of a field with an object type in the table of parents. -/
def parentEntry (parents : Fields) (kind field : String) : Json :=
  Json.ofPresent [("parentNode", parentNode? parents field), ("field", Json.str field), ("type", Json.str kind),
    ("isArray", Json.bool (contains kind "[]"))]

/-- **A parameter with a plain type is read as it is written.** -/
theorem readParameter_typed {kind name : String} (hkind : kind ≠ "") (hchars : ∀ c ∈ kind.toList, isTypeChar c = true)
    (hname : name ≠ "") (hfield : ∀ c ∈ name.toList, isFieldChar c = true) (optional : Bool)
    (description defaultGroup : String) (memory : Memory) :
    (∃ v, (readParameter defaultGroup (bracedText kind optional name description) memory).1 = some v ∧
      Reads kind name optional memory.parents v) ∧
      (contains kind "Object" = true →
        (readParameter defaultGroup (bracedText kind optional name description) memory).2.parents =
          memory.parents.set name (parentEntry memory.parents kind name)) := by
  obtain ⟨tail, hflat, hline, -⟩ := exists_line_of_bracedText hname hfield kind optional description
  have hkindMark : lineMark ∉ kind.toList := fun h => absurd (hchars _ h) (by decide)
  have hnameMark : lineMark ∉ name.toList := fun h => absurd (hfield _ h) (by decide)
  have hflatKind : flat kind = kind.toList := flat_of_not_mem fun h => absurd (hchars _ h) (by decide)
  rw [← toList_flatten, ← oneLine] at hflat
  obtain ⟨m, hm, htype, hheld, more, hwhole⟩ := exists_match_typed (mt flat_eq_nil.mp hkind)
    (by rw [hflatKind]; exact hchars) hline hflat
  have hkind' : restored m 2 = some kind := by
    rw [restored, group?_eq_captured, htype, Option.map_some, unflatten_flat hkindMark]
  have hfield' : restored m 6 = some name := by
    rw [restored, group?_eq_captured, hheld, Option.map_some, unflatten_flat hnameMark]
  have hoptional : (restored m 5).any (fun t => startsWith t "[") = optional := by
    rw [restored, group?_eq_captured, hwhole, Option.map_some, Option.any_some,
      startsWith_opener hline.name_ne_nil hline.name_chars]
  rw [readParameter, hm]
  dsimp only
  rw [hkind', hfield', hoptional]
  refine ⟨⟨_, rfl, ?_, ?_, ?_, ?_⟩, fun hobject => ?_⟩
  · simp [Json.getStr?, get?_ofPresent_cons, Json.str?]
  · simp [Json.getStr?, get?_ofPresent_cons, Json.str?]
  · simp [get?_ofPresent_cons]
  · have hnone : (Json.ofPresent []).get? "parentNode" = none := rfl
    simp [get?_ofPresent_cons, hnone]
  · simp only [hobject, ↓reduceIte]
    rfl

/-! ### The table of parents -/

/-- A field is in the table of parents, and its entry does not say where. -/
def HasParent (memory : Memory) (path : String) : Prop :=
  ∃ entry, Fields.get? path memory.parents = some (.obj entry) ∧ "path" ∉ Fields.keys entry

theorem exists_parentEntry (parents : Fields) (kind field : String) :
    ∃ entry, parentEntry parents kind field = .obj entry ∧ "path" ∉ Fields.keys entry := by
  refine ⟨_, rfl, ?_⟩
  rw [← Fields.get?_eq_none_iff]
  have hnone : (parentEntry parents kind field).get? "path" = none := by
    have hend : (Json.ofPresent []).get? "path" = none := rfl
    simp [parentEntry, get?_ofPresent_cons, hend]
  exact hnone

/-- Reading a parameter adds to the table of parents or leaves it. -/
theorem parents_readParameter (defaultGroup content : String) (memory : Memory) :
    (readParameter defaultGroup content memory).2.parents = memory.parents ∨
      ∃ kind field, (readParameter defaultGroup content memory).2.parents =
        memory.parents.set field (parentEntry memory.parents kind field) := by
  unfold readParameter
  cases parameterPattern.find? (oneLine content) with
  | none => exact .inl rfl
  | some m =>
    dsimp only
    cases restored m 2 with
    | none => exact .inl rfl
    | some kind =>
      cases restored m 6 with
      | none => exact .inl rfl
      | some field =>
        by_cases hobject : contains kind "Object" = true
        · simp only [hobject, ↓reduceIte]
          exact .inr ⟨kind, field, rfl⟩
        · simp only [hobject]
          exact .inl rfl

theorem hasParent_set {memory : Memory} {parents : Fields} (kind field : String)
    (hset : memory.parents = parents.set field (parentEntry parents kind field)) : HasParent memory field := by
  obtain ⟨entry, hentry, hpath⟩ := exists_parentEntry parents kind field
  exact ⟨entry, by rw [hset, Fields.get?_set_self, hentry], hpath⟩

/-- The step: a parent stays, or gives its place to another one. -/
theorem HasParent.readParameter {memory : Memory} {path : String} (h : HasParent memory path)
    (defaultGroup content : String) : HasParent (readParameter defaultGroup content memory).2 path := by
  rcases parents_readParameter defaultGroup content memory with hsame | ⟨kind, field, hset⟩
  · unfold HasParent
    rw [hsame]
    exact h
  · by_cases hfield : path = field
    · rw [hfield]
      exact hasParent_set kind field hset
    · unfold HasParent
      rw [hset, Fields.get?_set_of_ne _ hfield]
      exact h

/-! ### Parameters one after the other -/

/-- Reads the texts of parameters in order, each with the memory that those
before it left. -/
def readParameters (defaultGroup : String) : List String → Memory → List (Option Json) × Memory
  | [], memory => ([], memory)
  | content :: contents, memory =>
    let first := readParameter defaultGroup content memory
    let others := readParameters defaultGroup contents first.2
    (first.1 :: others.1, others.2)

theorem readParameters_append (defaultGroup : String) (contents more : List String) (memory : Memory) :
    readParameters defaultGroup (contents ++ more) memory =
      ((readParameters defaultGroup contents memory).1 ++
          (readParameters defaultGroup more (readParameters defaultGroup contents memory).2).1,
        (readParameters defaultGroup more (readParameters defaultGroup contents memory).2).2) := by
  induction contents generalizing memory with
  | nil => rfl
  | cons content contents ih =>
    rw [List.cons_append, readParameters, ih]
    rfl

/-- The run: a parent stays one. -/
theorem HasParent.readParameters {path : String} (defaultGroup : String) (contents : List String) {memory : Memory}
    (h : HasParent memory path) : HasParent (readParameters defaultGroup contents memory).2 path := by
  induction contents generalizing memory with
  | nil => exact h
  | cons content contents ih => exact ih (h.readParameter defaultGroup content)

/-! ### The nearest parent -/

theorem dottedPrefixes_of_not_mem {field : String} (h : '.' ∉ field.toList) : dottedPrefixes field = [] := by
  have hnone : (List.range field.toList.length).reverse.filter (fun i => field.toList[i]? == some '.') = [] := by
    rw [List.filter_eq_nil_iff]
    intro i _ hi
    exact h (List.mem_of_getElem? (by simpa using hi))
  rw [dottedPrefixes, hnone, List.map_nil]

/-- The longest part before a dot is all but the last name. -/
theorem exists_dottedPrefixes (above : String) {key : String} (hkey : '.' ∉ key.toList) :
    ∃ shorter, dottedPrefixes (above ++ "." ++ key) = above :: shorter := by
  have hchars : (above ++ "." ++ key).toList = above.toList ++ '.' :: key.toList := by simp
  have hrange : (List.range (above.toList ++ '.' :: key.toList).length).reverse =
      ((List.range key.toList.length).map (above.toList.length + 1 + ·)).reverse ++
        above.toList.length :: (List.range above.toList.length).reverse := by
    rw [List.length_append, List.length_cons, Nat.add_comm key.toList.length 1, ← Nat.add_assoc, List.range_add,
      List.reverse_append, List.range_succ, List.reverse_append]
    rfl
  -- no place behind the dot has one
  have hnone : ((List.range key.toList.length).map (above.toList.length + 1 + ·)).reverse.filter
      (fun i => (above.toList ++ '.' :: key.toList)[i]? == some '.') = [] := by
    rw [List.filter_eq_nil_iff]
    intro i hi hdot
    obtain ⟨j, -, rfl⟩ := List.mem_map.mp (List.mem_reverse.mp hi)
    have hplace : (above.toList ++ '.' :: key.toList)[above.toList.length + 1 + j]? = key.toList[j]? := by
      rw [List.getElem?_append_right (by omega)]
      have hsub : above.toList.length + 1 + j - above.toList.length = j + 1 := by omega
      rw [hsub, List.getElem?_cons_succ]
    rw [hplace] at hdot
    exact hkey (List.mem_of_getElem? (by simpa using hdot))
  have hdot : ((fun i => (above.toList ++ '.' :: key.toList)[i]? == some '.') above.toList.length) = true := by simp
  rw [dottedPrefixes, hchars, hrange, List.filter_append, hnone, List.nil_append, List.filter_cons, if_pos hdot,
    List.map_cons, List.take_left, String.ofList_toList]
  exact ⟨_, rfl⟩

/-- The path of the parent that a value names. -/
def parentPath? (node : Option Json) : Option String := node.bind (Json.getStr? "path")

/-- A field without dots has no parent. -/
theorem parentNode?_of_not_mem (parents : Fields) {field : String} (h : '.' ∉ field.toList) :
    parentNode? parents field = none := by
  rw [parentNode?, dottedPrefixes_of_not_mem h, List.findSome?_nil]

/-- **The field above is the parent,** if it is in the table. -/
theorem parentPath?_parentNode? {memory : Memory} {above key : String} (h : HasParent memory above)
    (hkey : '.' ∉ key.toList) : parentPath? (parentNode? memory.parents (above ++ "." ++ key)) = some above := by
  obtain ⟨shorter, hprefixes⟩ := exists_dottedPrefixes above hkey
  obtain ⟨entry, hentry, hpath⟩ := h
  rw [parentNode?, hprefixes, List.findSome?_cons, hentry]
  have hget : Fields.get? "path" (Fields.setAll [("path", Json.str above)] entry) = some (.str above) := by
    rw [Fields.get?_setAll_of_not_mem hpath]
    rfl
  simp [parentPath?, Json.getStr?, Json.get?, hget, Json.str?]

end Tag
end Docblock
