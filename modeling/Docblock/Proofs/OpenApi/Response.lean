/-
# Responses by their status

The responses of an operation are documented in two lists, of success and of
errors. Each response goes to one of them with all its fields and in the order of
the document, and the group that the fields name is that of their list, whichever
shape the schema has (`group_of_mem_schemaFields`). So the lists are a split of
the document (`Splits`), by the number that a status key starts with.

That is not quite the class of the status (`DenotesError`). A range such as `4XX`
starts with a small number, a number can be too large to be read, and a number
with other text behind it is no status (`Misread`); the lists are split by class
if and only if no such key brings fields (`responses_split_by_status`).

Key definitions: `OpenApi.LeadingNumber`, `OpenApi.CountsAsError`,
`OpenApi.DenotesError`, `OpenApi.Misread`, `OpenApi.InGroup`, `OpenApi.Splits`.
Key theorems: `OpenApi.isErrorStatus_iff`, `OpenApi.denotesError_iff_countsAsError`,
`OpenApi.group_of_mem_schemaFields`, `OpenApi.splits_iff`,
`OpenApi.responses_split_by_status`.
-/
import Docblock.OpenApi.Endpoint
import Docblock.Proofs.Text.Line

namespace Docblock
namespace OpenApi

/-! ### The number in a status key -/

/-- A status key is a run of digits and what stands behind it. -/
structure LeadingNumber (status : String) (digits rest : List Char) : Prop where
  text : status.toList = digits ++ rest
  isDigit : ∀ c ∈ digits, c.isDigit = true
  ends : ∀ c ∈ rest.head?, c.isDigit = false

theorem exists_leadingNumber (status : String) : ∃ digits rest, LeadingNumber status digits rest := by
  obtain ⟨digits, rest, htext, hdigits, hends⟩ := Text.exists_span Char.isDigit status.toList
  exact ⟨digits, rest, htext, hdigits, hends⟩

theorem LeadingNumber.takeWhile {status : String} {digits rest : List Char} (h : LeadingNumber status digits rest) :
    status.toList.takeWhile Char.isDigit = digits := by
  have hrest : rest.takeWhile Char.isDigit = [] := by
    cases rest with
    | nil => rfl
    | cons c cs => simp [h.ends c rfl]
  rw [h.text, List.takeWhile_append_of_pos h.isDigit, hrest, List.append_nil]

theorem LeadingNumber.unique {status : String} {digits rest digits' rest' : List Char}
    (h : LeadingNumber status digits rest) (h' : LeadingNumber status digits' rest') :
    digits = digits' ∧ rest = rest' := by
  have hdigits : digits = digits' := h.takeWhile.symm.trans h'.takeWhile
  subst hdigits
  exact ⟨rfl, List.append_cancel_left (h.text.symm.trans h'.text)⟩

/-! ### The class of a status -/

/-- The keys for all errors of a client and for all errors of a server. -/
def errorRanges : List String := ["4XX", "5XX"]

/-- The status is an error: an integer of at least 400, or a range of these. -/
def DenotesError (status : String) : Prop :=
  (∃ digits, LeadingNumber status digits [] ∧ 400 ≤ Json.digitsValue digits) ∨ status ∈ errorRanges

/-- The status starts with a number of 32 bits that is at least 400. -/
def CountsAsError (status : String) : Prop :=
  ∃ digits rest, LeadingNumber status digits rest ∧ 400 ≤ Json.digitsValue digits ∧
    Json.digitsValue digits < Nat.pow 2 32

/-- The number that a key starts with says something else than the key. -/
inductive Misread (status : String) : Prop where
  | range : status ∈ errorRanges → Misread status
  | large (digits : List Char) : LeadingNumber status digits [] → Nat.pow 2 32 ≤ Json.digitsValue digits →
      Misread status
  | followed (digits : List Char) (c : Char) (rest : List Char) : LeadingNumber status digits (c :: rest) →
      400 ≤ Json.digitsValue digits → Json.digitsValue digits < Nat.pow 2 32 → Misread status

section Class

variable {status : String} {digits rest : List Char}

theorem countsAsError_iff (h : LeadingNumber status digits rest) :
    CountsAsError status ↔ 400 ≤ Json.digitsValue digits ∧ Json.digitsValue digits < Nat.pow 2 32 := by
  constructor
  · rintro ⟨digits', rest', h', hvalue⟩
    rwa [(h.unique h').1]
  · exact fun hvalue => ⟨digits, rest, h, hvalue⟩

theorem denotesError_iff (h : LeadingNumber status digits rest) :
    DenotesError status ↔ (rest = [] ∧ 400 ≤ Json.digitsValue digits) ∨ status ∈ errorRanges := by
  refine or_congr_left ⟨?_, ?_⟩
  · rintro ⟨digits', h', hvalue⟩
    obtain ⟨rfl, rfl⟩ := h.unique h'
    exact ⟨rfl, hvalue⟩
  · rintro ⟨rfl, hvalue⟩
    exact ⟨digits, h, hvalue⟩

theorem misread_iff (h : LeadingNumber status digits rest) :
    Misread status ↔ status ∈ errorRanges ∨ (rest = [] ∧ Nat.pow 2 32 ≤ Json.digitsValue digits) ∨
      (rest ≠ [] ∧ 400 ≤ Json.digitsValue digits ∧ Json.digitsValue digits < Nat.pow 2 32) := by
  constructor
  · rintro (hrange | ⟨digits', h', hlarge⟩ | ⟨digits', c, rest', h', hlow, hhigh⟩)
    · exact .inl hrange
    · obtain ⟨rfl, rfl⟩ := h.unique h'
      exact .inr (.inl ⟨rfl, hlarge⟩)
    · obtain ⟨rfl, rfl⟩ := h.unique h'
      exact .inr (.inr ⟨List.cons_ne_nil _ _, hlow, hhigh⟩)
  · rintro (hrange | ⟨rfl, hlarge⟩ | ⟨hne, hvalue⟩)
    · exact .range hrange
    · exact .large digits h hlarge
    · obtain ⟨c, cs, rfl⟩ := List.exists_cons_of_ne_nil hne
      exact .followed digits c cs h hvalue.1 hvalue.2

/-- A range starts with one digit. -/
theorem LeadingNumber.of_range (h : LeadingNumber status digits rest) (hrange : status ∈ errorRanges) :
    rest ≠ [] ∧ Json.digitsValue digits < 400 := by
  have hdigit : digits = status.toList.takeWhile Char.isDigit := h.takeWhile.symm
  rcases List.mem_pair.mp hrange with rfl | rfl
  all_goals
    refine ⟨fun hnil => ?_, by rw [hdigit]; decide⟩
    have hwhole := h.text
    rw [hnil, hdigit] at hwhole
    revert hwhole
    decide

end Class

/-- **A status is an error if it starts with such a number.** -/
theorem isErrorStatus_iff (status : String) : isErrorStatus status = true ↔ CountsAsError status := by
  obtain ⟨digits, rest, h⟩ := exists_leadingNumber status
  rw [countsAsError_iff h, isErrorStatus, h.takeWhile]
  cases digits with
  | nil => simp [Json.digitsValue]
  | cons c cs => simp [and_comm]

/-- **The number that a key starts with tells its class** for all keys but those
that are misread. -/
theorem denotesError_iff_countsAsError (status : String) :
    (DenotesError status ↔ CountsAsError status) ↔ ¬ Misread status := by
  obtain ⟨digits, rest, h⟩ := exists_leadingNumber status
  rw [denotesError_iff h, countsAsError_iff h, misread_iff h]
  have hbound : 400 ≤ Nat.pow 2 32 := by decide
  by_cases hrange : status ∈ errorRanges
  · have hsmall := (h.of_range hrange).2
    simp only [hrange, or_true, true_or, not_true, true_iff, iff_false]
    omega
  · simp only [hrange, or_false, false_or]
    by_cases hrest : rest = []
    · simp only [hrest, true_and, ne_eq, not_true, false_and, or_false]
      omega
    · simp only [hrest, false_and, ne_eq, not_false_eq_true, true_and, false_or, false_iff]

/-! ### The group of a field -/

/-- All fields name the group. -/
def InGroup (group : String) (fields : List Json) : Prop :=
  ∀ field ∈ fields, field.getStr? "group" = some group

/-- An entry that is always there is read back if it comes first. -/
theorem getStr?_ofPresent_head (key text : String) (entries : List (String × Option Json)) :
    (Json.ofPresent ((key, some (Json.str text)) :: entries)).getStr? key = some text := by
  simp [Json.ofPresent, Json.getStr?, Json.get?, Fields.get?, Json.str?]

theorem inGroup_objectFields (group : String) (components : Option Json) (schema : Json) (properties : Fields) :
    InGroup group (objectFields group components schema properties) := by
  intro field hfield
  obtain ⟨⟨name, property⟩, -, rfl⟩ := List.mem_map.mp hfield
  exact getStr?_ofPresent_head "group" group _

theorem inGroup_arrayFields (group : String) (components : Option Json) (schema items : Json) :
    InGroup group (arrayFields group components schema items) := by
  intro field hfield
  rw [arrayFields] at hfield
  split at hfield
  · obtain ⟨⟨name, property⟩, -, rfl⟩ := List.mem_map.mp hfield
    exact getStr?_ofPresent_head "group" group _
  · rw [List.mem_singleton.mp hfield]
    rfl

/-- **The fields of a schema name the group of the status**, for an object, an
array, and any other schema. -/
theorem group_of_mem_schemaFields (components : Option Json) (contentType : String) (status : Option String)
    (schema : Json) : InGroup (statusGroup status) (schemaFields components contentType status schema) := by
  rw [schemaFields]
  split
  · exact inGroup_objectFields _ components _ _
  · exact inGroup_arrayFields _ components _ _
  · intro field hfield
    rw [List.mem_singleton.mp hfield]
    rfl

theorem inGroup_contentFields (components : Option Json) (status : Option String) (v : Json) :
    InGroup (statusGroup status) (contentFields components status v) := by
  rw [contentFields]
  split
  · exact fun field hfield => absurd hfield List.not_mem_nil
  · split
    · exact group_of_mem_schemaFields components _ status _
    · exact fun field hfield => absurd hfield List.not_mem_nil

theorem inGroup_oneResponse (components : Option Json) (status : String) (response : Json) :
    InGroup (statusGroup (some status)) (oneResponse components status response) := by
  rw [oneResponse]
  split
  · exact inGroup_contentFields components (some status) response
  · intro field hfield
    rw [List.mem_singleton.mp hfield]
    rfl

/-- Fields are in one group only. -/
theorem inGroup_oneResponse_iff (group : String) (components : Option Json) (status : String) (response : Json) :
    InGroup group (oneResponse components status response) ↔
      oneResponse components status response = [] ∨ group = statusGroup (some status) := by
  have hgroup := inGroup_oneResponse components status response
  constructor
  · intro h
    cases hfields : oneResponse components status response with
    | nil => exact .inl rfl
    | cons field fields =>
      have hmem : field ∈ oneResponse components status response := by simp [hfields]
      exact .inr (Option.some.inj ((h field hmem).symm.trans (hgroup field hmem)))
  · rintro (hnil | rfl)
    · rw [hnil]
      exact fun field hfield => absurd hfield List.not_mem_nil
    · exact hgroup

theorem statusGroup_of_countsAsError {status : String} (h : CountsAsError status) :
    statusGroup (some status) = "Error" := by
  simp [statusGroup, (isErrorStatus_iff status).mpr h]

theorem statusGroup_of_not_countsAsError {status : String} (h : ¬ CountsAsError status) :
    statusGroup (some status) = "Success" := by
  simp [statusGroup, mt (isErrorStatus_iff status).mp h]

/-- **A response without content is one field**, and its name is the status. -/
theorem oneResponse_of_no_content {response : Json} (h : (response.get? "content").bind Json.obj? = none)
    (components : Option Json) (status : String) :
    ∃ field, oneResponse components status response = [field] ∧ field.getStr? "field" = some status := by
  rw [oneResponse, h]
  exact ⟨_, rfl, rfl⟩

/-! ### The two lists -/

/-- The responses of a document with a list of success and one of errors: all the
fields of a response are in one of the lists, in order, and name its group. -/
inductive Splits (IsError : String → Prop) (components : Option Json) :
    Fields → List Json → List Json → Prop where
  | nil : Splits IsError components [] [] []
  | error {status : String} {response : Json} {responses : Fields} {success errors : List Json} :
      IsError status → InGroup "Error" (oneResponse components status response) →
      Splits IsError components responses success errors →
      Splits IsError components ((status, response) :: responses) success
        (oneResponse components status response ++ errors)
  | success {status : String} {response : Json} {responses : Fields} {success errors : List Json} :
      ¬ IsError status → InGroup "Success" (oneResponse components status response) →
      Splits IsError components responses success errors →
      Splits IsError components ((status, response) :: responses)
        (oneResponse components status response ++ success) errors

section Lists

variable {IsError : String → Prop} {components : Option Json} {status : String} {response : Json}
  {responses : Fields} {success errors : List Json}

theorem Splits.cons_iff :
    Splits IsError components ((status, response) :: responses) success errors ↔
      (IsError status ∧ InGroup "Error" (oneResponse components status response) ∧
        ∃ more, errors = oneResponse components status response ++ more ∧
          Splits IsError components responses success more) ∨
      (¬ IsError status ∧ InGroup "Success" (oneResponse components status response) ∧
        ∃ more, success = oneResponse components status response ++ more ∧
          Splits IsError components responses more errors) := by
  constructor
  · intro h
    cases h with
    | error herror hgroup hmore => exact .inl ⟨herror, hgroup, _, rfl, hmore⟩
    | success herror hgroup hmore => exact .inr ⟨herror, hgroup, _, rfl, hmore⟩
  · rintro (⟨herror, hgroup, more, rfl, hmore⟩ | ⟨herror, hgroup, more, rfl, hmore⟩)
    · exact .error herror hgroup hmore
    · exact .success herror hgroup hmore

theorem responseFields_of_countsAsError (h : CountsAsError status) :
    responseFields components ((status, response) :: responses) =
      ((responseFields components responses).1,
        oneResponse components status response ++ (responseFields components responses).2) := by
  simp [responseFields, responsesWhere, (isErrorStatus_iff status).mpr h]

theorem responseFields_of_not_countsAsError (h : ¬ CountsAsError status) :
    responseFields components ((status, response) :: responses) =
      (oneResponse components status response ++ (responseFields components responses).1,
        (responseFields components responses).2) := by
  simp [responseFields, responsesWhere, mt (isErrorStatus_iff status).mp h]

/-- Fields that name the other group are in a list only if there are none. -/
theorem misplaced_iff {group group' : String} (hne : group ≠ group') (fields here there : List Json)
    (P : List Json → List Json → Prop) :
    ((fields = [] ∨ group = group') ∧ ∃ more, there = fields ++ more ∧ P more (fields ++ here)) ↔
      fields = [] ∧ P there here := by
  constructor
  · rintro ⟨hnil | heq, more, hmore, hsplits⟩
    · rw [hnil, List.nil_append] at hmore hsplits
      exact ⟨hnil, hmore ▸ hsplits⟩
    · exact absurd heq hne
  · rintro ⟨hnil, hsplits⟩
    exact ⟨.inl hnil, there, by rw [hnil, List.nil_append], by rwa [hnil]⟩

/-- **The lists are a split by a class of keys if and only if each response that
brings fields is in this class when its number counts as an error.** -/
theorem splits_iff (IsError : String → Prop) (components : Option Json) (responses : Fields) :
    Splits IsError components responses (responseFields components responses).1
        (responseFields components responses).2 ↔
      ∀ entry ∈ responses, oneResponse components entry.1 entry.2 = [] ∨
        (IsError entry.1 ↔ CountsAsError entry.1) := by
  induction responses with
  | nil => exact iff_of_true .nil fun entry hentry => absurd hentry List.not_mem_nil
  | cons entry responses ih =>
    obtain ⟨status, response⟩ := entry
    rw [List.forall_mem_cons, ← ih, Splits.cons_iff, inGroup_oneResponse_iff, inGroup_oneResponse_iff]
    by_cases hcounts : CountsAsError status
    · rw [responseFields_of_countsAsError hcounts, statusGroup_of_countsAsError hcounts]
      by_cases herror : IsError status
      · simp [herror, hcounts]
      · -- a response in the wrong class may only be one without fields
        simp only [herror, hcounts, false_and, false_or, not_false_eq_true, true_and, false_iff, not_true, or_false]
        exact misplaced_iff (by decide) _ _ _ (Splits IsError components responses)
    · rw [responseFields_of_not_countsAsError hcounts, statusGroup_of_not_countsAsError hcounts]
      by_cases herror : IsError status
      · simp only [herror, hcounts, true_and, not_true, false_and, or_false, iff_false]
        exact misplaced_iff (by decide) _ _ _ fun more rest => Splits IsError components responses rest more
      · simp [herror, hcounts]

end Lists

/-- **Responses are split by the number that their status starts with**, whatever
the document. They are split by the class of the status, integers from 400 on and
the ranges being errors, if and only if no misread key brings fields. -/
theorem responses_split_by_status (components : Option Json) (responses : Fields) :
    let lists := responseFields components responses
    Splits CountsAsError components responses lists.1 lists.2 ∧
      (Splits DenotesError components responses lists.1 lists.2 ↔
        ∀ entry ∈ responses, oneResponse components entry.1 entry.2 = [] ∨ ¬ Misread entry.1) ∧
      ∀ entry ∈ responses, (entry.2.get? "content").bind Json.obj? = none →
        ∃ field, oneResponse components entry.1 entry.2 = [field] ∧ field.getStr? "field" = some entry.1 := by
  refine ⟨?_, ?_, fun entry _ hnone => oneResponse_of_no_content hnone components entry.1⟩
  · exact (splits_iff CountsAsError components responses).mpr fun entry _ => .inr Iff.rfl
  · rw [splits_iff]
    simp only [denotesError_iff_countsAsError]

/-- Numbers and other keys are split by their class, and so is a range without
fields. -/
theorem responses_split_by_status_three :
    let content := Json.obj [("content", .obj [("text/plain", .obj [("schema", .obj [])])])]
    let responses : Fields := [("404", .obj []), ("default", content), ("5XX", .obj [("content", .obj [])])]
    let lists := responseFields none responses
    (∀ entry ∈ responses, oneResponse none entry.1 entry.2 = [] ∨ ¬ Misread entry.1) ∧
      Splits DenotesError none responses lists.1 lists.2 ∧
      (Json.get? "content" (.obj [])).bind Json.obj? = none ∧
      ∃ field, oneResponse none "404" (.obj []) = [field] ∧ field.getStr? "field" = some "404" := by
  intro content responses lists
  have hnumber : LeadingNumber "404" ['4', '0', '4'] [] := ⟨rfl, by decide, by decide⟩
  have hword : LeadingNumber "default" [] "default".toList := ⟨rfl, by decide, by decide⟩
  have hread : ∀ entry ∈ responses, oneResponse none entry.1 entry.2 = [] ∨ ¬ Misread entry.1 := by
    refine List.forall_mem_cons.mpr ⟨.inr ?_, List.forall_mem_cons.mpr ⟨.inr ?_, ?_⟩⟩
    · rw [misread_iff hnumber]
      decide
    · rw [misread_iff hword]
      decide
    · exact List.forall_mem_singleton.mpr (.inl rfl)
  exact ⟨hread, (responses_split_by_status none responses).2.1.mpr hread, rfl,
    (responses_split_by_status none responses).2.2 ("404", .obj []) List.mem_cons_self rfl⟩

/-- The range of a client's errors is documented as a success. -/
theorem range_documented_as_success :
    let responses : Fields := [("4XX", .obj [("description", .str "bad")])]
    let lists := responseFields none responses
    DenotesError "4XX" ∧ lists.2 = [] ∧ lists.1.map (Json.getStr? "group") = [some "Success"] ∧
      ¬ Splits DenotesError none responses lists.1 lists.2 := by
  have herror : DenotesError "4XX" := .inr (by decide)
  have hcounts : ¬ CountsAsError "4XX" := by
    have hnumber : LeadingNumber "4XX" ['4'] ['X', 'X'] := ⟨rfl, by decide, by decide⟩
    rw [countsAsError_iff hnumber]
    decide
  refine ⟨herror, rfl, rfl, fun hsplits => ?_⟩
  obtain hnil | hiff := (splits_iff DenotesError none _).mp hsplits _ List.mem_cons_self
  · exact absurd hnil (List.cons_ne_nil _ _)
  · exact hcounts (hiff.mp herror)

end OpenApi
end Docblock
