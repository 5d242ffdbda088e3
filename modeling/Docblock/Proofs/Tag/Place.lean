/-
# Where the values of the tags go

Each tag that comes with the program puts its values in one of five places
(`Place`): among the data of the endpoint itself, below a key that is no
section, as a list in place of a section, beside the fields of a section as an
example, or as a field under its group. Only the definition of shared data goes
elsewhere (`place_of_mem_builtinTags`).

Key definitions: `Tag.Apart`, `Tag.Place`.
Key theorems: `Tag.place_of_mem_builtinTags`.
-/
import Docblock.Proofs.Resolve.Title
import Docblock.Proofs.Source.Section

namespace Docblock
namespace Tag

open Fields Resolve

/-! ### Values without sections -/

/-- The value is an object that has no section. -/
def Apart (v : Json) : Prop := ∃ new : Fields, v = .obj new ∧ ∀ key ∈ keys new, key ∉ titleTargets

theorem apart_obj {new : Fields} (h : ∀ key ∈ keys new, key ∉ titleTargets) : Apart (.obj new) := ⟨new, rfl, h⟩

theorem apart_ofPresent {entries : List (String × Option Json)}
    (h : ∀ key ∈ entries.map Prod.fst, key ∉ titleTargets) : Apart (Json.ofPresent entries) := by
  refine ⟨_, rfl, fun key hkey => h key ?_⟩
  obtain ⟨entry, hentry, rfl⟩ := List.mem_map.mp hkey
  obtain ⟨present, hpresent, hvalue⟩ := List.mem_filterMap.mp hentry
  obtain ⟨v, -, rfl⟩ := Option.map_eq_some_iff.mp hvalue
  exact List.mem_map_of_mem hpresent

theorem apart_of_map {α : Type} {o : Option α} {f : α → Json} {v : Json} (h : ∀ a, Apart (f a))
    (hv : o.map f = some v) : Apart v := by
  obtain ⟨a, -, rfl⟩ := Option.map_eq_some_iff.mp hv
  exact h a

theorem apart_keyed {key : String} (hkey : key ∉ titleTargets) (v : Json) : Apart (.obj [(key, v)]) :=
  apart_obj (by simpa [keys] using hkey)

/-- The reader gives no sections. -/
def Reader.IsApart (read : Reader) : Prop :=
  ∀ content source memory value, (read content source memory).result = .ok (some value) → Apart value

/-! ### Places -/

/-- Whether a path leads to a key of the endpoint that is no section. -/
def isBeside (path : String) : Bool :=
  match Text.split '.' path with
  | first :: key :: _ => first == "local" && !titleTargets.contains key
  | _ => false

theorem exists_of_isBeside {path : String} (h : isBeside path = true) :
    ∃ key more, Text.split '.' path = "local" :: key :: more ∧ key ∉ titleTargets := by
  unfold isBeside at h
  split at h
  · next first key more hsplit =>
    simp only [Bool.and_eq_true, beq_iff_eq, Bool.not_eq_true', List.contains_eq_mem,
      decide_eq_false_iff_not] at h
    exact ⟨key, more, h.1 ▸ hsplit, h.2⟩
  · cases h

/-- Where the values of a tag go. -/
inductive Place (name : String) (tag : Tag) : Prop where
  /-- The entries join the data of the endpoint. -/
  | whole (path : tag.path = fixed "local")
      (apart : name ≠ "openapi" → tag.method = .insert → tag.read.IsApart)
  /-- They go below a key that is no section. -/
  | beside (path : ∀ {memory path}, tag.path memory = some path → isBeside path = true)
  /-- They are listed in place of a section. -/
  | listed (key : String) (method : tag.method = .push)
      (path : ∀ {memory path}, tag.path memory = some path → Text.split '.' path = ["local", key])
  /-- They are examples of a section. -/
  | examples (key : String) (method : tag.method = .push)
      (path : ∀ {memory path}, tag.path memory = some path → Text.split '.' path = ["local", key, "examples"])
  /-- They are fields of a section, under their group. -/
  | grouped (key : String) (hkey : key ∈ titleTargets) (method : tag.method = .push)
      (markdown : ∀ field ∈ tag.markdownFields, field ∈ ["description", "type"])
      (path : ∀ {content source memory value}, (tag.read content source memory).result = .ok (some value) →
        ∃ group, value.getStr? "group" = some group ∧ tag.path (tag.read content source memory).memory =
          some ("local." ++ key ++ ".fields." ++ group))

namespace Place

variable {name : String} {tag : Tag}

theorem ofContent {f : String → Option Json} (hread : tag.read = .ofContent f) (hpath : tag.path = fixed "local")
    (h : ∀ content v, f content = some v → Apart v) : Place name tag := by
  refine .whole hpath fun _ _ content source memory value hvalue => h content value ?_
  rw [hread] at hvalue
  exact Except.ok.inj hvalue

theorem checked {f : String → Except Fault (Option Json)} (hread : tag.read = .checked f)
    (hpath : tag.path = fixed "local") (h : ∀ content v, f content = .ok (some v) → Apart v) : Place name tag := by
  refine .whole hpath fun _ _ content source memory value hvalue => h content value ?_
  rw [hread] at hvalue
  exact hvalue

theorem keyed {key : String} (hread : tag.read = .keyed key) (hpath : tag.path = fixed "local")
    (hkey : key ∉ titleTargets) : Place name tag :=
  ofContent hread hpath fun _ _ => apart_of_map fun _ => apart_keyed hkey _

theorem underscoredAs {key : String} (hread : tag.read = .underscoredAs key) (hpath : tag.path = fixed "local")
    (hkey : key ∉ titleTargets) : Place name tag :=
  ofContent hread hpath fun _ _ => apart_of_map fun _ => apart_keyed hkey _

theorem fixedBeside {path : String} (hpath : tag.path = fixed path) (h : isBeside path = true) : Place name tag := by
  refine .beside fun {memory other} hother => ?_
  rw [hpath] at hother
  cases hother
  exact h

theorem belowKey (key part : String) {above : String} {rest : Memory → String}
    (hpath : ∀ memory, tag.path memory = some (above ++ rest memory))
    (habove : above = "local." ++ key ++ "." ++ part) (hpoint : '.' ∉ key.toList) (hkey : key ∉ titleTargets) :
    Place name tag := by
  refine .beside fun {memory other} hother => ?_
  rw [hpath, habove, String.append_assoc] at hother
  cases hother
  rw [isBeside, Block.split_local _ hpoint]
  simpa using hkey

end Place

/-! ### The tags that come with the program -/

theorem place_endpointTags : ∀ entry ∈ endpointTags, entry.1 ≠ "apiDefine" → Place entry.1 entry.2 := by
  simp only [endpointTags, List.forall_mem_cons, List.not_mem_nil, false_imp_iff, implies_true, and_true]
  refine ⟨fun _ => .ofContent rfl rfl fun _ _ => apart_of_map fun _ => apart_ofPresent (by simp [titleTargets]),
    fun h => absurd rfl h, fun _ => .fixedBeside rfl (by decide),
    fun _ => .checked rfl rfl fun content v h => ?version,
    fun _ => .underscoredAs rfl rfl (by decide), fun _ => .underscoredAs rfl rfl (by decide),
    fun _ => .ofContent rfl rfl fun _ _ => apart_of_map fun _ => apart_keyed (by decide) _,
    fun _ => .ofContent rfl rfl fun _ _ h => ?hidden, fun _ => .ofContent rfl rfl fun content v h => ?deprecation,
    fun _ => .fixedBeside rfl (by decide), fun _ => .fixedBeside rfl (by decide),
    fun _ => .fixedBeside rfl (by decide), fun _ => .fixedBeside rfl (by decide),
    fun _ => .fixedBeside rfl (by decide), fun _ => .fixedBeside rfl (by decide),
    fun _ => .checked rfl rfl fun content v h => ?language⟩
  case version =>
    unfold readVersion at h
    split at h
    · cases h
    · split at h
      · cases h
        exact apart_keyed (by decide) _
      · cases h
  case hidden =>
    cases h
    exact apart_keyed (by decide) _
  case deprecation =>
    unfold readDeprecation at h
    split at h <;> cases h <;> exact apart_keyed (by decide) _
  case language =>
    unfold readLanguage at h
    dsimp only at h
    split_ifs at h <;> cases h
    exact apart_keyed (by decide) _

/-- The tag of a field of a section puts it under its group. -/
theorem place_fieldSection (name : String) (sec : FieldSection) : Place name sec.tag := by
  refine .grouped sec.key (by cases sec <;> decide) rfl (by cases sec <;> decide)
    fun {content source memory value} hvalue => ?_
  rw [sec.read_tag] at hvalue ⊢
  dsimp only at hvalue ⊢
  exact ⟨_, getStr?_group_readParameter (Except.ok.inj hvalue), sec.path_tag _⟩

theorem place_parameterTags : ∀ entry ∈ parameterTags, Place entry.1 entry.2 := by
  simp only [parameterTags, List.forall_mem_cons, List.not_mem_nil, false_imp_iff, implies_true, and_true]
  refine ⟨place_fieldSection _ .parameter, place_fieldSection _ .success, place_fieldSection _ .error,
    place_fieldSection _ .header, .listed "body" rfl fun h => ?_, .listed "query" rfl fun h => ?_⟩
  · cases h
    decide
  · cases h
    decide

theorem place_exampleTags : ∀ entry ∈ exampleTags, Place entry.1 entry.2 := by
  simp only [exampleTags, List.forall_mem_cons, List.not_mem_nil, false_imp_iff, implies_true, and_true]
  refine ⟨.fixedBeside rfl (by decide), .examples "parameter" rfl fun h => ?_, .examples "success" rfl fun h => ?_,
    .examples "error" rfl fun h => ?_, .examples "header" rfl fun h => ?_, .fixedBeside rfl (by decide)⟩
  all_goals
    cases h
    decide

theorem place_schemaTags : ∀ entry ∈ schemaTags, Place entry.1 entry.2 := by
  simp only [schemaTags, List.forall_mem_cons, List.not_mem_nil, false_imp_iff, implies_true, and_true]
  -- no value can be pushed to the data themselves
  exact .whole rfl fun _ hmethod => by cases hmethod

theorem apart_readTopic {tag content : String} {v : Json} (htag : tag ∉ titleTargets)
    (h : readTopic tag content = .ok (some v)) : Apart v := by
  unfold readTopic at h
  split at h
  · cases h
  · next topic _ =>
    cases hcheck : checkTopic tag topic with
    | error fault =>
      rw [hcheck] at h
      cases h
    | ok _ =>
      rw [hcheck] at h
      cases h
      exact apart_keyed htag _

theorem place_mqttTags : ∀ entry ∈ mqttTags, Place entry.1 entry.2 := by
  simp only [mqttTags, List.forall_mem_cons, List.not_mem_nil, false_imp_iff, implies_true, and_true]
  refine ⟨.ofContent rfl rfl fun _ _ => apart_of_map fun _ => apart_obj (by simp [keys, titleTargets]),
    .checked rfl rfl fun content v h => ?topic, .checked rfl rfl fun content v h => ?responseTopic,
    .belowKey "topicParameter" "fields." (fun _ => rfl) (by decide) (by decide) (by decide),
    .ofContent rfl rfl fun content v h => ?qos,
    .ofContent rfl rfl fun content v h => ?retain,
    .ofContent rfl rfl fun _ _ => apart_of_map fun _ => apart_obj (by simp [keys, titleTargets]),
    .fixedBeside rfl (by decide), .fixedBeside rfl (by decide), .fixedBeside rfl (by decide),
    .fixedBeside rfl (by decide), .fixedBeside rfl (by decide), .fixedBeside rfl (by decide),
    .ofContent rfl rfl fun content v h => ?tags, .fixedBeside rfl (by decide),
    .underscoredAs rfl rfl (by decide)⟩
  case topic => exact apart_readTopic (by decide) h
  case responseTopic => exact apart_readTopic (by decide) h
  case qos =>
    unfold readQos at h
    split at h
    · split at h
      · cases h
        exact apart_keyed (by decide) _
      · cases h
    · cases h
  case retain =>
    unfold readRetain at h
    dsimp only at h
    split_ifs at h <;> cases h <;> exact apart_keyed (by decide) _
  case tags =>
    unfold readTags at h
    dsimp only at h
    split at h
    · cases h
    · split_ifs at h
      cases h
      exact apart_keyed (by decide) _

theorem isApart_readModel : Reader.IsApart readModel := by
  intro content source memory value h
  unfold readModel at h
  split at h
  · cases h
  · next m _ =>
    cases h
    exact apart_obj (by simp [keys, titleTargets])

theorem place_modelTags : ∀ entry ∈ modelTags, Place entry.1 entry.2 := by
  simp only [modelTags, List.forall_mem_cons, List.not_mem_nil, false_imp_iff, implies_true, and_true]
  refine ⟨.whole rfl fun _ _ => ?_, .keyed rfl rfl (by decide),
    .keyed rfl rfl (by decide), .keyed rfl rfl (by decide), .fixedBeside rfl (by decide),
    .belowKey "model" "attributes." (fun _ => rfl) (by decide) (by decide) (by decide),
    .belowKey "model" "hooks." (fun _ => rfl) (by decide) (by decide) (by decide)⟩
  dsimp only [inserted]
  exact isApart_readModel

theorem place_iotTags : ∀ entry ∈ iotTags, Place entry.1 entry.2 := by
  simp only [iotTags, List.forall_mem_cons, List.not_mem_nil, false_imp_iff, implies_true, and_true]
  refine ⟨.ofContent rfl rfl fun _ _ => apart_of_map fun _ => apart_obj (by simp [keys, titleTargets]),
    .grouped "parameter" (by decide) rfl (by decide) fun {content source memory value} h => ?parameter,
    .belowKey "return" "fields." (fun _ => rfl) (by decide) (by decide) (by decide),
    .grouped "error" (by decide) rfl (by decide) fun {content source memory value} h => ?error,
    .fixedBeside rfl (by decide), .ofContent rfl rfl fun content v h => ?platforms,
    .keyed rfl rfl (by decide), .underscoredAs rfl rfl (by decide), .keyed rfl rfl (by decide),
    .keyed rfl rfl (by decide), .keyed rfl rfl (by decide), .ofContent rfl rfl fun content v h => ?deprecation,
    .fixedBeside rfl (by decide)⟩
  case parameter =>
    dsimp only at h ⊢
    unfold readIotParameter at h ⊢
    split at h
    · cases h
    · cases h
      exact ⟨_, rfl, rfl⟩
  case error =>
    dsimp only at h ⊢
    unfold readIotError at h ⊢
    split at h
    · cases h
    · cases h
      exact ⟨_, rfl, rfl⟩
  case platforms =>
    unfold readPlatforms at h
    split at h
    · cases h
    · dsimp only at h
      split_ifs at h
      cases h
      exact apart_obj (by simp [keys, titleTargets])
  case deprecation =>
    cases h
    exact apart_obj (by simp [keys, titleTargets])

theorem isApart_readOpenApiPath : Reader.IsApart readOpenApiPath := by
  intro content source memory value h
  unfold readOpenApiPath at h
  generalize headAndBody (Text.trim content) = parts at h
  obtain ⟨head, body⟩ := parts
  dsimp only at h
  cases hpath : pathInLine? (Text.trim head) with
  | none =>
    rw [hpath] at h
    cases h
  | some path =>
    rw [hpath] at h
    refine apart_of_map (fun found => apart_obj fun key hkey => ?_) (Except.ok.inj h)
    rcases (mem_keys_set? _ _ _ _).mp hkey with ⟨rfl, -⟩ | hfields
    · decide
    · clear hkey
      revert key
      simp [OpenApi.endpointFields, keys, titleTargets]

theorem isApart_readOpenApiSchema : Reader.IsApart readOpenApiSchema := by
  intro content source memory value h
  unfold readOpenApiSchema at h
  generalize headAndBody (Text.trim content) = parts at h
  obtain ⟨head, body⟩ := parts
  dsimp only at h
  generalize schemaWord.replaceFirst (fun _ => "") (Text.trim head) = name at h
  by_cases hname : name.isEmpty = true
  · rw [if_pos hname] at h
    cases h
  · rw [if_neg hname] at h
    refine (Option.some.inj (Except.ok.inj h)) ▸ apart_obj ?_
    simp [keys, titleTargets]

theorem isApart_readOpenApiOperation : Reader.IsApart readOpenApiOperation := by
  intro content source memory value h
  unfold readOpenApiOperation at h
  cases htext : Text.nonBlank? content with
  | none =>
    rw [htext] at h
    cases h
  | some text =>
    rw [htext] at h
    dsimp only at h
    split at h
    · cases h
      exact apart_obj (by simp [keys, titleTargets])
    · cases h
    · cases h

theorem place_openApiTags (tree : FileTree) : ∀ entry ∈ openApiTags tree, Place entry.1 entry.2 := by
  simp only [openApiTags, List.forall_mem_cons, List.not_mem_nil, false_imp_iff, implies_true, and_true]
  refine ⟨.whole rfl fun hname => absurd rfl hname, .whole rfl fun _ _ => ?_, .whole rfl fun _ _ => ?_,
    .whole rfl fun _ _ => ?_⟩
  all_goals dsimp only [inserted]
  · exact isApart_readOpenApiPath
  · exact isApart_readOpenApiSchema
  · exact isApart_readOpenApiOperation

theorem place_fileHeaderTags : ∀ entry ∈ fileHeaderTags, Place entry.1 entry.2 := by
  simp only [fileHeaderTags, List.forall_mem_cons, List.not_mem_nil, false_imp_iff, implies_true, and_true]
  refine ⟨.ofContent rfl rfl fun _ _ => apart_of_map fun _ => apart_ofPresent (by simp [titleTargets]),
    .ofContent rfl rfl fun _ _ => apart_of_map fun _ => apart_ofPresent (by simp [titleTargets]),
    .ofContent rfl rfl fun _ _ => apart_of_map fun _ => apart_ofPresent (by simp [titleTargets]),
    .ofContent rfl rfl fun _ _ => apart_of_map fun _ => apart_ofPresent (by simp [titleTargets]),
    .ofContent rfl rfl fun _ _ => apart_of_map fun _ => apart_ofPresent (by simp [titleTargets]),
    .ofContent rfl rfl fun _ _ => apart_of_map fun see => ?_⟩
  split
  · exact apart_ofPresent (by simp [titleTargets])
  · split
    · exact apart_ofPresent (by simp [titleTargets])
    · exact apart_obj (by simp [keys, titleTargets])

theorem place_tsdocTags : ∀ entry ∈ tsdocTags, Place entry.1 entry.2 := by
  simp only [tsdocTags, List.forall_mem_cons, List.not_mem_nil, false_imp_iff, implies_true, and_true]
  exact ⟨.fixedBeside rfl (by decide), .fixedBeside rfl (by decide), .fixedBeside rfl (by decide),
    .fixedBeside rfl (by decide), .fixedBeside rfl (by decide), .fixedBeside rfl (by decide),
    .fixedBeside rfl (by decide), .fixedBeside rfl (by decide)⟩

/-- **Each tag but the definition of shared data puts its values in a place.** -/
theorem place_of_mem_builtinTags {tree : FileTree} {name : String} {tag : Tag}
    (h : (name, tag) ∈ Registry.builtinTags tree) (hname : name ≠ "apiDefine") : Place name tag := by
  simp only [Registry.builtinTags, List.mem_append] at h
  rcases h with ((((((((h | h) | h) | h) | h) | h) | h) | h) | h) | h
  · exact place_endpointTags _ h hname
  · exact place_parameterTags _ h
  · exact place_exampleTags _ h
  · exact place_schemaTags _ h
  · exact place_mqttTags _ h
  · exact place_modelTags _ h
  · exact place_iotTags _ h
  · exact place_openApiTags tree _ h
  · exact place_fileHeaderTags _ h
  · exact place_tsdocTags _ h

end Tag
end Docblock
