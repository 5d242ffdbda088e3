/-
# What a tag may do to the memory, and how it may refuse

A tag reads with the memory of the whole run in its hands, and may refuse with
a wording of its own. The tags that come with the program do little of this:
none of them changes the category of the folder, and none makes up the wording
of a usage (`isModest_of_mem_builtinTags`).

Key definitions: `Tag.Reader.IsModest`.
Key theorems: `Tag.isModest_of_mem_builtinTags`.
-/
import Docblock.Proofs.Tag.Registry
import Mathlib.Tactic.SplitIfs

namespace Docblock
namespace Tag

/-- The reader leaves the category of the folder, and words no usage itself. -/
structure Reader.IsModest (read : Reader) : Prop where
  category : ∀ content source memory, (read content source memory).memory.category = memory.category
  fault : ∀ content source memory message tag form sample,
    (read content source memory).result ≠ .error (.usage message tag form sample)

namespace Reader

@[simp] theorem isModest_ofContent (f : String → Option Json) : (ofContent f).IsModest where
  category _ _ _ := rfl
  fault _ _ _ _ _ _ _ h := by cases h

@[simp] theorem isModest_keyed (key : String) : (keyed key).IsModest := isModest_ofContent _

@[simp] theorem isModest_underscoredAs (key : String) : (underscoredAs key).IsModest := isModest_ofContent _

theorem isModest_checked {f : String → Except Fault (Option Json)}
    (h : ∀ content message tag form sample, f content ≠ .error (.usage message tag form sample)) :
    (checked f).IsModest where
  category _ _ _ := rfl
  fault content _ _ := h content

/-- A reader that never refuses need only leave the category. -/
theorem isModest_of_ok {read : Reader}
    (h : ∀ content source memory, ∃ value, (read content source memory).result = .ok value ∧
      (read content source memory).memory.category = memory.category) : read.IsModest where
  category content source memory := (h content source memory).choose_spec.2
  fault content source memory _ _ _ _ hfault := by
    obtain ⟨value, hvalue, -⟩ := h content source memory
    rw [hvalue] at hfault
    cases hfault

end Reader

open Reader

/-! ### Endpoints and topics -/

@[simp] theorem isModest_readDefinition : (Reader.checked readDefinition).IsModest := by
  refine isModest_checked fun content message tag form sample h => ?_
  unfold readDefinition at h
  split at h
  · cases h
  · split_ifs at h <;> cases h

@[simp] theorem isModest_readVersion : (Reader.checked readVersion).IsModest := by
  refine isModest_checked fun content message tag form sample h => ?_
  unfold readVersion at h
  split at h
  · cases h
  · split_ifs at h
    cases h

@[simp] theorem isModest_readLanguage : (Reader.checked readLanguage).IsModest := by
  refine isModest_checked fun content message tag form sample h => ?_
  unfold readLanguage at h
  dsimp only at h
  split_ifs at h <;> cases h

@[simp] theorem isModest_readTopic (name : String) : (Reader.checked (readTopic name)).IsModest := by
  refine isModest_checked fun content message tag form sample h => ?_
  unfold readTopic at h
  split at h
  · cases h
  · unfold checkTopic at h
    split_ifs at h <;> cases h

@[simp] theorem isModest_readTopicParameter : Reader.IsModest readTopicParameter := by
  refine isModest_of_ok fun content source memory => ?_
  unfold readTopicParameter
  split <;> exact ⟨_, rfl, rfl⟩

/-! ### Parameters and examples -/

theorem category_readParameter (defaultGroup content : String) (memory : Memory) :
    (readParameter defaultGroup content memory).2.category = memory.category := by
  unfold readParameter
  split <;> rfl

@[simp] theorem isModest_parameterReader (defaultGroup : String) :
    Reader.IsModest (parameterReader defaultGroup) := by
  refine isModest_of_ok fun content source memory => ?_
  have hcategory := category_readParameter defaultGroup content memory
  unfold parameterReader
  generalize readParameter defaultGroup content memory = read at hcategory ⊢
  exact ⟨read.1, rfl, hcategory⟩

@[simp] theorem isModest_bodyReader : Reader.IsModest bodyReader := by
  refine isModest_of_ok fun content source memory => ?_
  have hcategory := category_readParameter "Body" content memory
  unfold bodyReader
  generalize readParameter "Body" content memory = read at hcategory ⊢
  exact ⟨read.1.map withChecked, rfl, hcategory⟩

@[simp] theorem isModest_readCode : Reader.IsModest readCode := by
  refine isModest_of_ok fun content source memory => ?_
  unfold readCode
  dsimp only
  split <;> exact ⟨_, rfl, rfl⟩

/-! ### Models and devices -/

@[simp] theorem isModest_readModel : Reader.IsModest readModel := by
  refine isModest_of_ok fun content source memory => ?_
  unfold readModel
  split <;> exact ⟨_, rfl, rfl⟩

@[simp] theorem isModest_readModelReference : Reader.IsModest readModelReference := by
  refine isModest_of_ok fun content source memory => ?_
  unfold readModelReference
  split <;> exact ⟨_, rfl, rfl⟩

@[simp] theorem isModest_readAttribute : Reader.IsModest readAttribute := by
  refine isModest_of_ok fun content source memory => ?_
  unfold readAttribute
  split <;> exact ⟨_, rfl, rfl⟩

@[simp] theorem isModest_readModelHook : Reader.IsModest readModelHook := by
  refine isModest_of_ok fun content source memory => ?_
  unfold readModelHook
  split <;> exact ⟨_, rfl, rfl⟩

@[simp] theorem isModest_readIotParameter : Reader.IsModest readIotParameter := by
  refine isModest_of_ok fun content source memory => ?_
  unfold readIotParameter
  split <;> exact ⟨_, rfl, rfl⟩

@[simp] theorem isModest_readIotReturn : Reader.IsModest readIotReturn := by
  refine isModest_of_ok fun content source memory => ?_
  unfold readIotReturn
  split <;> exact ⟨_, rfl, rfl⟩

@[simp] theorem isModest_readIotError : Reader.IsModest readIotError := by
  refine isModest_of_ok fun content source memory => ?_
  unfold readIotError
  split <;> exact ⟨_, rfl, rfl⟩

/-! ### Documents -/

@[simp] theorem isModest_readOpenApi (tree : FileTree) : Reader.IsModest (readOpenApi tree) := by
  refine isModest_of_ok fun content source memory => ?_
  unfold readOpenApi
  split
  · exact ⟨_, rfl, rfl⟩
  · split <;> split <;> exact ⟨_, rfl, rfl⟩

@[simp] theorem isModest_readOpenApiPath : Reader.IsModest readOpenApiPath := by
  refine isModest_of_ok fun content source memory => ?_
  unfold readOpenApiPath
  dsimp only
  split <;> exact ⟨_, rfl, rfl⟩

@[simp] theorem isModest_readOpenApiSchema : Reader.IsModest readOpenApiSchema := by
  refine isModest_of_ok fun content source memory => ?_
  unfold readOpenApiSchema
  dsimp only
  split <;> exact ⟨_, rfl, rfl⟩

@[simp] theorem isModest_readOpenApiOperation : Reader.IsModest readOpenApiOperation := by
  refine isModest_of_ok fun content source memory => ?_
  unfold readOpenApiOperation
  split
  · exact ⟨_, rfl, rfl⟩
  · split <;> exact ⟨_, rfl, rfl⟩

/-! ### All tags -/

@[simp] theorem read_inserted (path : String) (read : Reader) : (inserted path read).read = read := rfl

@[simp] theorem read_pushed (path : String) (read : Reader) : (pushed path read).read = read := rfl

theorem isModest_endpointTags : ∀ entry ∈ endpointTags, entry.2.read.IsModest := by
  simp [endpointTags, oldReference, reference]

theorem isModest_parameterTags : ∀ entry ∈ parameterTags, entry.2.read.IsModest := by
  simp [parameterTags]

theorem isModest_exampleTags : ∀ entry ∈ exampleTags, entry.2.read.IsModest := by
  have hshown : Reader.IsModest fun _ source memory => { result := .ok (readExample source), memory } :=
    isModest_of_ok fun _ _ _ => ⟨_, rfl, rfl⟩
  simp [exampleTags, hshown]

theorem isModest_mqttTags : ∀ entry ∈ mqttTags, entry.2.read.IsModest := by
  simp [mqttTags]

theorem isModest_modelTags : ∀ entry ∈ modelTags, entry.2.read.IsModest := by
  simp [modelTags]

theorem isModest_iotTags : ∀ entry ∈ iotTags, entry.2.read.IsModest := by
  simp [iotTags]

/-- **The tags that come with the program are modest.** Reading an element never
changes the category of the folder, and a text is refused for one of the
reasons that have a fixed wording. -/
theorem isModest_of_mem_builtinTags {tree : FileTree} {name : String} {tag : Tag}
    (h : (name, tag) ∈ Registry.builtinTags tree) : tag.read.IsModest := by
  simp only [Registry.builtinTags, List.mem_append] at h
  rcases h with ((((((((h | h) | h) | h) | h) | h) | h) | h) | h) | h
  · exact isModest_endpointTags _ h
  · exact isModest_parameterTags _ h
  · exact isModest_exampleTags _ h
  · have hall : ∀ entry ∈ schemaTags, entry.2.read.IsModest := by simp [schemaTags]
    exact hall _ h
  · exact isModest_mqttTags _ h
  · exact isModest_modelTags _ h
  · exact isModest_iotTags _ h
  · have hall : ∀ entry ∈ openApiTags tree, entry.2.read.IsModest := by simp [openApiTags]
    exact hall _ h
  · have hall : ∀ entry ∈ fileHeaderTags, entry.2.read.IsModest := by simp [fileHeaderTags]
    exact hall _ h
  · have hall : ∀ entry ∈ tsdocTags, entry.2.read.IsModest := by simp [tsdocTags, marker]
    exact hall _ h

end Tag
end Docblock
