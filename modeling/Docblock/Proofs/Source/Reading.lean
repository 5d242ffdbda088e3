/-
# Readings without their log

A reading gives a value or a fault, and leaves the memory of the tags and a
log. No reading can see the log, so what readings give one after the other
(`Reading.gives_bind`) is settled by what each of them gives. The text of a
file is read through the elements of its comments alone (`gives_readText`).

Key definitions: `Source.Reading.gives`, `Source.commentsOf`,
`Source.elementsOf`, `Source.readElements`.
Key theorems: `Source.Reading.gives_bind`,
`Source.Reading.exists_gives_of_toOption`, `Source.gives_cutBlocks`,
`Source.gives_readText`.
-/
import Docblock.Source.Text

namespace Docblock
namespace Source

namespace Reading

variable {ε α β : Type}

/-- What a reading gives, and the memory it leaves. -/
def gives (r : Reading ε α) (memory : Tag.Memory) : Except ε α × Tag.Memory :=
  ((r memory).result, (r memory).memory)

@[simp] theorem gives_pure (a : α) (memory : Tag.Memory) :
    gives (pure a : Reading ε α) memory = (.ok a, memory) := rfl

@[simp] theorem gives_note (entry : Log.Entry) (memory : Tag.Memory) :
    gives (note entry : Reading ε Unit) memory = (.ok (), memory) := rfl

@[simp] theorem gives_say (level : Log.Level) (message : String) (memory : Tag.Memory) :
    gives (say level message : Reading ε Unit) memory = (.ok (), memory) := rfl

@[simp] theorem gives_remember (f : Tag.Memory → Tag.Memory) (memory : Tag.Memory) :
    gives (remember f : Reading ε Unit) memory = (.ok (), f memory) := rfl

/-- What comes after a reading starts with what the reading gave and with the
memory it left; the log does not count. -/
theorem gives_bind (r : Reading ε α) (f : α → Reading ε β) (memory : Tag.Memory) :
    gives (r >>= f) memory = match gives r memory with
      | (.ok a, memory) => gives (f a) memory
      | (.error fault, memory) => (.error fault, memory) := by
  change gives (andThen r f) memory = _
  unfold gives andThen
  rcases r memory with ⟨result, after, log⟩
  cases result <;> rfl

theorem gives_bind_of_ok {r : Reading ε α} {memory after : Tag.Memory} {a : α}
    (h : gives r memory = (.ok a, after)) (f : α → Reading ε β) :
    gives (r >>= f) memory = gives (f a) after := by
  rw [gives_bind, h]

/-- A reading whose value has a view gives a value with this view. -/
theorem exists_gives_of_toOption {r : Reading ε α} {memory : Tag.Memory} {view : α → β} {v : β}
    (h : (gives r memory).1.toOption.map view = some v) :
    ∃ a after, gives r memory = (.ok a, after) ∧ view a = v := by
  rcases hgives : gives r memory with ⟨fault | a, after⟩
  · rw [hgives] at h
    cases h
  · rw [hgives] at h
    exact ⟨a, after, rfl, Option.some.inj h⟩

/-- Saying things in the log gives nothing and leaves the memory alone. -/
theorem gives_forM {f : α → Reading ε PUnit} (hf : ∀ a memory, gives (f a) memory = (.ok ⟨⟩, memory))
    (memory : Tag.Memory) : ∀ xs : List α, gives (xs.forM f) memory = (.ok ⟨⟩, memory)
  | [] => rfl
  | x :: xs => by
    change gives (f x >>= fun _ => xs.forM f) memory = _
    rw [gives_bind_of_ok (hf x memory), gives_forM hf memory xs]

end Reading

open Reading

/-- The comments of a text, as the language of the file cuts them out. -/
def commentsOf (s : Setup) (file text : String) : List String :=
  (s.languages.forExtension (endingOf file)).comments (Text.replace "\r\n" "\n" text)

/-- The elements of a comment. -/
def elementsOf (s : Setup) (file comment : String) : List Element :=
  (Element.findElements s.hooks comment file).1

/-- Reads the blocks that count, given the elements of all. -/
def readElements (s : Setup) (file : String) (blocks : List (List Element)) :
    Reading Fault (List Block) :=
  readBlocks s file (selectBlocks s blocks).1

theorem gives_cutBlocks (s : Setup) (file : String) (memory : Tag.Memory) :
    ∀ (comments : List String) (index : Nat),
      gives (cutBlocks s file index comments) memory = (.ok (comments.map (elementsOf s file)), memory)
  | [], _ => rfl
  | comment :: comments, index => by
    unfold cutBlocks
    rw [gives_bind_of_ok (gives_forM (fun r => gives_note (.remark r)) memory _),
      gives_bind_of_ok (gives_say _ _ memory),
      gives_bind_of_ok (gives_cutBlocks s file memory comments (index + 1))]
    rfl

/-- A text is read through the elements of its comments alone. -/
theorem gives_readText (s : Setup) (file text : String) (memory : Tag.Memory) :
    gives (readText s file text) memory =
      let blocks := (commentsOf s file text).map (elementsOf s file)
      let memory := { memory with filename := file }
      if blocks.isEmpty || (selectBlocks s blocks).1.isEmpty then (.ok none, memory)
      else match gives (readElements s file blocks) memory with
        | (.ok read, memory) => (.ok (if read.isEmpty then none else some read), memory)
        | (.error fault, memory) => (.error fault, memory) := by
  unfold readText commentsOf readElements
  rw [gives_bind_of_ok (gives_say _ _ memory), gives_bind_of_ok (gives_remember _ memory)]
  generalize (s.languages.forExtension (endingOf file)).comments (Text.replace "\r\n" "\n" text) = comments
  generalize { memory with filename := file } = memory
  dsimp only
  by_cases hempty : comments.isEmpty
  · rw [if_pos hempty, List.isEmpty_map, hempty]
    rfl
  · rw [if_neg hempty, gives_bind_of_ok (gives_say _ _ memory),
      gives_bind_of_ok (gives_cutBlocks s file memory comments 0), List.isEmpty_map,
      Bool.eq_false_iff.mpr hempty, Bool.false_or]
    rcases selectBlocks s (comments.map (elementsOf s file)) with ⟨chosen, log⟩
    dsimp only
    rw [gives_bind_of_ok (gives_forM gives_note memory log)]
    by_cases hchosen : chosen.isEmpty
    · rw [if_pos hchosen, if_pos hchosen, gives_pure]
    · rw [if_neg hchosen, if_neg hchosen, gives_bind]
      rcases gives (readBlocks s file chosen) memory with ⟨result, after⟩
      cases result with
      | error fault => rfl
      | ok read =>
        by_cases hread : read.isEmpty
        · simp only [hread, ↓reduceIte, gives_pure]
        · simp only [hread, Bool.false_eq_true, ↓reduceIte]
          rw [gives_bind_of_ok (gives_forM (gives_say .warn) after _)]
          rfl

end Source
end Docblock
