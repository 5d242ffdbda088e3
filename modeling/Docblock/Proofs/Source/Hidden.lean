/-
# Hidden blocks leave no trace

A block that is ignored, or private while private blocks are not wanted, is
left out before any of its elements is read. So the tags never see it: with
other elements in its place, as long as one of them hides the block, the
same blocks are read, with the same positions, the same fault if there is
one, and the same memory of the tags (`selectBlocks_alike`). Only the log
may say something else. Of the text of a file this makes every hidden
comment a place where anything can stand (`hidden_blocks_leave_no_trace`).

Key definitions: `Source.Hides`, `Source.IsHidden`,
`Source.AlikeUnlessHidden`.
Key theorems: `Source.verdict_of_isHidden`, `Source.selectBlocks_alike`,
`Source.hidden_blocks_leave_no_trace`.
-/
import Docblock.Proofs.Source.Reading
import Mathlib.Data.List.Forall2

namespace Docblock
namespace Source

open Reading

/-- An element that hides its block: it says that the block is to be ignored,
or, unless private blocks are wanted, that it is private. -/
def Hides (s : Setup) (e : Element) : Prop :=
  Text.startsWith e.name "apiignore" = true ∨
    (s.includePrivate = false ∧ Text.startsWith e.name "apiprivate" = true)

instance (s : Setup) (e : Element) : Decidable (Hides s e) :=
  inferInstanceAs (Decidable (_ ∨ (_ ∧ _)))

/-- A block with an element that hides it, wherever the element stands. -/
def IsHidden (s : Setup) (es : List Element) : Prop := ∃ e ∈ es, Hides s e

instance (s : Setup) (es : List Element) : Decidable (IsHidden s es) :=
  inferInstanceAs (Decidable (∃ e ∈ es, Hides s e))

/-- The same elements, unless both blocks are hidden. -/
def AlikeUnlessHidden (s : Setup) (es others : List Element) : Prop :=
  es = others ∨ (IsHidden s es ∧ IsHidden s others)

instance (s : Setup) (es others : List Element) : Decidable (AlikeUnlessHidden s es others) :=
  inferInstanceAs (Decidable (_ ∨ (_ ∧ _)))

/-! ### Choosing blocks -/

theorem hiding?_isSome_iff (s : Setup) (index : Nat) (e : Element) :
    (hiding? s index e).isSome ↔ Hides s e := by
  unfold hiding? Hides
  by_cases hi : Text.startsWith e.name "apiignore" = true
  · simp [hi]
  · cases hs : s.includePrivate <;> simp [hi]

/-- A hidden block is not read. -/
theorem verdict_of_isHidden {s : Setup} {es : List Element} (h : IsHidden s es) (index : Nat) :
    (verdict s index es).1 = false := by
  obtain ⟨e, he, hhides⟩ := h
  have hsome : (es.findSome? (hiding? s index)).isSome := by
    rw [List.findSome?_isSome_iff]
    exact ⟨e, he, (hiding?_isSome_iff s index e).mpr hhides⟩
  obtain ⟨reason, hreason⟩ := Option.isSome_iff_exists.mp hsome
  rw [verdict, hreason]

/-- What is made of elements and their positions is the same for two lists if
it is the same position by position. -/
theorem filterMap_mapIdx_of_forall₂ {R : α → α → Prop} {as bs : List α} (h : List.Forall₂ R as bs)
    {f : Nat → α → β} {p : β → Option γ} (hp : ∀ i a b, R a b → p (f i a) = p (f i b)) :
    (as.mapIdx f).filterMap p = (bs.mapIdx f).filterMap p := by
  induction h generalizing f with
  | nil => rfl
  | cons hab _ ih =>
    rw [List.mapIdx_cons, List.mapIdx_cons, List.filterMap_cons, List.filterMap_cons, hp 0 _ _ hab,
      ih fun i a b => hp (i + 1) a b]

/-- The blocks that are read do not depend on those that are hidden. -/
theorem selectBlocks_alike {s : Setup} {blocks others : List (List Element)}
    (h : List.Forall₂ (AlikeUnlessHidden s) blocks others) :
    (selectBlocks s blocks).1 = (selectBlocks s others).1 := by
  refine filterMap_mapIdx_of_forall₂ h fun index es other halike => ?_
  rcases halike with rfl | ⟨hes, hother⟩
  · rfl
  · simp only [verdict_of_isHidden hes, verdict_of_isHidden hother, Bool.false_eq_true, ↓reduceIte]

/-- **Hidden blocks leave no trace.** Of two lists of blocks that agree except
where both blocks are hidden, the same is read: the same blocks with their
positions, or the same fault, and the memory of the tags is the same
afterwards. So two texts of a file give the same if their comments agree
except where both are hidden. -/
theorem hidden_blocks_leave_no_trace (s : Setup) (file : String) (memory : Tag.Memory) :
    (∀ blocks others : List (List Element), List.Forall₂ (AlikeUnlessHidden s) blocks others →
      gives (readElements s file blocks) memory = gives (readElements s file others) memory) ∧
    (∀ text other : String, List.Forall₂
        (fun c d => c = d ∨ (IsHidden s (elementsOf s file c) ∧ IsHidden s (elementsOf s file d)))
        (commentsOf s file text) (commentsOf s file other) →
      gives (readText s file text) memory = gives (readText s file other) memory) := by
  refine ⟨fun blocks others h => ?_, fun text other h => ?_⟩
  · rw [readElements, readElements, selectBlocks_alike h]
  · have halike : List.Forall₂ (AlikeUnlessHidden s)
        ((commentsOf s file text).map (elementsOf s file))
        ((commentsOf s file other).map (elementsOf s file)) := by
      rw [List.forall₂_map_left_iff, List.forall₂_map_right_iff]
      exact h.imp fun c d hcd => hcd.imp (congrArg _) id
    have hempty : ((commentsOf s file text).map (elementsOf s file)).isEmpty =
        ((commentsOf s file other).map (elementsOf s file)).isEmpty := by
      rw [Bool.eq_iff_iff, List.isEmpty_iff_length_eq_zero, List.isEmpty_iff_length_eq_zero,
        halike.length_eq]
    rw [gives_readText, gives_readText]
    dsimp only
    rw [hempty, readElements, readElements, selectBlocks_alike halike]

/-- The first comment is ignored, and the second is not. -/
def ignoredFirst (secret : String) : String := "/**@apiIgnore " ++ secret ++ "*//**@api B*/"

theorem hidden_blocks_leave_no_trace_ignored :
    let s := Setup.builtin ⟨[]⟩
    let ignored := Element.new "apiIgnore" "" "@apiIgnore"
    let named (name : String) := Element.new "apiName" name ("@apiName " ++ name)
    gives (readElements s "a.js" [[named "A", ignored], [named "B"]]) {} =
      gives (readElements s "a.js" [[ignored, named "C"], [named "B"]]) {} ∧
    gives (readText s "a.js" (ignoredFirst "a")) {} = gives (readText s "a.js" (ignoredFirst "b")) {} := by
  intro s ignored named
  obtain ⟨hblocks, htext⟩ := hidden_blocks_leave_no_trace s "a.js" {}
  have hignored : Hides s ignored := .inl (by decide +kernel)
  have ha : commentsOf s "a.js" (ignoredFirst "a") = ["@apiIgnore a", "@api B"] := by decide +kernel
  have hb : commentsOf s "a.js" (ignoredFirst "b") = ["@apiIgnore b", "@api B"] := by decide +kernel
  refine ⟨hblocks _ _ (.cons (.inr ⟨⟨ignored, by simp, hignored⟩, ⟨ignored, by simp, hignored⟩⟩)
    (.cons (.inl rfl) .nil)), htext _ _ ?_⟩
  rw [ha, hb]
  refine .cons (.inr ⟨?_, ?_⟩) (.cons (.inl rfl) .nil)
  · decide +kernel
  · decide +kernel

end Source
end Docblock
