/-
# Which blocks pass a filter

A filter is written `tag=value` and split at its equals signs: the tag is the
part before the first one, the value the part up to the next one
(`Filter.read?_eq_some`). So a value without an equals sign is compared as it is
written, and one with an equals sign only up to there. Whether a block is read
depends on its own elements alone, in whatever order they stand
(`mem_selectBlocks_iff`), and the blocks keep their order
(`pairwise_selectBlocks`).

Key definitions: `Source.Chosen`.
Key theorems: `Source.mem_selectBlocks_iff`, `Source.pairwise_selectBlocks`,
`Source.selected_exactly`.
-/
import Docblock.Proofs.Block.Attach
import Docblock.Proofs.Source.Hidden
import Mathlib.Data.List.TakeWhile

namespace Docblock

/-! ### The first piece -/

namespace Text

theorem head?_split (sep : Char) (s : String) : (split sep s).head? = some (upTo (· == sep) s) := by
  obtain ⟨line, lines, hsplit, hs, hfree⟩ := exists_splitChars sep s.toList
  have hline : s.toList.takeWhile (fun c => !(c == sep)) = line := by
    rw [hs, takeWhile_behindEnds (by simp), List.takeWhile_eq_self_iff]
    intro c hc
    rw [Bool.not_eq_true', beq_eq_false_iff_ne]
    rintro rfl
    exact hfree line List.mem_cons_self hc
  rw [split, splitBy, hsplit, upTo, hline]
  rfl

/-- Nothing is cut off where there is no separator. -/
theorem upTo_eq_self_iff (sep : Char) (s : String) : upTo (· == sep) s = s ↔ sep ∉ s.toList := by
  rw [upTo, ← String.toList_inj, String.toList_ofList, List.takeWhile_eq_self_iff]
  simp only [Bool.not_eq_true', beq_eq_false_iff_ne]
  exact ⟨fun h hmem => h sep hmem rfl, fun h c hc heq => h (heq ▸ hc)⟩

end Text

namespace Source

variable {s : Setup}

/-! ### The filter -/

/-- A filter has the tag in small letters, and its value ends before the next
equals sign. -/
theorem Filter.read?_eq_some {tag : String} (value : String) (hapi : Text.contains tag "api" = true)
    (htag : '=' ∉ tag.toList) :
    Filter.read? (tag ++ "=" ++ value) = some ⟨Text.lower tag, some (Text.upTo (· == '=') value)⟩ := by
  have hsplit : Text.split '=' (tag ++ "=" ++ value) = tag :: Text.split '=' value := Text.split_append value htag
  rw [Filter.read?, hsplit]
  simp only [hapi, ↓reduceIte, Text.head?_split]

/-! ### The verdict -/

/-- A block is read if nothing hides it and it is wanted. -/
theorem verdict_iff (s : Setup) (index : Nat) (es : List Element) :
    (verdict s index es).1 = true ↔ ¬ IsHidden s es ∧ isWanted s es = true := by
  by_cases hhidden : IsHidden s es
  · simp [verdict_of_isHidden hhidden, hhidden]
  · have hnone : es.findSome? (hiding? s index) = none := by
      rw [List.findSome?_eq_none_iff]
      intro e he
      rw [← Option.not_isSome_iff_eq_none, hiding?_isSome_iff]
      exact fun hhides => hhidden ⟨e, he, hhides⟩
    rw [verdict, hnone]
    by_cases hwanted : isWanted s es = true
    · simp [hwanted, hhidden]
    · simp [hwanted]

/-- **A block is read at its own position,** whatever stands beside it. -/
theorem mem_selectBlocks_iff {blocks : List (List Element)} {i : Nat} {es : List Element} :
    (i, es) ∈ (selectBlocks s blocks).1 ↔ blocks[i]? = some es ∧ ¬ IsHidden s es ∧ isWanted s es = true := by
  rw [← verdict_iff s i, List.getElem?_eq_some_iff]
  simp only [selectBlocks, List.mem_filterMap, List.mem_mapIdx, Option.ite_none_right_eq_some, Option.some.injEq]
  constructor
  · rintro ⟨_, ⟨j, hj, rfl⟩, hchosen, heq⟩
    obtain ⟨rfl, rfl⟩ := Prod.mk.inj heq
    exact ⟨⟨hj, rfl⟩, hchosen⟩
  · rintro ⟨⟨hi, rfl⟩, hchosen⟩
    exact ⟨_, ⟨i, hi, rfl⟩, hchosen, rfl⟩

/-- The positions increase. -/
theorem pairwise_selectBlocks (s : Setup) (blocks : List (List Element)) :
    ((selectBlocks s blocks).1.map Prod.fst).Pairwise (· < ·) := by
  have hjudged : (blocks.mapIdx fun i es => ((i, es), verdict s i es)).Pairwise fun a b => a.1.1 < b.1.1 := by
    rw [List.pairwise_iff_getElem]
    intro i j hi hj hij
    rw [List.getElem_mapIdx, List.getElem_mapIdx]
    exact hij
  rw [List.pairwise_map, selectBlocks]
  refine hjudged.filterMap _ fun a b hab block hblock other hother => ?_
  simp only [Option.ite_none_right_eq_some, Option.some.injEq] at hblock hother
  rw [← hblock.2, ← hother.2]
  exact hab

/-! ### Blocks with a tag and a value -/

/-- A block that a filter for a tag, in small letters, and a value lets pass:
it is not to be ignored and, unless private blocks are wanted, not private, it
documents something, and one of its elements has the tag as its beginning and
the value as its content, or is a definition. -/
structure Chosen (includePrivate : Bool) (tag value : String) (es : List Element) : Prop where
  not_ignored : ∀ e ∈ es, Text.startsWith e.name "apiignore" = false
  not_private : includePrivate = false → ∀ e ∈ es, Text.startsWith e.name "apiprivate" = false
  documents : ∃ e ∈ es, documentsSomething e.name = true
  passes : (∃ e ∈ es, Text.startsWith e.name tag = true ∧ e.content = value) ∨
    ∃ e ∈ es, Text.startsWith e.name "apidefine" = true

theorem not_isHidden_iff (s : Setup) (es : List Element) : ¬ IsHidden s es ↔
    (∀ e ∈ es, Text.startsWith e.name "apiignore" = false) ∧
      (s.includePrivate = false → ∀ e ∈ es, Text.startsWith e.name "apiprivate" = false) := by
  simp only [IsHidden, Hides, not_exists, not_and, not_or, Bool.not_eq_true]
  constructor
  · exact fun h => ⟨fun e he => (h e he).1, fun hpublic e he => (h e he).2 hpublic⟩
  · exact fun h e he => ⟨h.1 e he, fun hpublic => h.2 hpublic e he⟩

/-- A block is wanted if it documents something and passes the filter, with
different elements perhaps. -/
theorem isWanted_iff {tag value : String} (hfilter : s.filter = some ⟨tag, some value⟩) (es : List Element) :
    isWanted s es = true ↔ (∃ e ∈ es, documentsSomething e.name = true) ∧
      ((∃ e ∈ es, Text.startsWith e.name tag = true ∧ e.content = value) ∨
        ∃ e ∈ es, Text.startsWith e.name "apidefine" = true) := by
  simp only [isWanted, hfilter, Option.all_some, Bool.and_eq_true, List.any_eq_true, Filter.passes, Bool.or_eq_true,
    beq_iff_eq, Option.some.injEq]
  refine and_congr_right fun _ => ⟨?_, ?_⟩
  · rintro ⟨e, he, hdefine | hmatch⟩
    · exact .inr ⟨e, he, hdefine⟩
    · exact .inl ⟨e, he, hmatch.1, hmatch.2.symm⟩
  · rintro (⟨e, he, htag, hvalue⟩ | ⟨e, he, hdefine⟩)
    · exact ⟨e, he, .inr ⟨htag, hvalue.symm⟩⟩
    · exact ⟨e, he, .inl hdefine⟩

theorem chosen_iff {tag value : String} (hfilter : s.filter = some ⟨tag, some value⟩) (es : List Element) :
    Chosen s.includePrivate tag value es ↔ ¬ IsHidden s es ∧ isWanted s es = true := by
  rw [not_isHidden_iff, isWanted_iff hfilter]
  constructor
  · exact fun h => ⟨⟨h.not_ignored, h.not_private⟩, h.documents, h.passes⟩
  · rintro ⟨⟨hignored, hprivate⟩, hdocuments, hpasses⟩
    exact ⟨hignored, hprivate, hdocuments, hpasses⟩

/-- **The blocks that pass a filter,** in their order: those that are not hidden,
document something, and have an element of the tag with the value, up to its first
equals sign, or a definition. Without an equals sign this is the whole value. -/
theorem selected_exactly (s : Setup) (tag value : String) (hapi : Text.contains tag "api" = true)
    (htag : '=' ∉ tag.toList) (blocks : List (List Element)) :
    let selected := (selectBlocks { s with filter := Filter.read? (tag ++ "=" ++ value) } blocks).1
    (selected.map Prod.fst).Pairwise (· < ·) ∧
      (∀ i es, (i, es) ∈ selected ↔ blocks[i]? = some es ∧
        Chosen s.includePrivate (Text.lower tag) (Text.upTo (· == '=') value) es) ∧
      (Text.upTo (· == '=') value = value ↔ '=' ∉ value.toList) := by
  intro selected
  refine ⟨pairwise_selectBlocks _ blocks, fun i es => ?_, Text.upTo_eq_self_iff '=' value⟩
  rw [mem_selectBlocks_iff]
  exact and_congr_right fun _ =>
    (chosen_iff (s := { s with filter := _ }) (Filter.read?_eq_some value hapi htag) es).symm

/-- A block of a group, a private one, one of another group and a definition. -/
def groupedBlocks : List (List Element) :=
  let element (name content : String) := Element.new name content ("@" ++ name ++ " " ++ content)
  [[element "api" "\x7bget\x7d /a A", element "apiGroup" "User"],
    [element "apiGroup" "User", element "api" "\x7bget\x7d /b B", element "apiPrivate" ""],
    [element "api" "\x7bget\x7d /c C", element "apiGroup" "Admin"],
    [element "apiDefine" "Shared Shared title"]]

theorem selected_exactly_user :
    let selected := (selectBlocks { Setup.builtin ⟨[]⟩ with filter := Filter.read? "apiGroup=User" } groupedBlocks).1
    selected.map Prod.fst = [0, 3] ∧
      ∀ i es, (i, es) ∈ selected ↔ groupedBlocks[i]? = some es ∧ Chosen false "apigroup" "User" es := by
  intro selected
  have hexact := (selected_exactly (.builtin ⟨[]⟩) "apiGroup" "User" (by decide +kernel) (by decide) groupedBlocks).2
  have hvalue : Text.upTo (· == '=') "User" = "User" := hexact.2.mpr (by decide)
  have htag : Text.lower "apiGroup" = "apigroup" := by decide +kernel
  rw [hvalue, htag] at hexact
  exact ⟨by decide +kernel, hexact.1⟩

/-- A value behind its equals sign is not looked at: the block with this
content is left out. -/
theorem value_cut_at_equals_sign :
    let named := Element.new "apiName" "a=b" "@apiName a=b"
    ¬ ∀ i es, (i, es) ∈ (selectBlocks { Setup.builtin ⟨[]⟩ with filter := Filter.read? ("apiName" ++ "=" ++ "a=b") }
        [[named]]).1 ↔
      [[named]][i]? = some es ∧ Chosen false (Text.lower "apiName") "a=b" es := by
  intro named hexact
  have hnone : (selectBlocks { Setup.builtin ⟨[]⟩ with filter := Filter.read? ("apiName" ++ "=" ++ "a=b") }
      [[named]]).1 = [] := by decide +kernel
  have hchosen : Chosen false (Text.lower "apiName") "a=b" [named] := by
    refine ⟨by decide +kernel, fun _ => by decide +kernel, ⟨named, by simp, ?_⟩, .inl ⟨named, by simp, ?_, rfl⟩⟩
    · decide +kernel
    · decide +kernel
  have hmem := (hexact 0 [named]).mpr ⟨rfl, hchosen⟩
  rw [hnone] at hmem
  cases hmem

end Source
end Docblock
