/-
# Where tags start, line by line

A text that is one line is its first line and the further lines, each behind
a mark. Searching it for tags walks from mark to mark: inside a line nothing
is found (`search_inside`), and behind a mark a tag is found exactly if the
line starts with one (`matchesFrom_line`). So the starts of known tags are
those of the lines, in order (`tagStarts_eq`).

Key definitions: `Element.tagLine?`, `Element.lineStarts`.
Key theorems: `Element.filter_matchesFrom`, `Element.tagStarts_eq`.
-/
import Docblock.Proofs.Element.TagLine

namespace Docblock
namespace Element

open Pattern Text

/-! ### Known tags of lines -/

/-- The known tag with which a line starts. -/
def tagLine? (line : List Char) : Option TagLine :=
  (tagAt? line).filter fun t => isRecognized (String.ofList t.name)

theorem tagLine?_eq_some_iff {line : List Char} {t : TagLine} :
    tagLine? line = some t ↔ t.Of line ∧ isRecognized (String.ofList t.name) = true := by
  rw [tagLine?, Option.filter_eq_some_iff, tagAt?_eq_some_iff]

/-- The tag with the lines behind it. -/
def TagLine.followedBy (t : TagLine) (lines : List (List Char)) : TagLine :=
  { t with rest := t.rest ++ behindEnds lineMark lines }

/-- The start of the known tag of a line, if it has one; `start` and `before`
are the places of the match and of the line. -/
def lineStart (start : Cursor) (before line : List Char) (lines : List (List Char)) : List Match :=
  ((tagLine? line).map fun t => (t.followedBy lines).found start before).toList

/-- The starts of the known tags of lines behind marks; `before` is the text
before them, last character first. -/
def lineStarts : (before : List Char) → List (List Char) → List Match
  | _, [] => []
  | before, line :: lines =>
    lineStart ⟨before, behindEnds lineMark (line :: lines)⟩ (lineMark :: before) line lines ++
      lineStarts (line.reverse ++ lineMark :: before) lines

/-- Whether the tag of a match is known. -/
def isKnown (m : Match) : Bool := isRecognized (m.group 1)

section LineStart

variable {line : List Char} (start : Cursor) (before : List Char) (lines : List (List Char))

theorem lineStart_of_plain (h : tagLine? line = none) : lineStart start before line lines = [] := by
  rw [lineStart, h]
  rfl

theorem lineStart_of_tagLine {t : TagLine} (h : tagLine? line = some t) :
    lineStart start before line lines = [(t.followedBy lines).found start before] := by
  rw [lineStart, h]
  rfl

theorem lineStart_of_none (h : tagAt? line = none) : lineStart start before line lines = [] :=
  lineStart_of_plain start before lines (by rw [tagLine?, h, Option.filter_none])

theorem lineStart_of_some {t : TagLine} (h : tagAt? line = some t) :
    lineStart start before line lines = [(t.followedBy lines).found start before].filter isKnown := by
  have hknown : isKnown ((t.followedBy lines).found start before) = isRecognized (String.ofList t.name) := by
    rw [isKnown, TagLine.group_found]
    rfl
  rw [lineStart, tagLine?, h, List.filter_singleton, hknown, Option.filter_some]
  cases isRecognized (String.ofList t.name) <;> rfl

end LineStart

theorem TagLine.Of.reverse_eq {line : List Char} {t : TagLine} (h : t.Of line) (before : List Char) :
    t.rest.reverse ++ ((t.lead ++ '@' :: t.name).reverse ++ before) = line.reverse ++ before := by
  rw [h.line_eq]
  simp

theorem TagLine.Of.not_mem_rest {c : Char} {line : List Char} {lines : List (List Char)} {t : TagLine}
    (h : t.Of line) (hfree : ∀ l ∈ line :: lines, c ∉ l) : ∀ l ∈ t.rest :: lines, c ∉ l := by
  rw [List.forall_mem_cons] at hfree ⊢
  refine ⟨fun hc => hfree.1 ?_, hfree.2⟩
  rw [h.line_eq]
  simp [hc]

/-! ### Searching -/

theorem matchAt?_nil (before : List Char) : matchAt? tagStartPattern ⟨before, []⟩ = none := by
  by_cases hbefore : before = []
  · rw [hbefore, matchAt?_textStart (by simp)]
    rfl
  · exact matchAt?_inside hbefore (by simp)

/-- Inside a line nothing is found. -/
theorem search_inside (rest : List Char) : ∀ {before cs : List Char}, (cs ≠ [] → before ≠ []) →
    lineMark ∉ cs → search tagStartPattern before (cs ++ rest) =
      search tagStartPattern (cs.reverse ++ before) rest
  | _, [], _, _ => rfl
  | before, c :: cs, hbefore, hcs => by
    rw [List.mem_cons, not_or] at hcs
    have hnone : matchAt? tagStartPattern ⟨before, c :: (cs ++ rest)⟩ = none :=
      matchAt?_inside (hbefore (by simp)) (by simpa using Ne.symm hcs.1)
    rw [List.cons_append, search_cons_of_none hnone, search_inside rest (by simp) hcs.2]
    simp

/-- The step to the next line: its tag is the next match, or the search goes
on inside it. -/
theorem matchesFrom_line {before cs : List Char} (hbefore : cs ≠ [] → before ≠ []) (hcs : lineMark ∉ cs)
    (fuel : Nat) (line : List Char) (lines : List (List Char)) :
    matchesFrom tagStartPattern (fuel + 1) ⟨before, cs ++ behindEnds lineMark (line :: lines)⟩ =
      match tagAt? line with
      | none => matchesFrom tagStartPattern (fuel + 1)
          ⟨lineMark :: (cs.reverse ++ before), line ++ behindEnds lineMark lines⟩
      | some t =>
        let m := (t.followedBy lines).found ⟨cs.reverse ++ before, behindEnds lineMark (line :: lines)⟩
          (lineMark :: (cs.reverse ++ before))
        m :: matchesFrom tagStartPattern fuel m.stop := by
  have hmatch := matchAt?_lineMark (cs.reverse ++ before) (line ++ behindEnds lineMark lines)
  rw [tagAt?_behindEnds, Option.map_map] at hmatch
  simp only [matchesFrom_succ takesSomething_tagStartPattern, search_inside _ hbefore hcs, behindEnds_cons]
  cases htag : tagAt? line with
  | none =>
    rw [htag, Option.map_none] at hmatch
    simp only [search_cons_of_none hmatch]
  | some t =>
    rw [htag, Option.map_some] at hmatch
    simp only [search_cons_of_some hmatch]
    rfl

/-- From inside a line on, the matches of known tags are the starts of the
further lines. Every match takes a line, so more fuel than lines is enough. -/
theorem filter_matchesFrom : ∀ (lines : List (List Char)) (fuel : Nat) (before cs : List Char),
    lines.length < fuel → (cs ≠ [] → before ≠ []) → (∀ l ∈ cs :: lines, lineMark ∉ l) →
    (matchesFrom tagStartPattern fuel ⟨before, cs ++ behindEnds lineMark lines⟩).filter isKnown =
      lineStarts (cs.reverse ++ before) lines
  | [], fuel + 1, before, cs, _, hbefore, hfree => by
    rw [matchesFrom_succ takesSomething_tagStartPattern]
    simp only [search_inside _ hbefore (hfree cs List.mem_cons_self), behindEnds_nil, search, matchAt?_nil]
    rfl
  | line :: lines, fuel + 1, before, cs, hfuel, hbefore, hfree => by
    have hfree' : ∀ l ∈ line :: lines, lineMark ∉ l := fun l hl => hfree l (List.mem_cons_of_mem _ hl)
    rw [List.length_cons] at hfuel
    rw [matchesFrom_line hbefore (hfree cs List.mem_cons_self), lineStarts]
    cases htag : tagAt? line with
    | none =>
      rw [lineStart_of_none _ _ _ htag, List.nil_append]
      exact filter_matchesFrom lines (fuel + 1) _ line (by omega) (by simp) hfree'
    | some t =>
      have ht := tagAt?_eq_some_iff.mp htag
      have ih := filter_matchesFrom lines fuel
        ((t.lead ++ '@' :: t.name).reverse ++ lineMark :: (cs.reverse ++ before)) t.rest (by omega) (by simp)
        (ht.not_mem_rest hfree')
      rw [ht.reverse_eq] at ih
      rw [lineStart_of_some _ _ _ htag, ← ih]
      exact List.filter_append [_] _

/-! ### The first line -/

theorem tagStarts_eq_filter (cs : List Char) : tagStarts (String.ofList cs) =
    (matchesFrom tagStartPattern (cs.length + 1 + 1) ⟨[], cs⟩).filter isKnown := by
  have hall := findAll_eq_matchesFrom takesSomething_tagStartPattern (String.ofList cs)
  rw [String.length_ofList, String.toList_ofList] at hall
  rw [tagStarts, hall]
  rfl

/-- The starts of known tags in a text that is one line: that of the first
line, and those of the lines behind marks. -/
theorem tagStarts_eq {line : List Char} {lines : List (List Char)}
    (hfree : ∀ l ∈ line :: lines, lineMark ∉ l) :
    tagStarts (String.ofList (line ++ behindEnds lineMark lines)) =
      lineStart ⟨[], line ++ behindEnds lineMark lines⟩ [] line lines ++ lineStarts line.reverse lines := by
  have hlength := length_le_behindEnds lineMark lines
  rw [tagStarts_eq_filter, List.length_append]
  cases line with
  | nil => exact filter_matchesFrom lines _ [] [] (by omega) (by simp) hfree
  | cons c cs =>
    obtain ⟨hc, hcs⟩ : lineMark ≠ c ∧ lineMark ∉ cs := by
      simpa using hfree (c :: cs) List.mem_cons_self
    have hhead : (c :: (cs ++ behindEnds lineMark lines)).head? ≠ some lineMark := by
      simpa using Ne.symm hc
    have hmatch := matchAt?_textStart hhead
    rw [← List.cons_append, tagAt?_behindEnds, Option.map_map] at hmatch
    cases htag : tagAt? (c :: cs) with
    | none =>
      -- the search goes on inside the first line
      rw [htag, Option.map_none] at hmatch
      rw [lineStart_of_none _ _ _ htag, List.nil_append, matchesFrom_succ takesSomething_tagStartPattern]
      simp only [List.cons_append] at hmatch ⊢
      rw [search_cons_of_none hmatch, ← matchesFrom_succ takesSomething_tagStartPattern _ ⟨[c], _⟩,
        List.reverse_cons]
      refine filter_matchesFrom lines _ [c] cs (by omega) (by simp) ?_
      rw [List.forall_mem_cons] at hfree ⊢
      exact ⟨hcs, hfree.2⟩
    | some t =>
      have ht := tagAt?_eq_some_iff.mp htag
      rw [htag, Option.map_some] at hmatch
      have hrest := filter_matchesFrom lines (((c :: cs).length + (behindEnds lineMark lines).length) + 1)
        ((t.lead ++ '@' :: t.name).reverse ++ []) t.rest (by omega) (by simp) (ht.not_mem_rest hfree)
      rw [ht.reverse_eq, List.append_nil (c :: cs).reverse] at hrest
      rw [lineStart_of_some _ _ _ htag, ← hrest, matchesFrom_succ takesSomething_tagStartPattern]
      simp only [List.cons_append] at hmatch ⊢
      rw [search_cons_of_some hmatch]
      exact List.filter_append [_] _

end Element
end Docblock
