/-
# Lines that start with a tag

Read line by line, a tag is easy to find: behind blanks and stars at most
stands an `@`, and behind it the longest name, which is a word or two words
with a hyphen between them (`tagAt?_eq_some_iff`). The pattern for the start
of a tag finds the same in a text that is one line: at the start of the text
(`matchAt?_textStart`) and behind each mark (`matchAt?_lineMark`), and nowhere
else (`matchAt?_inside`).

Key definitions: `Element.tagName`, `Element.TagLine`, `Element.tagAt?`.
Key theorems: `Element.tagAt?_eq_some_iff`, `Element.matchAt?_lineMark`,
`Element.matchAt?_textStart`, `Element.matchAt?_inside`.
-/
import Docblock.Element.Finder
import Docblock.Proofs.Pattern.Run
import Docblock.Proofs.Text.Line

namespace Docblock
namespace Element

open Pattern Text

/-! ### Names -/

/-- Blanks and stars, which may stand before a tag. -/
def isLead (c : Char) : Bool := isBlank c || c == '*'

/-- A hyphen with a word behind it, if the text starts with them. -/
def hyphenated : List Char → List Char
  | '-' :: cs => if cs.takeWhile isAsciiWord = [] then [] else '-' :: cs.takeWhile isAsciiWord
  | _ => []

/-- The longest name of a tag with which a text starts; empty if there is
none. -/
def tagName (cs : List Char) : List Char :=
  if cs.takeWhile isAsciiWord = [] then []
  else cs.takeWhile isAsciiWord ++ hyphenated (cs.dropWhile isAsciiWord)

/-- A word of at least one character. -/
def IsName (cs : List Char) : Prop := cs ≠ [] ∧ ∀ c ∈ cs, isAsciiWord c = true

/-- A word, or two words with a hyphen between them. -/
def IsTagName (cs : List Char) : Prop :=
  IsName cs ∨ ∃ first second, IsName first ∧ IsName second ∧ cs = first ++ '-' :: second

theorem isName_takeWhile {cs : List Char} (h : cs.takeWhile isAsciiWord ≠ []) :
    IsName (cs.takeWhile isAsciiWord) :=
  ⟨h, List.all_eq_true.mp List.all_takeWhile⟩

/-- A word at the start of a text is part of the longest run. -/
theorem IsName.prefix_takeWhile {name cs : List Char} (h : IsName name) (hcs : name <+: cs) :
    name <+: cs.takeWhile isAsciiWord := by
  obtain ⟨rest, rfl⟩ := hcs
  rw [List.takeWhile_append_of_pos h.2]
  exact List.prefix_append _ _

theorem hyphenated_isPrefix (cs : List Char) : hyphenated cs <+: cs := by
  unfold hyphenated
  split
  · split_ifs
    · exact List.nil_prefix
    · exact List.cons_prefix_cons.mpr ⟨rfl, List.takeWhile_prefix _⟩
  · exact List.nil_prefix

theorem tagName_isPrefix (cs : List Char) : tagName cs <+: cs := by
  unfold tagName
  split_ifs
  · exact List.nil_prefix
  · conv_rhs => rw [← List.takeWhile_append_dropWhile (p := isAsciiWord) (l := cs)]
    exact (List.prefix_append_right_inj _).mpr (hyphenated_isPrefix _)

theorem tagName_append_drop (cs : List Char) : tagName cs ++ cs.drop (tagName cs).length = cs :=
  List.prefix_iff_eq_append.mp (tagName_isPrefix cs)

theorem IsTagName.ne_nil {name : List Char} (h : IsTagName name) : name ≠ [] := by
  rcases h with hname | ⟨first, second, -, -, rfl⟩
  · exact hname.1
  · simp

theorem isTagName_tagName {cs : List Char} (h : tagName cs ≠ []) : IsTagName (tagName cs) := by
  unfold tagName at h ⊢
  split_ifs at h ⊢ with hword
  · exact absurd rfl h
  have hname := isName_takeWhile hword
  unfold hyphenated
  split
  · split_ifs with hsecond
    · exact .inl (by rwa [List.append_nil])
    · exact .inr ⟨_, _, hname, isName_takeWhile hsecond, rfl⟩
  · exact .inl (by rwa [List.append_nil])

/-- No name at the start of a text is longer. -/
theorem length_le_tagName {name cs : List Char} (h : IsTagName name) (hcs : name <+: cs) :
    name.length ≤ (tagName cs).length := by
  rcases h with h | ⟨first, second, hfirst, hsecond, rfl⟩
  · have hpre := h.prefix_takeWhile hcs
    have hne : cs.takeWhile isAsciiWord ≠ [] := fun hnil => h.1 (List.prefix_nil.mp (hnil ▸ hpre))
    rw [tagName, if_neg hne, List.length_append]
    exact Nat.le_add_right_of_le hpre.length_le
  · -- the hyphen ends the first word, so the second is read behind it
    obtain ⟨rest, rfl⟩ := hcs
    have htake : (first ++ '-' :: second ++ rest).takeWhile isAsciiWord = first := by
      rw [List.append_assoc, List.takeWhile_append_of_pos hfirst.2, List.cons_append,
        List.takeWhile_cons_of_neg (by decide), List.append_nil]
    have hdrop : (first ++ '-' :: second ++ rest).dropWhile isAsciiWord = '-' :: (second ++ rest) := by
      rw [List.append_assoc, List.dropWhile_append_of_pos hfirst.2, List.cons_append,
        List.dropWhile_cons_of_neg (by decide)]
    have hpre := hsecond.prefix_takeWhile (List.prefix_append second rest)
    have hne : (second ++ rest).takeWhile isAsciiWord ≠ [] := fun hnil =>
      hsecond.1 (List.prefix_nil.mp (hnil ▸ hpre))
    rw [tagName, htake, hdrop, if_neg hfirst.1, hyphenated, if_neg hne, List.length_append,
      List.length_append, List.length_cons, List.length_cons]
    have := hpre.length_le
    omega

/-! ### Lines -/

/-- A line that starts with a tag: what stands before the `@`, the name and
what follows. -/
structure TagLine where
  lead : List Char
  name : List Char
  rest : List Char

/-- The tag with which a line starts, known or not. -/
def tagAt? (line : List Char) : Option TagLine :=
  match line.dropWhile isLead with
  | '@' :: behind =>
    if tagName behind = [] then none
    else some ⟨line.takeWhile isLead, tagName behind, behind.drop (tagName behind).length⟩
  | _ => none

/-- The line is blanks and stars, an `@`, a name that could not be longer, and
a rest. -/
structure TagLine.Of (line : List Char) (t : TagLine) : Prop where
  line_eq : line = t.lead ++ '@' :: (t.name ++ t.rest)
  isLead : ∀ c ∈ t.lead, isLead c = true
  isTagName : IsTagName t.name
  longest : ∀ name, IsTagName name → name <+: t.name ++ t.rest → name.length ≤ t.name.length

theorem TagLine.Of.tagName_eq {line : List Char} {t : TagLine} (h : t.Of line) :
    tagName (t.name ++ t.rest) = t.name := by
  have hle := length_le_tagName h.isTagName (List.prefix_append t.name t.rest)
  have hne : tagName (t.name ++ t.rest) ≠ [] := by
    intro hnil
    rw [hnil, List.length_nil, Nat.le_zero, List.length_eq_zero_iff] at hle
    exact h.isTagName.ne_nil hle
  have hge := h.longest _ (isTagName_tagName hne) (tagName_isPrefix _)
  have hpre := List.prefix_of_prefix_length_le (List.prefix_append t.name t.rest) (tagName_isPrefix _) hle
  exact (hpre.eq_of_length (Nat.le_antisymm hle hge)).symm

/-- Reading a line finds the tag it starts with. -/
theorem tagAt?_eq_some_iff {line : List Char} {t : TagLine} : tagAt? line = some t ↔ t.Of line := by
  constructor
  · intro h
    unfold tagAt? at h
    split at h
    · next behind hbehind =>
      split_ifs at h with hname
      cases h
      refine ⟨?_, List.all_eq_true.mp List.all_takeWhile, isTagName_tagName hname, fun name hn hpre => ?_⟩
      · rw [tagName_append_drop, ← hbehind, List.takeWhile_append_dropWhile]
      · rw [tagName_append_drop] at hpre
        exact length_le_tagName hn hpre
    · cases h
  · intro h
    have htake : line.takeWhile isLead = t.lead := by
      rw [h.line_eq, List.takeWhile_append_of_pos h.isLead, List.takeWhile_cons_of_neg (by decide),
        List.append_nil]
    have hdrop : line.dropWhile isLead = '@' :: (t.name ++ t.rest) := by
      rw [h.line_eq, List.dropWhile_append_of_pos h.isLead, List.dropWhile_cons_of_neg (by decide)]
    simp only [tagAt?, hdrop, htake, h.tagName_eq, if_neg h.isTagName.ne_nil, List.drop_left]

/-! ### Lines in a text

The lines of a text that is one line are behind marks. A mark is no part of a
name and no blank, so what a line starts with does not depend on the lines
behind it. -/

theorem hyphenated_behindEnds (cs : List Char) (lines : List (List Char)) :
    hyphenated (cs ++ behindEnds lineMark lines) = hyphenated cs := by
  cases cs with
  | nil => cases lines <;> rfl
  | cons c cs =>
    by_cases hc : c = '-'
    · subst hc
      rw [List.cons_append, hyphenated, hyphenated, takeWhile_behindEnds (by decide)]
    · simp [hyphenated, hc]

theorem tagName_behindEnds (cs : List Char) (lines : List (List Char)) :
    tagName (cs ++ behindEnds lineMark lines) = tagName cs := by
  rw [tagName, tagName, takeWhile_behindEnds (by decide), dropWhile_behindEnds (by decide),
    hyphenated_behindEnds]

theorem tagAt?_behindEnds (line : List Char) (lines : List (List Char)) :
    tagAt? (line ++ behindEnds lineMark lines) =
      (tagAt? line).map fun t => { t with rest := t.rest ++ behindEnds lineMark lines } := by
  unfold tagAt?
  rw [takeWhile_behindEnds (by decide), dropWhile_behindEnds (by decide)]
  cases line.dropWhile isLead with
  | nil => cases lines <;> rfl
  | cons c cs =>
    by_cases hc : c = '@'
    · subst hc
      simp only [List.cons_append, tagName_behindEnds]
      split_ifs with hname
      · rfl
      · simp [List.drop_append_of_le_length (tagName_isPrefix cs).length_le]
    · simp [hc]

/-- A mark is no start of a tag. -/
theorem tagAt?_lineMark (cs : List Char) : tagAt? (lineMark :: cs) = none := rfl

/-! ### The pattern -/

/-- A word, or two words with a hyphen between them. -/
def namePattern : Pattern :=
  all [chars1 isAsciiWord, opt (all [lit "-", chars1 isAsciiWord])]

/-- Blanks and stars, and a tag as group 1. -/
def tagPattern : Pattern :=
  .seq (.chars isLead) (.seq (.one (· == '@')) (.group 1 namePattern))

theorem tagStartPattern_eq :
    tagStartPattern = .seq (.alt .textStart (.one (· == lineMark))) tagPattern := rfl

section Run

variable {α : Type} {next : Next α} (hnext : ∀ here caps, (next here caps).isSome)
include hnext

theorem run_chars1 (accepts : Char → Bool) (before cs : List Char) (caps : Captures) :
    run (chars1 accepts) next ⟨before, cs⟩ caps =
      if cs.takeWhile accepts = [] then none
      else next ⟨(cs.takeWhile accepts).reverse ++ before, cs.dropWhile accepts⟩ caps := by
  cases cs with
  | nil => rfl
  | cons c cs =>
    by_cases hc : accepts c = true
    · simp [chars1, run, hc, runChars_of_isSome accepts fun here => hnext here caps]
    · simp [chars1, run, hc]

theorem run_hyphenated (before cs : List Char) (caps : Captures) :
    run (opt (all [lit "-", chars1 isAsciiWord])) next ⟨before, cs⟩ caps =
      next ⟨(hyphenated cs).reverse ++ before, cs.drop (hyphenated cs).length⟩ caps := by
  have hpattern : all [lit "-", chars1 isAsciiWord] = .seq (.one (· == '-')) (chars1 isAsciiWord) := rfl
  rw [hpattern]
  cases cs with
  | nil => rfl
  | cons c cs =>
    by_cases hc : c = '-'
    · subst hc
      simp only [opt, run, beq_self_eq_true, if_true, run_chars1 hnext, hyphenated]
      by_cases hword : cs.takeWhile isAsciiWord = []
      · simp [hword]
      · -- the word behind the hyphen is there, and what follows takes every place
        obtain ⟨r, hr⟩ := Option.isSome_iff_exists.mp
          (hnext ⟨(cs.takeWhile isAsciiWord).reverse ++ '-' :: before, cs.dropWhile isAsciiWord⟩ caps)
        simp [hword, hr, drop_length_takeWhile]
    · simp [opt, run, hc, hyphenated]

theorem run_namePattern (before cs : List Char) (caps : Captures) :
    run namePattern next ⟨before, cs⟩ caps =
      if tagName cs = [] then none
      else next ⟨(tagName cs).reverse ++ before, cs.drop (tagName cs).length⟩ caps := by
  have hpattern : run namePattern next =
      run (chars1 isAsciiWord) (run (opt (all [lit "-", chars1 isAsciiWord])) next) := rfl
  have hsome : ∀ here caps, (run (opt (all [lit "-", chars1 isAsciiWord])) next here caps).isSome := by
    intro here caps
    rw [run_hyphenated hnext]
    exact hnext _ _
  rw [hpattern, run_chars1 hsome, run_hyphenated hnext, tagName]
  by_cases hword : cs.takeWhile isAsciiWord = []
  · simp [hword]
  · simp [hword, ← List.drop_drop, drop_length_takeWhile]

theorem run_tagPattern (before cs : List Char) (caps : Captures) :
    run tagPattern next ⟨before, cs⟩ caps =
      (tagAt? cs).bind fun t =>
        next ⟨(t.lead ++ '@' :: t.name).reverse ++ before, t.rest⟩
          ((1, ⟨t.name ++ t.rest, t.rest⟩) :: caps) := by
  -- no blank or star is an at sign, so the run before it is the longest
  have hlead : ∀ before c cs, isLead c = true →
      run (.seq (.one (· == '@')) (.group 1 namePattern)) next ⟨before, c :: cs⟩ caps = none := by
    intro before c cs hc
    have hne : c ≠ '@' := by
      rintro rfl
      exact absurd hc (by decide)
    simp [run, hne]
  have hpattern : run tagPattern next ⟨before, cs⟩ caps =
      runChars isLead (run (.seq (.one (· == '@')) (.group 1 namePattern)) next) caps before cs := rfl
  rw [hpattern, runChars_of_none hlead, tagAt?]
  cases hdrop : cs.dropWhile isLead with
  | nil => rfl
  | cons c behind =>
    by_cases hc : c = '@'
    · subst hc
      simp only [run, beq_self_eq_true, if_true]
      rw [run_namePattern fun here caps => hnext here _]
      by_cases hname : tagName behind = []
      · simp [hname]
      · simp [hname, tagName_append_drop]
    · simp [run, hc]

end Run

/-- The match of a tag whose line starts here; `start` is where the match
starts, at the line or at the mark before it. -/
def TagLine.found (t : TagLine) (start : Cursor) (before : List Char) : Match :=
  ⟨start, ⟨(t.lead ++ '@' :: t.name).reverse ++ before, t.rest⟩, [(1, ⟨t.name ++ t.rest, t.rest⟩)]⟩

theorem TagLine.group_found (t : TagLine) (start : Cursor) (before : List Char) :
    (t.found start before).group 1 = String.ofList t.name := by
  simp [TagLine.found, Match.group, Match.group?, Span.text, Span.chars]

theorem run_tagPattern_found (start : Cursor) (before cs : List Char) :
    run tagPattern (fun there caps => some (Match.mk start there caps)) ⟨before, cs⟩ [] =
      (tagAt? cs).map (·.found start before) := by
  rw [run_tagPattern fun _ _ => rfl, Option.map_eq_bind]
  rfl

/-- Behind a mark the line is read. -/
theorem matchAt?_lineMark (before cs : List Char) :
    matchAt? tagStartPattern ⟨before, lineMark :: cs⟩ =
      (tagAt? cs).map (·.found ⟨before, lineMark :: cs⟩ (lineMark :: before)) := by
  rw [matchAt?, tagStartPattern_eq]
  simp only [run, run_tagPattern_found, tagAt?_lineMark, beq_self_eq_true, if_true, Option.map_none, ite_self]

/-- At the start of the text the first line is read. -/
theorem matchAt?_textStart {cs : List Char} (h : cs.head? ≠ some lineMark) :
    matchAt? tagStartPattern ⟨[], cs⟩ = (tagAt? cs).map (·.found ⟨[], cs⟩ []) := by
  rw [matchAt?, tagStartPattern_eq]
  simp only [run, run_tagPattern_found, List.isEmpty_nil, if_true]
  cases tagAt? cs with
  | some t => rfl
  | none =>
    cases cs with
    | nil => rfl
    | cons c cs =>
      have hc : c ≠ lineMark := by simpa using h
      simp [hc]

/-- Inside a line no tag starts. -/
theorem matchAt?_inside {before cs : List Char} (hbefore : before ≠ []) (h : cs.head? ≠ some lineMark) :
    matchAt? tagStartPattern ⟨before, cs⟩ = none := by
  rw [matchAt?, tagStartPattern_eq]
  cases cs with
  | nil => simp [run, hbefore]
  | cons c cs =>
    have hc : c ≠ lineMark := by simpa using h
    simp [run, hbefore, hc]

theorem TagLine.Of.isEmpty_found {t : TagLine} {cs : List Char} {start : Cursor} (h : t.Of cs)
    (hstart : cs <:+ start.rest) (before : List Char) : (t.found start before).isEmpty = false := by
  have hle := hstart.length_le
  rw [h.line_eq] at hle
  simp only [List.length_append, List.length_cons] at hle
  simp only [Match.isEmpty, TagLine.found, beq_eq_false_iff_ne]
  omega

theorem takesSomething_tagStartPattern : TakesSomething tagStartPattern := by
  rintro ⟨before, cs⟩ m h
  by_cases hmark : cs.head? = some lineMark
  · obtain ⟨line, rfl⟩ := List.head?_eq_some_iff.mp hmark
    rw [matchAt?_lineMark] at h
    obtain ⟨t, ht, rfl⟩ := Option.map_eq_some_iff.mp h
    exact (tagAt?_eq_some_iff.mp ht).isEmpty_found (List.suffix_cons _ _) _
  · by_cases hbefore : before = []
    · rw [hbefore, matchAt?_textStart hmark] at h
      obtain ⟨t, ht, rfl⟩ := Option.map_eq_some_iff.mp h
      exact (tagAt?_eq_some_iff.mp ht).isEmpty_found List.suffix_rfl _
    · rw [matchAt?_inside hbefore hmark] at h
      cases h

end Element
end Docblock
