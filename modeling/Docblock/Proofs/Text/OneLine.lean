/-
# A text as one line

A content is read without the blanks around it and with marks for its ends of
lines (`flat`). The marks can be turned back (`unflatten_flat`), they are no
blanks, and every other character stays. A text is trimmed if it neither starts
nor ends with a blank (`trim_eq_self_iff`), and trimming takes nothing but
blanks at the ends (`exists_stripBlanks`).

Key definitions: `Text.mark`, `Text.flat`, `Text.IsTrimmed`.
Key theorems: `Text.unflatten_flat`, `Text.exists_stripBlanks`,
`Text.trim_eq_self_iff`.
-/
import Docblock.Pattern.Basic
import Docblock.Proofs.Text.Line
import Docblock.Text.Blank
import Mathlib.Data.List.TakeWhile

namespace Docblock
namespace Text

/-! ### Decisions -/

section

variable (p : Char → Prop) [DecidablePred p]

/-- What holds of all characters of a list is decided by going through the list,
not through all characters that there are. -/
instance (priority := 2000) decidableForallMem (cs : List Char) : Decidable (∀ c ∈ cs, p c) :=
  List.decidableBAll p cs

instance (priority := 2000) decidableExistsMem (cs : List Char) : Decidable (∃ c ∈ cs, p c) :=
  List.decidableBEx p cs

/-- And so it is for the first and the last one, where there may be none. -/
instance (priority := 2000) decidableForallMemOption (o : Option Char) : Decidable (∀ c ∈ o, p c) :=
  o.decidableForallMem

end

/-! ### Letters and digits -/

theorem toNat_of_isAlphanum {c : Char} (h : c.isAlphanum = true) :
    (48 ≤ c.toNat ∧ c.toNat ≤ 57) ∨ (65 ≤ c.toNat ∧ c.toNat ≤ 90) ∨ (97 ≤ c.toNat ∧ c.toNat ≤ 122) := by
  delta Char.isAlphanum Char.isAlpha Char.isUpper Char.isLower Char.isDigit at h
  simp only [Bool.or_eq_true, Bool.and_eq_true, decide_eq_true_eq, ge_iff_le, UInt32.le_iff_toNat_le] at h
  have hn : c.toNat = c.val.toNat := rfl
  simp at h
  omega

theorem isBlank_of_isAlphanum {c : Char} (h : c.isAlphanum = true) : isBlank c = false := by
  have hrange := toNat_of_isAlphanum h
  simp [isBlank]
  omega

/-- Letters, digits and others that are no blanks are no blanks. -/
theorem isBlank_of_alnumOr {others : String} (hothers : ∀ c ∈ others.toList, isBlank c = false) {c : Char}
    (h : Pattern.alnumOr others c = true) : isBlank c = false := by
  simp only [Pattern.alnumOr, Bool.or_eq_true, List.contains_iff_mem] at h
  exact h.elim isBlank_of_isAlphanum (hothers c)

/-! ### Marks for the ends of lines -/

/-- A character of a text as one line. -/
def mark (c : Char) : Char := if c == '\n' then lineMark else c

/-- The characters of a text as one line. -/
def flat (s : String) : List Char := s.toList.map mark

theorem toList_flatten (s : String) : (flatten s).toList = flat s := String.toList_ofList

theorem flat_append (s t : String) : flat (s ++ t) = flat s ++ flat t := by
  rw [flat, String.toList_append, List.map_append]
  rfl

theorem mark_ne_newline (c : Char) : mark c ≠ '\n' := by
  unfold mark
  split
  · decide
  · rename_i h
    exact fun heq => h (by rw [heq]; rfl)

theorem newline_not_mem_flat (s : String) : '\n' ∉ flat s := by
  intro h
  obtain ⟨c, -, hc⟩ := List.mem_map.mp h
  exact mark_ne_newline c hc

theorem mark_of_ne {c : Char} (h : c ≠ '\n') : mark c = c := by
  simp [mark, h]

/-- Only an end of line becomes a mark. -/
theorem eq_of_mark_eq {c d : Char} (h : mark c = d) (hd : d ≠ lineMark) : c = d := by
  unfold mark at h
  split at h
  · exact absurd h.symm hd
  · exact h

theorem mem_toList_of_mem_flat {s : String} {c : Char} (h : c ∈ flat s) (hc : c ≠ lineMark) : c ∈ s.toList := by
  obtain ⟨d, hd, hmark⟩ := List.mem_map.mp h
  rwa [← eq_of_mark_eq hmark hc]

theorem isBlank_mark {c : Char} (h : isBlank c = false) : isBlank (mark c) = false := by
  unfold mark
  split
  · decide
  · exact h

theorem flat_of_not_mem {s : String} (h : '\n' ∉ s.toList) : flat s = s.toList :=
  map_replace_of_not_mem h

theorem flat_eq_nil {s : String} : flat s = [] ↔ s = "" := by
  rw [flat, List.map_eq_nil_iff, String.toList_eq_nil_iff]

/-- **The lines come back.** -/
theorem unflatten_flat {s : String} (h : lineMark ∉ s.toList) : unflatten (String.ofList (flat s)) = s := by
  have hback : ∀ c ∈ s.toList, ((fun c => if c == lineMark then '\n' else c) ∘ mark) c = id c := by
    intro c hc
    have hne : c ≠ lineMark := fun heq => h (heq ▸ hc)
    by_cases hend : c = '\n'
    · subst hend
      rfl
    · rw [Function.comp_apply, mark_of_ne hend, if_neg (by simpa using hne), id]
  rw [unflatten, replaceChar, String.toList_ofList, flat, List.map_map, List.map_congr_left hback, List.map_id,
    String.ofList_toList]

/-- A text as one line starts with a character as the lines do. -/
theorem startsWith_unflatten {pre : String} {d : Char} (hpre : pre.toList = [d]) (hend : d ≠ '\n')
    (hmark : d ≠ lineMark) (c : Char) (cs : List Char) :
    startsWith (unflatten (String.ofList (c :: cs))) pre = (c == d) := by
  have hchars : (unflatten (String.ofList (c :: cs))).toList =
      (c :: cs).map fun c => if c == lineMark then '\n' else c := by
    rw [unflatten, replaceChar, String.toList_ofList, String.toList_ofList]
  rw [startsWith, hchars, hpre, List.map_cons, dropPrefix?]
  by_cases hc : c = lineMark
  · subst hc
    simp [hend, Ne.symm hmark]
  · by_cases hd : d = c
    · simp [hc, hd, dropPrefix?]
    · simp [hc, hd, Ne.symm hd]

/-! ### Blanks around a text -/

/-- No blank at the start and none at the end. -/
structure IsTrimmed (cs : List Char) : Prop where
  head : ∀ c ∈ cs.head?, isBlank c = false
  last : ∀ c ∈ cs.getLast?, isBlank c = false

theorem isTrimmed_of_forall {cs : List Char} (h : ∀ c ∈ cs, isBlank c = false) : IsTrimmed cs where
  head := fun c hc => h c (List.mem_of_mem_head? hc)
  last := fun c hc => h c (List.mem_of_mem_getLast? hc)

theorem isBlank_head?_append {cs ds : List Char} (hcs : ∀ c ∈ cs.head?, isBlank c = false)
    (hds : ∀ c ∈ ds.head?, isBlank c = false) : ∀ c ∈ (cs ++ ds).head?, isBlank c = false := by
  intro c hc
  rw [List.head?_append, Option.mem_def, Option.or_eq_some_iff] at hc
  exact hc.elim (hcs c) fun h => hds c h.2

theorem IsTrimmed.append {cs ds : List Char} (hcs : IsTrimmed cs) (hds : IsTrimmed ds) : IsTrimmed (cs ++ ds) where
  head := isBlank_head?_append hcs.head hds.head
  last := by
    intro c hc
    rw [List.getLast?_append, Option.mem_def, Option.or_eq_some_iff] at hc
    exact hc.elim (hds.last c) fun h => hcs.last c h.2

/-- The end of a first piece does not matter, if something follows. -/
theorem IsTrimmed.append_of_ne_nil {cs ds : List Char} (hcs : ∀ c ∈ cs.head?, isBlank c = false) (hds : IsTrimmed ds)
    (hne : ds ≠ []) : IsTrimmed (cs ++ ds) where
  head := isBlank_head?_append hcs hds.head
  last := by
    rw [List.getLast?_append_of_ne_nil cs hne]
    exact hds.last

theorem head?_dropBlanks (cs : List Char) : ∀ c ∈ (dropBlanks cs).head?, isBlank c = false := by
  intro c hc
  have hnot := List.head?_dropWhile_not isBlank cs
  rw [dropBlanks] at hc
  rw [hc] at hnot
  simpa using hnot

theorem getLast?_dropBlanksEnd (cs : List Char) : ∀ c ∈ (dropBlanksEnd cs).getLast?, isBlank c = false := by
  intro c hc
  rw [dropBlanksEnd, List.getLast?_reverse] at hc
  exact head?_dropBlanks _ c hc

theorem getLast?_of_trimEnd {s : String} (h : trimEnd s = s) : ∀ c ∈ s.toList.getLast?, isBlank c = false := by
  rw [trimEnd, ← String.toList_inj, String.toList_ofList] at h
  rw [← h]
  exact getLast?_dropBlanksEnd s.toList

theorem dropBlanksEnd_prefix (cs : List Char) : dropBlanksEnd cs <+: cs := by
  rw [dropBlanksEnd, ← List.reverse_suffix, List.reverse_reverse]
  exact List.dropWhile_suffix isBlank

theorem isTrimmed_stripBlanks (cs : List Char) : IsTrimmed (stripBlanks cs) where
  head := by
    intro c hc
    obtain ⟨more, hmore⟩ := dropBlanksEnd_prefix (dropBlanks cs)
    refine head?_dropBlanks cs c ?_
    rw [stripBlanks] at hc
    rw [← hmore, List.head?_append, Option.mem_def.mp hc]
    rfl
  last := getLast?_dropBlanksEnd _

theorem dropBlanksEnd_eq_nil_iff (cs : List Char) : dropBlanksEnd cs = [] ↔ ∀ c ∈ cs, isBlank c = true := by
  rw [dropBlanksEnd, List.reverse_eq_nil_iff, List.dropWhile_eq_nil_iff]
  simp

/-- Blanks at the end are all in the second piece, if it has anything else. -/
theorem dropBlanksEnd_append {ds : List Char} (h : dropBlanksEnd ds ≠ []) (cs : List Char) :
    dropBlanksEnd (cs ++ ds) = cs ++ dropBlanksEnd ds := by
  have hback : (ds.reverse.dropWhile isBlank).isEmpty = false := by
    simpa [dropBlanksEnd] using h
  rw [dropBlanksEnd, dropBlanksEnd, List.reverse_append, List.dropWhile_append, hback]
  simp

/-- Blanks behind a text that does not end with one are all that is dropped. -/
theorem dropBlanksEnd_append_blanks {cs blanks : List Char} (hcs : ∀ c ∈ cs.getLast?, isBlank c = false)
    (hblanks : ∀ c ∈ blanks, isBlank c = true) : dropBlanksEnd (cs ++ blanks) = cs := by
  have hback : cs.reverse.dropWhile isBlank = cs.reverse := by
    cases hreverse : cs.reverse with
    | nil => rfl
    | cons c rest =>
      have hc : isBlank c = false := hcs c (by rw [← List.head?_reverse, hreverse]; rfl)
      rw [List.dropWhile_cons_of_neg (by simp [hc])]
  rw [dropBlanksEnd, List.reverse_append, List.dropWhile_append_of_pos (fun c hc => hblanks c (List.mem_reverse.mp hc)),
    hback, List.reverse_reverse]

theorem exists_dropBlanksEnd_append (cs : List Char) :
    ∃ blanks, cs = dropBlanksEnd cs ++ blanks ∧ ∀ c ∈ blanks, isBlank c = true := by
  refine ⟨(cs.reverse.takeWhile isBlank).reverse, ?_, fun c hc => List.mem_takeWhile_imp (List.mem_reverse.mp hc)⟩
  rw [dropBlanksEnd, ← List.reverse_append, List.takeWhile_append_dropWhile, List.reverse_reverse]

/-- A text without blanks around it, and those blanks. -/
theorem exists_stripBlanks (cs : List Char) : ∃ before after, cs = before ++ (stripBlanks cs ++ after) ∧
    (∀ c ∈ before, isBlank c = true) ∧ ∀ c ∈ after, isBlank c = true := by
  refine ⟨cs.takeWhile isBlank, ((dropBlanks cs).reverse.takeWhile isBlank).reverse, ?_, ?_, ?_⟩
  · rw [stripBlanks, dropBlanksEnd, ← List.reverse_append, List.takeWhile_append_dropWhile, List.reverse_reverse,
      dropBlanks, List.takeWhile_append_dropWhile]
  · exact fun c hc => List.mem_takeWhile_imp hc
  · exact fun c hc => List.mem_takeWhile_imp (List.mem_reverse.mp hc)

theorem dropBlanks_eq_self {cs : List Char} (h : ∀ c ∈ cs.head?, isBlank c = false) : dropBlanks cs = cs := by
  cases cs with
  | nil => rfl
  | cons c cs =>
    have hc : isBlank c = false := h c rfl
    rw [dropBlanks, List.dropWhile_cons_of_neg (by simp [hc])]

theorem dropBlanks_append {gap : List Char} (h : ∀ c ∈ gap, isBlank c = true) (cs : List Char) :
    dropBlanks (gap ++ cs) = dropBlanks cs :=
  List.dropWhile_append_of_pos h

theorem IsTrimmed.stripBlanks_eq {cs : List Char} (h : IsTrimmed cs) : stripBlanks cs = cs := by
  have hlast : dropBlanks cs.reverse = cs.reverse :=
    dropBlanks_eq_self fun c hc => h.last c (by rwa [List.head?_reverse] at hc)
  rw [stripBlanks, dropBlanks_eq_self h.head, dropBlanksEnd]
  exact (congrArg List.reverse hlast).trans (List.reverse_reverse cs)

/-- Only blanks at the end of what follows are lost. -/
theorem IsTrimmed.stripBlanks_append {cs : List Char} (h : IsTrimmed cs) (hne : cs ≠ []) (ds : List Char) :
    stripBlanks (cs ++ ds) = cs ++ dropBlanksEnd ds := by
  have hfront : dropBlanks (cs ++ ds) = cs ++ ds := by
    refine dropBlanks_eq_self fun c hc => h.head c ?_
    rwa [List.head?_append_of_ne_nil _ hne] at hc
  have hback : cs.reverse.dropWhile isBlank = cs.reverse :=
    dropBlanks_eq_self fun c hc => h.last c (by rwa [List.head?_reverse] at hc)
  rw [stripBlanks, hfront, dropBlanksEnd, dropBlanksEnd, List.reverse_append, List.dropWhile_append, hback]
  split
  · rename_i hempty
    rw [List.isEmpty_iff.mp hempty, List.reverse_reverse, List.reverse_nil, List.append_nil]
  · rw [List.reverse_append, List.reverse_reverse]

/-- Without the blanks it ends with, a text is blanks and then the text without
blanks around it. -/
theorem exists_dropBlanksEnd (cs : List Char) : ∃ gap, dropBlanksEnd cs = gap ++ stripBlanks cs ∧
    (∀ c ∈ gap, isBlank c = true) ∧ (stripBlanks cs = [] → gap = []) := by
  obtain ⟨before, after, hcs, hbefore, hafter⟩ := exists_stripBlanks cs
  by_cases hempty : stripBlanks cs = []
  · refine ⟨[], ?_, by simp, fun _ => rfl⟩
    rw [hempty, List.nil_append] at hcs
    rw [hempty, dropBlanksEnd, List.reverse_eq_iff, List.append_nil, List.reverse_nil, List.dropWhile_eq_nil_iff, hcs]
    intro c hc
    rw [List.mem_reverse, List.mem_append] at hc
    exact hc.elim (hbefore c) (hafter c)
  · refine ⟨before, ?_, hbefore, fun h => absurd h hempty⟩
    have hlast : dropBlanks (before ++ stripBlanks cs).reverse = (before ++ stripBlanks cs).reverse := by
      refine dropBlanks_eq_self fun c hc => (isTrimmed_stripBlanks cs).last c ?_
      rwa [List.head?_reverse, List.getLast?_append_of_ne_nil _ hempty] at hc
    have hreverse : cs.reverse = after.reverse ++ (before ++ stripBlanks cs).reverse := by
      rw [← List.reverse_append, List.append_assoc, ← hcs]
    rw [dropBlanksEnd, hreverse, List.dropWhile_append_of_pos (fun c hc => hafter c (List.mem_reverse.mp hc)),
      ← dropBlanks, hlast, List.reverse_reverse]

theorem trim_eq_self_iff {s : String} : trim s = s ↔ IsTrimmed s.toList := by
  constructor
  · intro h
    have htrim := isTrimmed_stripBlanks s.toList
    rwa [← String.toList_ofList (l := stripBlanks s.toList), ← trim, h] at htrim
  · intro h
    rw [trim, h.stripBlanks_eq, String.ofList_toList]

/-- Marks are no blanks. -/
theorem IsTrimmed.flat {s : String} (h : IsTrimmed s.toList) : IsTrimmed (Text.flat s) where
  head := by
    intro c hc
    rw [Text.flat, List.head?_map] at hc
    obtain ⟨d, hd, rfl⟩ := Option.map_eq_some_iff.mp hc
    exact isBlank_mark (h.head d hd)
  last := by
    intro c hc
    rw [Text.flat, List.getLast?_map] at hc
    obtain ⟨d, hd, rfl⟩ := Option.map_eq_some_iff.mp hc
    exact isBlank_mark (h.last d hd)

/-- What a text starts with, other than an end of line, it starts with as one line. -/
theorem head?_flat {s : String} {c : Char} (h : (flat s).head? = some c) (hc : c ≠ lineMark) :
    s.toList.head? = some c := by
  rw [flat, List.head?_map] at h
  obtain ⟨d, hd, hmark⟩ := Option.map_eq_some_iff.mp h
  rw [hd, eq_of_mark_eq hmark hc]

end Text
end Docblock
