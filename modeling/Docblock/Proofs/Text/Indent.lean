/-
# The indentation of a text

Two lines decide how far a text is indented, and they decide for all of them. In
the order of texts, what two lines both start with all lines between them start
with (`prefix_of_between`), and every line with content stands between the first
and the last of these. So the blanks that these two share are the longest ones
that every line with content starts with (`isIndent_indentation`), and
`unindent` takes as many characters from every line (`unindent_eq`). Only
blanks are lost, and in front of the lines with content there is nothing left
to be taken (`IsShared.of_drop`), so a second time changes nothing. Blanks at the end
of a text do not count for its indentation (`indentation_concat`), so they can be
dropped before or after (`unindent_trimEnd`).

Key definitions: `Text.linesOf`, `Text.IsShared`, `Text.IsIndent`,
`Text.indentation`.
Key theorems: `Text.prefix_of_between`, `Text.isIndent_indentation`,
`Text.linesOf_unindent`, `Text.unindent_eq`, `Text.unindent_trimEnd`.
-/
import Docblock.Proofs.Text.Line
import Docblock.Proofs.Text.OneLine
import Docblock.Proofs.Version.Order
import Docblock.Text.Indent

namespace Docblock
namespace Text

open Std

/-- The lines of a text. -/
def linesOf (s : String) : List (List Char) := splitChars (· == '\n') s.toList

/-- Blanks that every line with content starts with. -/
def IsShared (lines : List (List Char)) (w : List Char) : Prop :=
  (∀ c ∈ w, isBlank c = true) ∧ ∀ line ∈ lines, isFilled line = true → w <+: line

/-- The longest blanks that every line with content starts with; none if there
is no such line. -/
structure IsIndent (lines : List (List Char)) (w : List Char) : Prop where
  shared : IsShared lines w
  longest : (∃ line ∈ lines, isFilled line = true) → ∀ v, IsShared lines v → v.length ≤ w.length
  none : (∀ line ∈ lines, isFilled line = false) → w = []

/-! ### What two lines share -/

theorem sharedBlanks_prefix : ∀ a b : List Char, sharedBlanks a b <+: a ∧ sharedBlanks a b <+: b
  | [], _ => ⟨List.nil_prefix, List.nil_prefix⟩
  | _ :: _, [] => ⟨List.nil_prefix, List.nil_prefix⟩
  | x :: a, y :: b => by
    obtain ⟨ha, hb⟩ := sharedBlanks_prefix a b
    rw [sharedBlanks]
    split_ifs with h
    · simp only [Bool.and_eq_true, beq_iff_eq] at h
      rw [List.cons_prefix_cons, List.cons_prefix_cons]
      exact ⟨⟨rfl, ha⟩, h.2, hb⟩
    · exact ⟨List.nil_prefix, List.nil_prefix⟩

theorem isBlank_of_mem_sharedBlanks : ∀ {a b : List Char} {c : Char}, c ∈ sharedBlanks a b → isBlank c = true
  | [], _, _, h => absurd h List.not_mem_nil
  | _ :: _, [], _, h => absurd h List.not_mem_nil
  | x :: a, y :: b, c, h => by
    rw [sharedBlanks] at h
    split_ifs at h with hxy
    · simp only [Bool.and_eq_true] at hxy
      rcases List.mem_cons.mp h with rfl | h
      · exact hxy.1
      · exact isBlank_of_mem_sharedBlanks h
    · exact absurd h List.not_mem_nil

/-- No longer blanks are shared by the two. -/
theorem prefix_sharedBlanks : ∀ {w a b : List Char}, (∀ c ∈ w, isBlank c = true) → w <+: a → w <+: b →
    w <+: sharedBlanks a b
  | [], _, _, _, _, _ => List.nil_prefix
  | c :: w, a, b, hw, ha, hb => by
    obtain ⟨more, rfl⟩ := ha
    obtain ⟨rest, rfl⟩ := hb
    rw [List.forall_mem_cons] at hw
    have ih : w <+: sharedBlanks (w ++ more) (w ++ rest) :=
      prefix_sharedBlanks hw.2 (List.prefix_append _ _) (List.prefix_append _ _)
    simp only [List.cons_append, sharedBlanks, hw.1, beq_self_eq_true, Bool.and_self, ↓reduceIte]
    exact List.cons_prefix_cons.mpr ⟨rfl, ih⟩

/-! ### The first and the last line stand for all -/

/-- **What two texts start with, all texts between them start with.** -/
theorem prefix_of_between : ∀ {p a b c : List Char}, p <+: a → p <+: c → (compareChars a b).isLE = true →
    (compareChars b c).isLE = true → p <+: b
  | [], _, _, _, _, _, _, _ => List.nil_prefix
  | x :: p, a, b, c, ha, hc, hab, hbc => by
    obtain ⟨a, rfl⟩ := ha
    obtain ⟨c, rfl⟩ := hc
    cases b with
    | nil => cases hab
    | cons y b =>
      rw [List.cons_append, compareChars] at hab hbc
      -- the first characters cannot differ in either comparison
      rcases Nat.lt_trichotomy x.toNat y.toNat with hlt | heq | hgt
      · rw [Nat.compare_eq_gt.mpr hlt] at hbc
        cases hbc
      · rw [Nat.compare_eq_eq.mpr heq] at hab
        rw [Nat.compare_eq_eq.mpr heq.symm] at hbc
        obtain rfl : x = y := Char.toNat_inj.mp heq
        exact List.cons_prefix_cons.mpr
          ⟨rfl, prefix_of_between (List.prefix_append p a) (List.prefix_append p c) hab hbc⟩
      · rw [Nat.compare_eq_gt.mpr hgt] at hab
        cases hab

/-- Where one of two is chosen that stands in a relation to both, going through
a list chooses one that stands in it to all. -/
theorem foldl_chosen {r : List Char → List Char → Prop} {choose : List Char → List Char → List Char}
    (hrefl : ∀ a, r a a) (htrans : ∀ a b c, r a b → r b c → r a c)
    (hone : ∀ a b, choose a b = a ∨ choose a b = b) (hboth : ∀ a b, r (choose a b) a ∧ r (choose a b) b) :
    ∀ (others : List (List Char)) (line : List Char), others.foldl choose line ∈ line :: others ∧
      ∀ l ∈ line :: others, r (others.foldl choose line) l
  | [], line => ⟨List.mem_singleton.mpr rfl, fun l hl => List.mem_singleton.mp hl ▸ hrefl line⟩
  | next :: others, line => by
    obtain ⟨hmem, hall⟩ := foldl_chosen hrefl htrans hone hboth others (choose line next)
    obtain ⟨hchosen, hothers⟩ := List.forall_mem_cons.mp hall
    obtain ⟨hline, hnext⟩ := hboth line next
    rw [List.foldl_cons]
    refine ⟨?_, ?_⟩
    · rcases List.mem_cons.mp hmem with heq | hmem
      · rw [heq]
        rcases hone line next with h | h <;> simp [h]
      · exact List.mem_cons_of_mem _ (List.mem_cons_of_mem _ hmem)
    · rw [List.forall_mem_cons, List.forall_mem_cons]
      exact ⟨htrans _ _ _ hchosen hline, htrans _ _ _ hchosen hnext, hothers⟩

/-- No line is before the first. -/
theorem foldl_earlier (others : List (List Char)) (line : List Char) :
    others.foldl earlier line ∈ line :: others ∧
      ∀ l ∈ line :: others, (compareChars (others.foldl earlier line) l).isLE = true := by
  refine foldl_chosen (r := fun a b => (compareChars a b).isLE = true) (fun _ => ReflCmp.isLE_rfl)
    (fun _ _ _ => TransCmp.isLE_trans) (fun a b => ?_) (fun a b => ?_) others line
  · unfold earlier
    split_ifs <;> simp
  · have hswap : compareChars b a = (compareChars a b).swap := OrientedCmp.eq_swap
    unfold earlier
    split_ifs with h
    · rw [beq_iff_eq] at h
      exact ⟨by rw [hswap, h]; rfl, ReflCmp.isLE_rfl⟩
    · rw [beq_iff_eq] at h
      exact ⟨ReflCmp.isLE_rfl, Ordering.isLE_iff_ne_gt.mpr h⟩

/-- No line is behind the last. -/
theorem foldl_later (others : List (List Char)) (line : List Char) :
    others.foldl later line ∈ line :: others ∧
      ∀ l ∈ line :: others, (compareChars l (others.foldl later line)).isLE = true := by
  refine foldl_chosen (r := fun a b => (compareChars b a).isLE = true) (fun _ => ReflCmp.isLE_rfl)
    (fun _ _ _ hab hbc => TransCmp.isLE_trans hbc hab) (fun a b => ?_) (fun a b => ?_) others line
  · unfold later
    split_ifs <;> simp
  · have hswap : compareChars b a = (compareChars a b).swap := OrientedCmp.eq_swap
    unfold later
    split_ifs with h
    · rw [beq_iff_eq] at h
      exact ⟨ReflCmp.isLE_rfl, by rw [hswap, h]; rfl⟩
    · rw [beq_iff_eq] at h
      exact ⟨Ordering.isLE_iff_ne_gt.mpr h, ReflCmp.isLE_rfl⟩

/-- What the first and the last line with content share. -/
def indentation (lines : List (List Char)) : List Char :=
  match lines.filter isFilled with
  | [] => []
  | line :: others => sharedBlanks (others.foldl earlier line) (others.foldl later line)

theorem length_indentation (lines : List (List Char)) : (indentation lines).length = indentWidth lines := by
  unfold indentation indentWidth
  cases lines.filter isFilled <;> rfl

/-- **The first and the last line decide for all.** What they share is the
indentation of the lines. -/
theorem isIndent_indentation (lines : List (List Char)) : IsIndent lines (indentation lines) := by
  unfold indentation
  split
  · rename_i hnone
    have hblank : ∀ line ∈ lines, isFilled line = false := by simpa using hnone
    refine ⟨⟨by simp, fun _ _ _ => List.nil_prefix⟩, fun hfilled => ?_, fun _ => rfl⟩
    obtain ⟨line, hline, hcontent⟩ := hfilled
    simp [hblank line hline] at hcontent
  · rename_i line others hfilled
    have hmem : ∀ l, l ∈ line :: others ↔ l ∈ lines ∧ isFilled l = true := by
      intro l
      rw [← hfilled, List.mem_filter]
    obtain ⟨hfirst, hbefore⟩ := foldl_earlier others line
    obtain ⟨hlast, hbehind⟩ := foldl_later others line
    obtain ⟨hstart, hend⟩ := sharedBlanks_prefix (others.foldl earlier line) (others.foldl later line)
    refine ⟨⟨fun c => isBlank_of_mem_sharedBlanks, fun l hl hcontent => ?_⟩, fun _ v hv => ?_, fun hblank => ?_⟩
    · have hl := (hmem l).mpr ⟨hl, hcontent⟩
      exact prefix_of_between hstart hend (hbefore l hl) (hbehind l hl)
    · obtain ⟨hfirst, hcontent⟩ := (hmem _).mp hfirst
      obtain ⟨hlast, hcontent'⟩ := (hmem _).mp hlast
      exact (prefix_sharedBlanks hv.1 (hv.2 _ hfirst hcontent) (hv.2 _ hlast hcontent')).length_le
    · obtain ⟨hline, hcontent⟩ := (hmem line).mp List.mem_cons_self
      simp [hblank line hline] at hcontent

variable {lines : List (List Char)} {v w : List Char}

/-- Lines have one indentation. -/
theorem IsIndent.unique (hv : IsIndent lines v) (hw : IsIndent lines w) : v = w := by
  by_cases hfilled : ∃ line ∈ lines, isFilled line = true
  · have hlength : v.length = w.length :=
      Nat.le_antisymm (hw.longest hfilled v hv.shared) (hv.longest hfilled w hw.shared)
    obtain ⟨line, hline, hcontent⟩ := hfilled
    exact (List.prefix_of_prefix_length_le (hv.shared.2 line hline hcontent) (hw.shared.2 line hline hcontent)
      hlength.le).eq_of_length hlength
  · have hblank : ∀ line ∈ lines, isFilled line = false := by simpa using hfilled
    rw [hv.none hblank, hw.none hblank]

/-! ### Lines without their indentation -/

/-- A line loses no content. -/
theorem IsShared.filter_drop (h : IsShared lines w) {line : List Char} (hline : line ∈ lines) :
    (line.drop w.length).filter (fun c => !isBlank c) = line.filter fun c => !isBlank c := by
  have hblanks : ∀ {cs : List Char}, (∀ c ∈ cs, isBlank c = true) → cs.filter (fun c => !isBlank c) = [] := by
    intro cs hcs
    simpa using hcs
  by_cases hcontent : isFilled line = true
  · obtain ⟨rest, rfl⟩ := h.2 line hline hcontent
    rw [List.drop_left, List.filter_append, hblanks h.1, List.nil_append]
  · have hall : ∀ c ∈ line, isBlank c = true := by simpa [isFilled] using hcontent
    rw [hblanks hall, hblanks fun c hc => hall c (List.mem_of_mem_drop hc)]

theorem IsShared.isFilled_drop (h : IsShared lines w) {line : List Char} (hline : line ∈ lines) :
    isFilled (line.drop w.length) = isFilled line := by
  have hkept : ∀ cs : List Char, isFilled cs = isFilled (cs.filter fun c => !isBlank c) := by
    simp [isFilled]
  rw [hkept, hkept line, h.filter_drop hline]

/-- Blanks that the lines still share make the shared ones longer. -/
theorem IsShared.of_drop (hw : IsShared lines w) (hv : IsShared (lines.map (List.drop w.length)) v) :
    IsShared lines (w ++ v) := by
  refine ⟨fun c hc => (List.mem_append.mp hc).elim (hw.1 c) (hv.1 c), fun line hline hcontent => ?_⟩
  have hrest := hv.2 _ (List.mem_map_of_mem hline) (by rwa [hw.isFilled_drop hline])
  obtain ⟨rest, rfl⟩ := hw.2 line hline hcontent
  rw [List.drop_left] at hrest
  exact List.prefix_append_right_inj w |>.mpr hrest

/-- Lines without their indentation have none. -/
theorem IsIndent.indentation_drop (h : IsIndent lines w) :
    indentation (lines.map (List.drop w.length)) = [] := by
  have hrest := isIndent_indentation (lines.map (List.drop w.length))
  by_cases hfilled : ∃ line ∈ lines, isFilled line = true
  · have hle := h.longest hfilled _ (h.shared.of_drop hrest.shared)
    rw [List.length_append] at hle
    exact List.eq_nil_of_length_eq_zero (by omega)
  · refine hrest.none fun l hl => ?_
    obtain ⟨line, hline, rfl⟩ := List.mem_map.mp hl
    rw [h.shared.isFilled_drop hline]
    simpa using fun hcontent => hfilled ⟨line, hline, hcontent⟩

/-! ### The text -/

/-- The lines of a text, with an end of line between any two, are the text. -/
theorem intercalate_linesOf (s : String) : ['\n'].intercalate (linesOf s) = s.toList := by
  obtain ⟨line, more, hsplit, hs, -⟩ := exists_splitChars '\n' s.toList
  rw [linesOf, hsplit, intercalate_eq_behindEnds, ← hs]

theorem unindent_eq_intercalate (s : String) : unindent s =
    String.ofList (['\n'].intercalate ((linesOf s).map (List.drop (indentation (linesOf s)).length))) := by
  rw [length_indentation]
  rfl

/-- The lines afterwards are the lines before without their indentation. -/
theorem linesOf_unindent (s : String) :
    linesOf (unindent s) = (linesOf s).map (List.drop (indentation (linesOf s)).length) := by
  obtain ⟨line, more, hsplit, -, hfree⟩ := exists_splitChars '\n' s.toList
  have hlines : linesOf s = line :: more := hsplit
  rw [unindent_eq_intercalate, linesOf, String.toList_ofList, hlines, List.map_cons, intercalate_eq_behindEnds]
  refine splitChars_behindEnds fun l hl => ?_
  rw [← List.map_cons] at hl
  obtain ⟨before, hbefore, rfl⟩ := List.mem_map.mp hl
  exact fun hmem => hfree before hbefore (List.mem_of_mem_drop hmem)

/-- The content of a text is that of its lines. -/
theorem filter_toList (s : String) :
    s.toList.filter (fun c => !isBlank c) = (linesOf s).flatMap (List.filter fun c => !isBlank c) := by
  obtain ⟨line, more, hsplit, hs, -⟩ := exists_splitChars '\n' s.toList
  have hends : ∀ more : List (List Char), (behindEnds '\n' more).filter (fun c => !isBlank c) =
      more.flatMap (List.filter fun c => !isBlank c) := by
    intro more
    induction more with
    | nil => rfl
    | cons next more ih =>
      rw [behindEnds_cons, List.filter_cons_of_neg (by decide), List.filter_append, ih, List.flatMap_cons]
  rw [linesOf, hsplit, hs, List.filter_append, hends, List.flatMap_cons]

/-- **A text loses its indentation, and nothing else.** There is one longest
text of blanks that every line with content starts with, taken as empty if no
line has content. As many characters as it has are dropped from every line, or
all of a line that is shorter. So each line with content is what is left of it
behind these blanks, no character but blanks is lost, and doing it again changes
nothing. -/
theorem unindent_eq (s : String) :
    (∃ w, (∀ v, IsIndent (linesOf s) v ↔ v = w) ∧
      unindent s = String.ofList (['\n'].intercalate ((linesOf s).map (List.drop w.length))) ∧
      linesOf (unindent s) = (linesOf s).map (List.drop w.length) ∧
      ∀ line ∈ linesOf s, isFilled line = true → line = w ++ line.drop w.length) ∧
    (unindent s).toList.filter (fun c => !isBlank c) = s.toList.filter (fun c => !isBlank c) ∧
    unindent (unindent s) = unindent s := by
  have hindent := isIndent_indentation (linesOf s)
  refine ⟨⟨indentation (linesOf s), fun v => ?_, unindent_eq_intercalate s, linesOf_unindent s, ?_⟩, ?_, ?_⟩
  · exact ⟨fun hv => hv.unique hindent, fun heq => heq ▸ hindent⟩
  · intro line hline hcontent
    exact List.prefix_iff_eq_append.mp (hindent.shared.2 line hline hcontent) |>.symm
  · rw [filter_toList, filter_toList, linesOf_unindent, List.flatMap_map]
    exact List.flatMap_congr fun line hline => hindent.shared.filter_drop hline
  · have hzero : (List.drop ([] : List Char).length : List Char → List Char) = id := rfl
    rw [unindent_eq_intercalate (unindent s), linesOf_unindent, hindent.indentation_drop, ← linesOf_unindent,
      hzero, List.map_id, intercalate_linesOf, String.ofList_toList]

example : unindent "\t a\n\n\t\u2003b\n \t" = " a\n\n\u2003b\n\t" := by decide

/-! ### Blanks at the end -/

/-- One more character is the last one of the last line, or begins a new line. -/
theorem exists_splitChars_concat (cs : List Char) (c : Char) : ∃ init last,
    splitChars (· == '\n') cs = init ++ [last] ∧
      splitChars (· == '\n') (cs ++ [c]) = init ++ if c = '\n' then [last, []] else [last ++ [c]] := by
  induction cs with
  | nil =>
    refine ⟨[], [], rfl, ?_⟩
    by_cases hc : c = '\n' <;> simp [splitChars, hc]
  | cons d cs ih =>
    obtain ⟨init, last, hsplit, hmore⟩ := ih
    by_cases hd : d = '\n'
    · exact ⟨[] :: init, last, by simp [splitChars, hd, hsplit], by simp [splitChars, hd, hmore]⟩
    · cases init with
      | nil =>
        refine ⟨[], d :: last, by simp [splitChars, hd, hsplit], ?_⟩
        split_ifs at hmore ⊢ <;> simp [splitChars, hd, hmore]
      | cons line init =>
        exact ⟨(d :: line) :: init, last, by simp [splitChars, hd, hsplit], by simp [splitChars, hd, hmore]⟩

theorem intercalate_concat (init : List (List Char)) (last more : List Char) :
    ['\n'].intercalate (init ++ [last ++ more]) = ['\n'].intercalate (init ++ [last]) ++ more := by
  cases init with
  | nil => simp
  | cons line init =>
    simp only [List.cons_append, intercalate_eq_behindEnds, behindEnds_append, behindEnds_cons, behindEnds_nil,
      List.append_nil, List.append_assoc]

theorem intercalate_newline (init : List (List Char)) (last : List Char) :
    ['\n'].intercalate (init ++ [last, []]) = ['\n'].intercalate (init ++ [last]) ++ ['\n'] := by
  cases init with
  | nil => simp
  | cons line init =>
    simp only [List.cons_append, intercalate_eq_behindEnds, behindEnds_append, behindEnds_cons, behindEnds_nil,
      List.append_nil, List.append_assoc]

/-- Blanks that a filled line starts with end before its last blank. -/
theorem prefix_concat_iff {line w : List Char} {c : Char} (hline : isFilled line = true)
    (hw : ∀ d ∈ w, isBlank d = true) : w <+: line ++ [c] ↔ w <+: line := by
  rw [List.prefix_concat_iff, or_iff_right]
  rintro rfl
  have hblank : isFilled line = false := by
    simpa [isFilled] using fun d hd => hw d (List.mem_append_left _ hd)
  rw [hline] at hblank
  cases hblank

/-- **A blank at the end does not change the indentation.** -/
theorem indentation_concat (init : List (List Char)) (last : List Char) {c : Char} (hc : isBlank c = true) :
    indentation (init ++ [last ++ [c]]) = indentation (init ++ [last]) := by
  have hfilled : isFilled (last ++ [c]) = isFilled last := by simp [isFilled, hc]
  by_cases hlast : isFilled last = true
  · have hshared : ∀ v, IsShared (init ++ [last ++ [c]]) v ↔ IsShared (init ++ [last]) v := by
      intro v
      refine and_congr_right fun hv => ?_
      simp only [List.forall_mem_append, List.forall_mem_singleton, hfilled, hlast, forall_const,
        prefix_concat_iff hlast hv]
    have hindent := isIndent_indentation (init ++ [last])
    have hsome : ∃ line ∈ init ++ [last], isFilled line = true := ⟨last, by simp, hlast⟩
    refine (isIndent_indentation _).unique ⟨(hshared _).mpr hindent.shared,
      fun _ v hv => hindent.longest hsome v ((hshared v).mp hv), fun hnone => ?_⟩
    have hblank := hnone (last ++ [c]) (by simp)
    rw [hfilled, hlast] at hblank
    cases hblank
  · have hnone : isFilled last = false := by simpa using hlast
    rw [indentation, indentation, List.filter_append, List.filter_append]
    simp [hfilled, hnone]

theorem indentation_newline (init : List (List Char)) (last : List Char) :
    indentation (init ++ [last, []]) = indentation (init ++ [last]) := by
  have hempty : isFilled [] = false := rfl
  rw [indentation, indentation, List.filter_append, List.filter_append]
  simp [List.filter_cons, hempty]

/-- The text without its indentation, as characters. -/
def unindented (cs : List Char) : List Char :=
  let lines := splitChars (· == '\n') cs
  ['\n'].intercalate (lines.map (List.drop (indentation lines).length))

theorem toList_unindent (s : String) : (unindent s).toList = unindented s.toList := by
  rw [unindent_eq_intercalate, String.toList_ofList]
  rfl

/-- The step: a blank at the end is at the end afterwards, or it is lost. -/
theorem exists_unindented_concat (cs : List Char) {c : Char} (hc : isBlank c = true) :
    ∃ more, unindented (cs ++ [c]) = unindented cs ++ more ∧ ∀ d ∈ more, isBlank d = true := by
  obtain ⟨init, last, hsplit, hmore⟩ := exists_splitChars_concat cs c
  simp only [unindented, hsplit, hmore]
  by_cases hnewline : c = '\n'
  · refine ⟨['\n'], ?_, by decide⟩
    simp only [if_pos hnewline, indentation_newline, List.map_append, List.map_cons, List.map_nil, List.drop_nil,
      intercalate_newline]
  · refine ⟨[c].drop ((indentation (init ++ [last])).length - last.length), ?_, fun d hd => ?_⟩
    · simp only [if_neg hnewline, indentation_concat init last hc, List.map_append, List.map_cons, List.map_nil,
        List.drop_append, intercalate_concat]
    · obtain rfl : d = c := List.mem_singleton.mp (List.mem_of_mem_drop hd)
      exact hc

/-- The run: so it is with all blanks at the end. -/
theorem exists_unindented_append : ∀ {blanks : List Char} (_ : ∀ c ∈ blanks, isBlank c = true) (cs : List Char),
    ∃ more, unindented (cs ++ blanks) = unindented cs ++ more ∧ ∀ d ∈ more, isBlank d = true
  | [], _, cs => ⟨[], by simp, by simp⟩
  | c :: blanks, hblanks, cs => by
    rw [List.forall_mem_cons] at hblanks
    obtain ⟨first, hfirst, hfirstBlank⟩ := exists_unindented_concat cs hblanks.1
    obtain ⟨more, hmore, hmoreBlank⟩ := exists_unindented_append hblanks.2 (cs ++ [c])
    refine ⟨first ++ more, ?_, List.forall_mem_append.mpr ⟨hfirstBlank, hmoreBlank⟩⟩
    rw [List.append_cons, hmore, hfirst, List.append_assoc]

/-- A text that does not end with a blank does not do so afterwards. -/
theorem getLast?_unindented {cs : List Char} (h : ∀ c ∈ cs.getLast?, isBlank c = false) :
    ∀ c ∈ (unindented cs).getLast?, isBlank c = false := by
  obtain rfl | ⟨front, c, rfl⟩ := cs.eq_nil_or_concat
  · simp [unindented, splitChars]
  · have hc : isBlank c = false := h c (by simp)
    have hnewline : c ≠ '\n' := by
      rintro rfl
      exact absurd hc (by decide)
    obtain ⟨init, last, -, hmore⟩ := exists_splitChars_concat front c
    rw [if_neg hnewline] at hmore
    have hfilled : isFilled (last ++ [c]) = true := by simp [isFilled, hc]
    have hshared := (isIndent_indentation (init ++ [last ++ [c]])).shared
    -- the indentation ends before the last character
    have hlength : (indentation (init ++ [last ++ [c]])).length ≤ last.length := by
      rcases List.prefix_concat_iff.mp (hshared.2 (last ++ [c]) (by simp) hfilled) with heq | hprefix
      · have hblank := hshared.1 c (by rw [heq]; simp)
        rw [hc] at hblank
        cases hblank
      · exact hprefix.length_le
    have hlast : unindented (front ++ [c]) = ['\n'].intercalate
        ((init ++ [last]).map (List.drop (indentation (init ++ [last ++ [c]])).length)) ++ [c] := by
      simp only [unindented, hmore, List.map_append, List.map_cons, List.map_nil,
        List.drop_append_of_le_length hlength, intercalate_concat]
    rw [List.concat_eq_append, hlast]
    simpa using hc

/-- **Blanks at the end can be dropped before the indentation or after it.** -/
theorem unindent_trimEnd (s : String) : unindent (trimEnd s) = trimEnd (unindent s) := by
  obtain ⟨blanks, hs, hblanks⟩ := exists_dropBlanksEnd_append s.toList
  obtain ⟨more, hmore, hmoreBlank⟩ := exists_unindented_append hblanks (dropBlanksEnd s.toList)
  have hlast := getLast?_unindented (getLast?_dropBlanksEnd s.toList)
  rw [← String.toList_inj, toList_unindent, trimEnd, trimEnd, String.toList_ofList, String.toList_ofList, toList_unindent]
  calc unindented (dropBlanksEnd s.toList) = dropBlanksEnd (unindented (dropBlanksEnd s.toList) ++ more) :=
        (dropBlanksEnd_append_blanks hlast hmoreBlank).symm
    _ = dropBlanksEnd (unindented s.toList) := by rw [← hmore, ← hs]

end Text
end Docblock
