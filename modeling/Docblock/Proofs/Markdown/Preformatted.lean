/-
# Preformatted text keeps its line breaks

Markup is plain text and preformatted text by turns: plain up to the first
opening tag, preformatted from there to the end of the next closing tag, and so
on; what is not closed is preformatted to the end. A text has exactly one such
division (`exists_divided`, `Divided.unique`), and collapsing changes its plain
stretches alone (`Divided.collapseChars_eq`): each CRLF, and then each LF or CR
that is left, becomes one space (`joinLines_eq_spaced`).

The tags have no line break and no space in them. So a tag is in a stretch with
spaces if and only if it was in the stretch with line breaks
(`IsTag.infix_joinLines_iff`), the collapsed text is divided where the text was
(`Divided.collapsed`), and collapsing it again finds nothing to do.

Key definitions: `Markdown.spaced`, `Markdown.IsTag`, `Markdown.Stretch`,
`Markdown.Divided`.
Key theorems: `Markdown.joinLines_eq_spaced`,
`Markdown.IsTag.infix_joinLines_iff`, `Markdown.Divided.unique`,
`Markdown.Divided.collapseChars_eq`, `Markdown.Divided.collapsed`,
`Markdown.preformatted_text_kept`.
-/
import Docblock.Markdown.Field
import Docblock.Proofs.Text.Cut

namespace Docblock
namespace Markdown

/-! ### Line breaks in plain text -/

/-- Each CRLF becomes a space, and then each LF or CR that is left. -/
def spaced (cs : List Char) : List Char :=
  (Text.replaceChars ['\r', '\n'] [' '] 0 cs).map fun c => if c = '\n' ∨ c = '\r' then ' ' else c

/-- **One pass over the text does both.** -/
theorem joinLines_eq_spaced (cs : List Char) : joinLines cs = spaced cs := by
  fun_induction joinLines cs with
  | case1 => rfl
  | case2 cs ih =>
    rw [ih]
    simp [spaced, Text.replaceChars, Text.dropPrefix?]
  | case3 c cs hbreak ih =>
    have hnone : Text.dropPrefix? ['\r', '\n'] (c :: cs) = none := by
      rw [Text.dropPrefix?_eq_none_iff]
      rintro ⟨rest, hrest⟩
      obtain ⟨rfl, rfl⟩ := List.cons.inj hrest
      exact hbreak rest rfl rfl
    rw [ih, spaced, spaced, Text.replaceChars, hnone]
    simp

/-- No line break is left. -/
theorem not_mem_joinLines (cs : List Char) : '\r' ∉ joinLines cs ∧ '\n' ∉ joinLines cs := by
  fun_induction joinLines cs with
  | case1 => simp
  | case2 cs ih => simpa using ih
  | case3 c cs _ ih =>
    rw [List.mem_cons, List.mem_cons, not_or, not_or]
    split_ifs with hc
    · exact ⟨⟨by decide, ih.1⟩, by decide, ih.2⟩
    · rw [Bool.or_eq_true, beq_iff_eq, beq_iff_eq, not_or] at hc
      exact ⟨⟨Ne.symm hc.2, ih.1⟩, Ne.symm hc.1, ih.2⟩

/-- Nothing else is changed. -/
theorem joinLines_of_not_mem {cs : List Char} (hcr : '\r' ∉ cs) (hlf : '\n' ∉ cs) : joinLines cs = cs := by
  fun_induction joinLines cs with
  | case1 => rfl
  | case2 cs ih => exact absurd List.mem_cons_self hcr
  | case3 c cs _ ih =>
    rw [List.mem_cons, not_or] at hcr hlf
    rw [ih hcr.2 hlf.2]
    simp [Ne.symm hcr.1, Ne.symm hlf.1]

theorem joinLines_joinLines (cs : List Char) : joinLines (joinLines cs) = joinLines cs :=
  joinLines_of_not_mem (not_mem_joinLines cs).1 (not_mem_joinLines cs).2

/-! ### Tags -/

/-- A tag starts with its only bracket, and has no space and no line break. -/
structure IsTag (tag : List Char) : Prop where
  opens : ∃ name, tag = '<' :: name ∧ '<' ∉ name
  space : ' ' ∉ tag
  cr : '\r' ∉ tag
  lf : '\n' ∉ tag

theorem isTag_preOpen : IsTag preOpen := ⟨⟨_, rfl, by decide⟩, by decide, by decide, by decide⟩

theorem isTag_preClose : IsTag preClose := ⟨⟨_, rfl, by decide⟩, by decide, by decide, by decide⟩

namespace IsTag

variable {tag : List Char}

theorem ne_nil (h : IsTag tag) : tag ≠ [] := by
  obtain ⟨name, rfl, -⟩ := h.opens
  exact List.cons_ne_nil _ _

theorem isFirst_iff (h : IsTag tag) (before rest : List Char) :
    Text.IsFirst tag before rest ↔ ¬ tag <:+: before := by
  obtain ⟨name, rfl, hname⟩ := h.opens
  exact Text.isFirst_cons_iff hname before rest

/-- What comes behind a tag does not matter. -/
theorem isFirst_rest_irrel (h : IsTag tag) {before rest : List Char} (hfirst : Text.IsFirst tag before rest)
    (other : List Char) : Text.IsFirst tag before other :=
  (h.isFirst_iff before other).mpr ((h.isFirst_iff before rest).mp hfirst)

/-- Characters that a tag does not have can stand for each other. -/
theorem infix_append_cons_congr {c d : Char} {cs ds : List Char} (front : List Char) (hc : c ∉ tag) (hd : d ∉ tag)
    (hsame : tag <:+: cs ↔ tag <:+: ds) : tag <:+: front ++ c :: cs ↔ tag <:+: front ++ d :: ds := by
  rw [Text.infix_append_cons_iff hc, Text.infix_append_cons_iff hd, hsame]

theorem infix_append_joinLines_iff (h : IsTag tag) (front cs : List Char) :
    tag <:+: front ++ joinLines cs ↔ tag <:+: front ++ cs := by
  -- the tag may start in front of the part whose line breaks are replaced
  fun_induction joinLines cs generalizing front with
  | case1 => rfl
  | case2 cs ih =>
    have hlf : ∀ c ∈ ['\n'], c ∉ tag := by simpa using h.lf
    refine infix_append_cons_congr front h.space h.cr ?_
    calc tag <:+: joinLines cs ↔ tag <:+: cs := ih []
      _ ↔ tag <:+: ['\n'] ++ cs := (Text.infix_append_left_iff h.ne_nil hlf cs).symm
  | case3 c cs _ ih =>
    split_ifs with hc
    · rw [Bool.or_eq_true, beq_iff_eq, beq_iff_eq] at hc
      rcases hc with rfl | rfl
      · exact infix_append_cons_congr front h.space h.lf (ih [])
      · exact infix_append_cons_congr front h.space h.cr (ih [])
    · have hmore := ih (front ++ [c])
      rwa [List.append_assoc, List.append_assoc] at hmore

/-- **Spaces for line breaks neither make a tag nor take one away.** -/
theorem infix_joinLines_iff (h : IsTag tag) (cs : List Char) : tag <:+: joinLines cs ↔ tag <:+: cs :=
  h.infix_append_joinLines_iff [] cs

/-- A tag that comes first in a text comes first behind the same text with spaces. -/
theorem isFirst_joinLines (h : IsTag tag) {before rest : List Char} (hfirst : Text.IsFirst tag before rest)
    (other : List Char) : Text.IsFirst tag (joinLines before) other := by
  rw [h.isFirst_iff, h.infix_joinLines_iff]
  exact (h.isFirst_iff before rest).mp hfirst

end IsTag

/-! ### Plain and preformatted stretches -/

/-- A stretch of markup. -/
inductive Stretch where
  | plain (cs : List Char)
  | preformatted (cs : List Char)

namespace Stretch

/-- The text of a stretch, with its tags. -/
def text : Stretch → List Char
  | plain cs => cs
  | preformatted cs => cs

/-- The stretch with spaces for its line breaks, if it is plain. -/
def collapsed : Stretch → Stretch
  | plain cs => plain (spaced cs)
  | preformatted cs => preformatted cs

theorem collapsed_plain (cs : List Char) : (plain cs).collapsed = plain (joinLines cs) := by
  rw [joinLines_eq_spaced, collapsed]

theorem collapsed_preformatted (cs : List Char) : (preformatted cs).collapsed = preformatted cs := rfl

/-- A plain stretch has no line break left. -/
theorem not_mem_of_collapsed {s : Stretch} {cs : List Char} (h : s.collapsed = plain cs) : '\r' ∉ cs ∧ '\n' ∉ cs := by
  cases s with
  | plain ds =>
    rw [collapsed_plain] at h
    cases h
    exact not_mem_joinLines ds
  | preformatted ds => cases h

theorem collapsed_collapsed (s : Stretch) : s.collapsed.collapsed = s.collapsed := by
  cases s with
  | plain cs => rw [collapsed_plain, collapsed_plain, joinLines_joinLines]
  | preformatted cs => rfl

end Stretch

/-- A text and its stretches: it is plain up to the first opening tag, and
preformatted from there to the end of the next closing tag, or to the end if
there is none. -/
inductive Divided : List Char → List Stretch → Prop where
  | plain {cs : List Char} : ¬ preOpen <:+: cs → Divided cs [.plain cs]
  | unclosed {before inside : List Char} : Text.IsFirst preOpen before inside → ¬ preClose <:+: inside →
      Divided (before ++ (preOpen ++ inside)) [.plain before, .preformatted (preOpen ++ inside)]
  | closed {before kept after : List Char} {stretches : List Stretch} :
      Text.IsFirst preOpen before (kept ++ (preClose ++ after)) → Text.IsFirst preClose kept after →
      Divided after stretches →
      Divided (before ++ (preOpen ++ (kept ++ (preClose ++ after))))
        (.plain before :: .preformatted (preOpen ++ (kept ++ preClose)) :: stretches)

/-- **Every text can be divided.** -/
theorem exists_divided (cs : List Char) : ∃ stretches, Divided cs stretches := by
  fun_induction collapseChars cs with
  | case1 cs hopen => exact ⟨_, .plain ((Text.cutAt?_eq_none_iff _ _).mp hopen)⟩
  | case2 cs before inside hopen hclose =>
    obtain ⟨rfl, hfirst⟩ := Text.cutAt?_eq_some_iff.mp hopen
    exact ⟨_, .unclosed hfirst ((Text.cutAt?_eq_none_iff _ _).mp hclose)⟩
  | case3 cs before inside hopen kept after hclose _ ih =>
    obtain ⟨rfl, hfirst⟩ := Text.cutAt?_eq_some_iff.mp hopen
    obtain ⟨rfl, hnext⟩ := Text.cutAt?_eq_some_iff.mp hclose
    obtain ⟨stretches, hstretches⟩ := ih
    exact ⟨_, .closed hfirst hnext hstretches⟩

namespace Divided

variable {cs : List Char} {stretches others : List Stretch}

/-- The stretches are the whole text. -/
theorem text_eq (h : Divided cs stretches) : cs = stretches.flatMap Stretch.text := by
  induction h with
  | plain _ => simp [Stretch.text]
  | unclosed _ _ => simp [Stretch.text]
  | closed _ _ _ ih => simp [Stretch.text, ← ih]

theorem eq_of_plain (h : Divided cs stretches) (hopen : Text.cutAt? preOpen cs = none) :
    stretches = [.plain cs] := by
  rw [Text.cutAt?_eq_none_iff] at hopen
  cases h with
  | plain _ => rfl
  | unclosed _ _ => exact absurd ⟨_, _, List.append_assoc _ _ _⟩ hopen
  | closed _ _ _ => exact absurd ⟨_, _, List.append_assoc _ _ _⟩ hopen

theorem eq_of_unclosed {before inside : List Char} (h : Divided cs stretches)
    (hopen : Text.cutAt? preOpen cs = some (before, inside)) (hclose : Text.cutAt? preClose inside = none) :
    stretches = [.plain before, .preformatted (preOpen ++ inside)] := by
  cases h with
  | plain hnot =>
    rw [← Text.cutAt?_eq_none_iff, hopen] at hnot
    cases hnot
  | unclosed hfirst _ =>
    rw [Text.cutAt?_of_first hfirst] at hopen
    cases hopen
    rfl
  | closed hfirst hnext _ =>
    rw [Text.cutAt?_of_first hfirst] at hopen
    cases hopen
    rw [Text.cutAt?_of_first hnext] at hclose
    cases hclose

theorem exists_of_closed {before inside kept after : List Char} (h : Divided cs stretches)
    (hopen : Text.cutAt? preOpen cs = some (before, inside))
    (hclose : Text.cutAt? preClose inside = some (kept, after)) :
    ∃ more, Divided after more ∧
      stretches = .plain before :: .preformatted (preOpen ++ (kept ++ preClose)) :: more := by
  cases h with
  | plain hnot =>
    rw [← Text.cutAt?_eq_none_iff, hopen] at hnot
    cases hnot
  | unclosed hfirst hnot =>
    rw [Text.cutAt?_of_first hfirst] at hopen
    cases hopen
    rw [← Text.cutAt?_eq_none_iff, hclose] at hnot
    cases hnot
  | closed hfirst hnext hmore =>
    rw [Text.cutAt?_of_first hfirst] at hopen
    cases hopen
    rw [Text.cutAt?_of_first hnext] at hclose
    cases hclose
    exact ⟨_, hmore, rfl⟩

/-- **It can be divided in one way only.** -/
theorem unique (h : Divided cs stretches) (h' : Divided cs others) : others = stretches := by
  fun_induction collapseChars cs generalizing stretches others with
  | case1 cs hopen => rw [h.eq_of_plain hopen, h'.eq_of_plain hopen]
  | case2 cs before inside hopen hclose => rw [h.eq_of_unclosed hopen hclose, h'.eq_of_unclosed hopen hclose]
  | case3 cs before inside hopen kept after hclose _ ih =>
    obtain ⟨more, hmore, rfl⟩ := h.exists_of_closed hopen hclose
    obtain ⟨more', hmore', rfl⟩ := h'.exists_of_closed hopen hclose
    rw [ih hmore hmore']

theorem iff_eq (h : Divided cs stretches) (others : List Stretch) : Divided cs others ↔ others = stretches :=
  ⟨h.unique, fun heq => heq ▸ h⟩

/-- **Collapsing puts spaces into the plain stretches.** -/
theorem collapseChars_eq (h : Divided cs stretches) :
    collapseChars cs = (stretches.map Stretch.collapsed).flatMap Stretch.text := by
  fun_induction collapseChars cs generalizing stretches with
  | case1 cs hopen =>
    rw [h.eq_of_plain hopen]
    simp [Stretch.collapsed_plain, Stretch.text]
  | case2 cs before inside hopen hclose =>
    rw [h.eq_of_unclosed hopen hclose]
    simp [Stretch.collapsed_plain, Stretch.collapsed_preformatted, Stretch.text]
  | case3 cs before inside hopen kept after hclose _ ih =>
    obtain ⟨more, hmore, rfl⟩ := h.exists_of_closed hopen hclose
    rw [ih hmore]
    simp [Stretch.collapsed_plain, Stretch.collapsed_preformatted, Stretch.text]

/-- **The collapsed text is divided where the text was.** -/
theorem collapsed (h : Divided cs stretches) :
    Divided (collapseChars cs) (stretches.map Stretch.collapsed) := by
  rw [h.collapseChars_eq]
  induction h with
  | @plain cs hnot =>
    have hplain : ¬ preOpen <:+: joinLines cs := mt (isTag_preOpen.infix_joinLines_iff cs).mp hnot
    simpa [Stretch.collapsed_plain, Stretch.text] using plain hplain
  | unclosed hfirst hnot =>
    have hunclosed := unclosed (isTag_preOpen.isFirst_joinLines hfirst _) hnot
    simpa [Stretch.collapsed_plain, Stretch.collapsed_preformatted, Stretch.text] using hunclosed
  | closed hfirst hnext _ ih =>
    have hclosed := closed (isTag_preOpen.isFirst_joinLines hfirst _)
      (isTag_preClose.isFirst_rest_irrel hnext _) ih
    simpa [Stretch.collapsed_plain, Stretch.collapsed_preformatted, Stretch.text] using hclosed

end Divided

/-! ### The whole markup -/

/-- **Line breaks become spaces outside preformatted text, and only there.** A text
has one division into plain and preformatted stretches. Collapsing keeps the
preformatted ones to the letter, replaces each CRLF, and then each LF or CR that
is left, by one space in the plain ones, and keeps all else. The text that is made
is divided into the same stretches, none of which is plain and has a line break,
and is its own collapsed text. -/
theorem preformatted_text_kept (markup : String) :
    ∃ stretches, (∀ others, Divided markup.toList others ↔ others = stretches) ∧
      markup.toList = stretches.flatMap Stretch.text ∧
      (collapseLineBreaks markup).toList = (stretches.map Stretch.collapsed).flatMap Stretch.text ∧
      (∀ others, Divided (collapseLineBreaks markup).toList others ↔ others = stretches.map Stretch.collapsed) ∧
      (∀ cs, Stretch.plain cs ∈ stretches.map Stretch.collapsed → '\r' ∉ cs ∧ '\n' ∉ cs) ∧
      collapseLineBreaks (collapseLineBreaks markup) = collapseLineBreaks markup := by
  obtain ⟨stretches, hdivided⟩ := exists_divided markup.toList
  have hcollapsed : Divided (collapseLineBreaks markup).toList (stretches.map Stretch.collapsed) := by
    rw [collapseLineBreaks, String.toList_ofList]
    exact hdivided.collapsed
  refine ⟨stretches, hdivided.iff_eq, hdivided.text_eq, hcollapsed.text_eq, hcollapsed.iff_eq, fun cs hcs => ?_, ?_⟩
  · obtain ⟨s, -, hs⟩ := List.mem_map.mp hcs
    exact Stretch.not_mem_of_collapsed hs
  · have htwice : (stretches.map Stretch.collapsed).map Stretch.collapsed = stretches.map Stretch.collapsed := by
      simp [Stretch.collapsed_collapsed]
    rw [← String.toList_inj]
    calc (collapseLineBreaks (collapseLineBreaks markup)).toList
        = collapseChars (collapseLineBreaks markup).toList := String.toList_ofList
      _ = ((stretches.map Stretch.collapsed).map Stretch.collapsed).flatMap Stretch.text := hcollapsed.collapseChars_eq
      _ = (stretches.map Stretch.collapsed).flatMap Stretch.text := by rw [htwice]
      _ = (collapseLineBreaks markup).toList := hcollapsed.text_eq.symm

/-- Markup with an opening tag inside preformatted text, and one that is not
closed. -/
def nestedMarkup : String := "a\r\n\r<pre>x\r\n<pre>\n</pre>\n</pre><pre>y\n"

theorem preformatted_text_kept_nested :
    let stretches := [.plain "a\r\n\r".toList, .preformatted "<pre>x\r\n<pre>\n</pre>".toList,
      .plain "\n</pre>".toList, .preformatted "<pre>y\n".toList]
    Divided nestedMarkup.toList stretches ∧ Stretch.plain " </pre>".toList ∈ stretches.map Stretch.collapsed ∧
      ('\r' ∉ " </pre>".toList ∧ '\n' ∉ " </pre>".toList) ∧
      collapseLineBreaks nestedMarkup = "a  <pre>x\r\n<pre>\n</pre> </pre><pre>y\n" ∧
      collapseLineBreaks "a  <pre>x\r\n<pre>\n</pre> </pre><pre>y\n" =
        "a  <pre>x\r\n<pre>\n</pre> </pre><pre>y\n" := by
  intro stretches
  have hdivided : Divided nestedMarkup.toList stretches := by
    have hlast : Divided ("\n</pre>".toList ++ (preOpen ++ "y\n".toList)) _ :=
      .unclosed ((isTag_preOpen.isFirst_iff _ _).mpr (by decide)) (by decide)
    exact .closed ((isTag_preOpen.isFirst_iff "a\r\n\r".toList _).mpr (by decide))
      ((isTag_preClose.isFirst_iff "x\r\n<pre>\n".toList _).mpr (by decide)) hlast
  obtain ⟨others, hone, -, htext, -, hplain, htwice⟩ := preformatted_text_kept nestedMarkup
  obtain rfl : stretches = others := (hone stretches).mp hdivided
  have hcollapsed : collapseLineBreaks nestedMarkup = "a  <pre>x\r\n<pre>\n</pre> </pre><pre>y\n" := by
    rw [← String.toList_inj, htext]
    decide
  have hmem : Stretch.plain " </pre>".toList ∈ stretches.map Stretch.collapsed := by
    simp only [stretches, List.map_cons]
    exact .tail _ (.tail _ (.head _))
  rw [hcollapsed] at htwice
  exact ⟨hdivided, hmem, hplain _ hmem, hcollapsed, htwice⟩

end Markdown
end Docblock
