/-
# Cutting elements at bytes

Elements can be cut out of a text by byte offsets alone: where the line of a
tag starts, where its name ends, where its content starts and ends, and where
the next tag starts (`cutAt`). The offsets come from sums and differences of
sizes. All the same, each is in the text and at a character, none comes before
the one it should follow (`Cut.Fits`), and the slices between them are the
elements (`cutAt_spec`, `cuts_spec`).

Key definitions: `Element.Cut`, `Element.cutAt`, `Element.cuts`,
`Element.Cut.Fits`, `Element.InOrder`.
Key theorems: `Element.cutAt_spec`, `Element.cuts_spec`.
-/
import Docblock.Element.Finder
import Docblock.Proofs.Text.Line
import Docblock.Proofs.Text.Place

namespace Docblock
namespace Element

open Text
open String (utf8Len)

/-! ### Offsets -/

/-- The offsets at which an element is cut out of a text. -/
structure Cut where
  name : String
  /-- The start of the tag's line. -/
  line : String.Pos.Raw
  /-- The end of the tag's name. -/
  nameEnd : String.Pos.Raw
  /-- The start of the content, behind blanks. -/
  content : String.Pos.Raw
  /-- The end of the content. -/
  stop : String.Pos.Raw
  /-- The end of the line before the next tag, or of the text. -/
  next : String.Pos.Raw

/-- The byte at which the line of a match starts. A match may start with the
mark before the line. -/
def lineByte (text : String) (m : Match) : String.Pos.Raw :=
  ⟨(byteOf text.toList m.start.rest).byteIdx +
    if m.start.rest.head? = some lineMark then lineMark.utf8Size else 0⟩

/-- The byte up to which an element goes: the mark before the next line with a
tag. -/
def nextByte (text : String) : List Match → String.Pos.Raw
  | [] => text.rawEndPos
  | n :: _ => ⟨(lineByte text n).byteIdx - lineMark.utf8Size⟩

/-- The byte of the first `*/` between two bytes, or the second of them. -/
def closeByte (text : String) (content next : String.Pos.Raw) : String.Pos.Raw :=
  match cutOnce? "*/" (content.extract text next) with
  | some (before, _) => ⟨content.byteIdx + before.utf8ByteSize⟩
  | none => next

/-- The offsets of one element, given where the next one starts. -/
def cutAt (text : String) (m : Match) (next : String.Pos.Raw) : Cut :=
  let nameEnd := byteOf text.toList m.stop.rest
  let blanks := (nameEnd.extract text next).toList.takeWhile isBlank
  let content : String.Pos.Raw := ⟨nameEnd.byteIdx + utf8Len blanks⟩
  { name := m.group 1, line := lineByte text m, nameEnd, content,
    stop := closeByte text content next, next }

/-- The offsets of the elements of tags that follow each other. -/
def cuts (text : String) : List Match → List Cut
  | [] => []
  | m :: ms => cutAt text m (nextByte text ms) :: cuts text ms

/-- The element between the offsets. -/
def Cut.element (text : String) (c : Cut) : Element :=
  .new c.name (unflatten (c.content.extract text c.stop)) (unflatten (c.line.extract text c.stop))

/-- Every offset is in the text and at the start of a character or at the end,
and they follow each other. -/
structure Cut.Fits (text : String) (c : Cut) : Prop where
  line : c.line.IsValid text
  nameEnd : c.nameEnd.IsValid text
  content : c.content.IsValid text
  stop : c.stop.IsValid text
  next : c.next.IsValid text
  line_lt_nameEnd : c.line < c.nameEnd
  nameEnd_le_content : c.nameEnd ≤ c.content
  content_le_stop : c.content ≤ c.stop
  stop_le_next : c.stop ≤ c.next

/-! ### One element -/

theorem cutAt?_isPrefix {piece : List Char} : ∀ {cs before rest : List Char},
    Text.cutAt? piece cs = some (before, rest) → before <+: cs
  | [], before, rest, h => by
    obtain ⟨_, _, heq⟩ := Option.map_eq_some_iff.mp h
    cases heq
    exact List.prefix_rfl
  | c :: cs, before, rest, h => by
    rw [Text.cutAt?] at h
    split at h
    · cases h
      exact List.nil_prefix
    · obtain ⟨⟨before, rest⟩, hcut, heq⟩ := Option.map_eq_some_iff.mp h
      cases heq
      exact List.cons_prefix_cons.mpr ⟨rfl, cutAt?_isPrefix hcut⟩

theorem beforeClose_isPrefix (cs : List Char) : beforeClose cs <+: cs := by
  unfold beforeClose
  split
  · next before rest h => exact cutAt?_isPrefix h
  · exact List.prefix_rfl

/-- A match of a text with something in it, and where the next one starts. -/
structure Placed (text : List Char) (m : Match) (next : List Char) : Prop where
  start : m.start.rest <:+ text
  stop : ∃ lead ≠ [], dropLineMark m.start.rest = lead ++ m.stop.rest
  next : next <:+ m.stop.rest

theorem chars_append (cs rest : List Char) : (Span.mk (cs ++ rest) rest).chars = cs := by
  simp [Span.chars]

theorem dropLineMark_suffix (cs : List Char) : dropLineMark cs <:+ cs := by
  cases cs with
  | nil => exact List.suffix_rfl
  | cons c cs =>
    rw [dropLineMark]
    split_ifs
    · exact List.suffix_cons c cs
    · exact List.suffix_rfl

/-- The line starts behind the mark, if there is one. -/
theorem lineByte_eq {text : List Char} {m : Match} (h : m.start.rest <:+ text) :
    lineByte (String.ofList text) m = byteOf text (dropLineMark m.start.rest) := by
  rw [lineByte, String.toList_ofList]
  cases hstart : m.start.rest with
  | nil => simp [dropLineMark]
  | cons c cs =>
    rw [hstart] at h
    by_cases hc : c = lineMark
    · subst hc
      simp [dropLineMark, String.Pos.Raw.ext_iff, byteIdx_byteOf_cons h]
    · simp [dropLineMark, hc]

theorem closeByte_eq {text core next : List Char} (h : core ++ next <:+ text) :
    closeByte (String.ofList text) (byteOf text (core ++ next)) (byteOf text next) =
      byteOf text (core.drop (beforeClose core).length ++ next) := by
  rw [closeByte, extract_byteOf h, cutOnce?, String.toList_ofList, String.toList_ofList, beforeClose]
  cases hcut : Text.cutAt? ['*', '/'] core with
  | none => simp
  | some parts =>
    obtain ⟨tail, rfl⟩ := cutAt?_isPrefix hcut
    rw [List.append_assoc] at h
    simp [String.Pos.Raw.ext_iff, byteIdx_byteOf_append h, String.utf8ByteSize_ofList]

/-- The offsets of an element are the places at which it is cut: behind the
name come blanks, the content, and what is left from the `*/` on. -/
theorem cutAt_eq {text behind next : List Char} {m : Match} (hstart : m.start.rest <:+ text)
    (hstop : m.stop.rest = behind ++ next) (hbehind : behind ++ next <:+ text) :
    cutAt (String.ofList text) m (byteOf text next) =
      { name := m.group 1
        line := byteOf text (dropLineMark m.start.rest)
        nameEnd := byteOf text (behind ++ next)
        content := byteOf text (behind.dropWhile isBlank ++ next)
        stop := byteOf text ((behind.dropWhile isBlank).drop
          (beforeClose (behind.dropWhile isBlank)).length ++ next)
        next := byteOf text next } := by
  have hsplit : behind.takeWhile isBlank ++ (behind.dropWhile isBlank ++ next) = behind ++ next := by
    rw [← List.append_assoc, List.takeWhile_append_dropWhile]
  have hcontent := byteIdx_byteOf_append (hsplit ▸ hbehind)
  have hcore : behind.dropWhile isBlank ++ next <:+ text :=
    (hsplit ▸ List.suffix_append _ _ : _ <:+ behind ++ next).trans hbehind
  rw [hsplit] at hcontent
  simp only [cutAt, String.toList_ofList, hstop, extract_byteOf hbehind, lineByte_eq hstart, ← hcontent,
    closeByte_eq hcore]

/-- The element in terms of the pieces it is made of. -/
theorem cutElement_eq {m : Match} {lead behind next : List Char} (hstop : m.stop.rest = behind ++ next)
    (hline : dropLineMark m.start.rest = lead ++ m.stop.rest) :
    cutElement m next =
      .new (m.group 1) (unflatten (String.ofList (beforeClose (behind.dropWhile isBlank))))
        (unflatten (String.ofList
          (lead ++ behind.takeWhile isBlank ++ beforeClose (behind.dropWhile isBlank)))) := by
  simp only [cutElement, hline, chars_append]
  simp only [hstop, chars_append, drop_length_takeWhile]

/-- **Cutting at bytes.** The offsets fit, and the slices are the element. -/
theorem cutAt_spec {text : List Char} {m : Match} {next : List Char} (h : Placed text m next) :
    (cutAt (String.ofList text) m (byteOf text next)).Fits (String.ofList text) ∧
      (cutAt (String.ofList text) m (byteOf text next)).element (String.ofList text) = cutElement m next := by
  obtain ⟨lead, hlead, hline⟩ := h.stop
  obtain ⟨behind, hstop⟩ := h.next
  rw [cutElement_eq hstop.symm hline]
  rw [← hstop] at hline
  have hlineAt : lead ++ (behind ++ next) <:+ text := hline ▸ (dropLineMark_suffix _).trans h.start
  have hnameAt : behind ++ next <:+ text := (List.suffix_append _ _).trans hlineAt
  rw [cutAt_eq h.start hstop.symm hnameAt, hline]
  -- behind the name come blanks, the content and what is left
  have hbehind : behind ++ next = behind.takeWhile isBlank ++ (behind.dropWhile isBlank ++ next) := by
    rw [← List.append_assoc, List.takeWhile_append_dropWhile]
  generalize behind.takeWhile isBlank = blanks, behind.dropWhile isBlank = core at hbehind ⊢
  obtain ⟨left, hleft⟩ := beforeClose_isPrefix core
  have hcore : core ++ next = beforeClose core ++ (left ++ next) := by rw [← List.append_assoc, hleft]
  have hdrop : core.drop (beforeClose core).length = left :=
    List.append_cancel_left ((List.prefix_iff_eq_append.mp (beforeClose_isPrefix core)).trans hleft.symm)
  have hblanks : core ++ next <:+ behind ++ next := ⟨blanks, hbehind.symm⟩
  have hcontent : left ++ next <:+ core ++ next := ⟨beforeClose core, hcore.symm⟩
  rw [hdrop]
  refine ⟨?_, ?_⟩
  · exact {
      line := isValid_byteOf hlineAt
      nameEnd := isValid_byteOf hnameAt
      content := isValid_byteOf (hblanks.trans hnameAt)
      stop := isValid_byteOf ((hcontent.trans hblanks).trans hnameAt)
      next := isValid_byteOf ((List.suffix_append _ _).trans hnameAt)
      line_lt_nameEnd := byteOf_append_lt hlead hlineAt
      nameEnd_le_content := byteOf_le_byteOf text hblanks
      content_le_stop := byteOf_le_byteOf text hcontent
      stop_le_next := byteOf_le_byteOf text (List.suffix_append _ _) }
  · have hwhole : lead ++ (behind ++ next) = lead ++ blanks ++ beforeClose core ++ (left ++ next) := by
      rw [hbehind, hcore]
      simp only [List.append_assoc]
    have hcontentAt := hblanks.trans hnameAt
    rw [hcore] at hcontentAt
    rw [hwhole] at hlineAt
    rw [Cut.element, hcore, hwhole, extract_byteOf hcontentAt, extract_byteOf hlineAt]

/-! ### All elements -/

/-- Where the next tag starts. -/
def nextPlace : List Match → List Char
  | [] => []
  | n :: _ => n.start.rest

theorem cutElements_cons (m : Match) (ms : List Match) :
    cutElements (m :: ms) = cutElement m (nextPlace ms) :: cutElements ms := by
  cases ms <;> rfl

/-- The matches follow each other in the text, and all but the first start
with a mark. -/
inductive InOrder (text : List Char) : List Match → Prop
  | nil : InOrder text []
  | cons {m : Match} {ms : List Match} (placed : Placed text m (nextPlace ms))
      (mark : ∀ n ∈ ms.head?, n.start.rest.head? = some lineMark) (later : InOrder text ms) :
      InOrder text (m :: ms)

/-- The next tag has a mark before its line, so taking it off is no loss. -/
theorem nextByte_eq {text : List Char} {ms : List Match} (horder : InOrder text ms)
    (hmark : ∀ n ∈ ms.head?, n.start.rest.head? = some lineMark) :
    nextByte (String.ofList text) ms = byteOf text (nextPlace ms) := by
  cases horder with
  | nil => exact (byteOf_nil text).symm
  | @cons n ms placed _ _ =>
    obtain ⟨cs, hcs⟩ := List.head?_eq_some_iff.mp (hmark n rfl)
    have hstart := placed.start
    rw [nextByte, lineByte_eq hstart, nextPlace, hcs]
    rw [hcs] at hstart
    simp [dropLineMark, byteIdx_byteOf_cons hstart]

/-- Cutting at bytes gives the elements, and no offset is out of place. -/
theorem cuts_spec {text : List Char} {ms : List Match} (horder : InOrder text ms) :
    (∀ c ∈ cuts (String.ofList text) ms, c.Fits (String.ofList text)) ∧
      (cuts (String.ofList text) ms).map (Cut.element (String.ofList text)) = cutElements ms := by
  induction horder with
  | nil => exact ⟨by simp [cuts], rfl⟩
  | cons placed mark later ih =>
    obtain ⟨hfits, helement⟩ := cutAt_spec placed
    rw [cuts, cutElements_cons, nextByte_eq later mark, List.map_cons, List.forall_mem_cons, helement, ih.2]
    exact ⟨⟨hfits, ih.1⟩, rfl⟩

end Element
end Docblock
