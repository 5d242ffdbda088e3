/-
# Places of a text

A place of a text is given by the rest of the text from there on. Its byte is
in the text and starts a character or is the end (`isValid_byteOf`), a piece
of the text moves it by the bytes of the piece (`byteIdx_byteOf_append`), and
the bytes between two places are the piece between them (`extract_byteOf`).

Key definitions: `Text.byteOf`.
Key theorems: `Text.isValid_byteOf`, `Text.extract_byteOf`.
-/
import Mathlib.Data.List.Infix
import Mathlib.Data.String.Basic

namespace Docblock
namespace Text

open String (utf8Len)

/-- The byte of a text at which a rest of it starts. -/
def byteOf (text rest : List Char) : String.Pos.Raw := ⟨utf8Len text - utf8Len rest⟩

theorem byteOf_append (before rest : List Char) : byteOf (before ++ rest) rest = ⟨utf8Len before⟩ := by
  rw [byteOf, String.utf8Len_append, Nat.add_sub_cancel]

theorem byteOf_nil (text : List Char) : byteOf text [] = (String.ofList text).rawEndPos := by
  simp [byteOf]

/-- A rest of a text starts inside it, at a character or at its end. -/
theorem isValid_byteOf {text rest : List Char} (h : rest <:+ text) :
    (byteOf text rest).IsValid (String.ofList text) := by
  obtain ⟨before, rfl⟩ := h
  rw [String.Pos.Raw.isValid_iff_exists_append, byteOf_append]
  refine ⟨String.ofList before, String.ofList rest, String.ofList_append, ?_⟩
  simp

/-- A piece of the text moves the place by its bytes. -/
theorem byteIdx_byteOf_append {text piece rest : List Char} (h : piece ++ rest <:+ text) :
    (byteOf text rest).byteIdx = (byteOf text (piece ++ rest)).byteIdx + utf8Len piece := by
  obtain ⟨before, rfl⟩ := h
  rw [byteOf_append, ← List.append_assoc, byteOf_append, String.utf8Len_append]

theorem byteIdx_byteOf_cons {text rest : List Char} {c : Char} (h : c :: rest <:+ text) :
    (byteOf text rest).byteIdx = (byteOf text (c :: rest)).byteIdx + c.utf8Size := by
  rw [← List.singleton_append] at h ⊢
  rw [byteIdx_byteOf_append h, String.utf8Len_cons, String.utf8Len_nil, Nat.zero_add]

/-- What has less left comes later. -/
theorem byteOf_le_byteOf {rest later : List Char} (text : List Char) (h : later <:+ rest) :
    byteOf text rest ≤ byteOf text later :=
  String.Pos.Raw.le_iff.mpr (Nat.sub_le_sub_left (String.utf8Len_le_of_suffix h) _)

/-- A piece with something in it moves the place on. -/
theorem byteOf_append_lt {text piece rest : List Char} (hpiece : piece ≠ []) (h : piece ++ rest <:+ text) :
    byteOf text (piece ++ rest) < byteOf text rest := by
  have hpos : 0 < utf8Len piece := Nat.pos_of_ne_zero fun hzero => hpiece (String.utf8Len_eq_zero.mp hzero)
  rw [String.Pos.Raw.lt_iff, byteIdx_byteOf_append h]
  omega

/-- Between two places is the piece between them. -/
theorem extract_byteOf {text piece rest : List Char} (h : piece ++ rest <:+ text) :
    (byteOf text (piece ++ rest)).extract (String.ofList text) (byteOf text rest) = String.ofList piece := by
  obtain ⟨before, rfl⟩ := h
  rw [byteOf_append, ← List.append_assoc, byteOf_append, String.utf8Len_append]
  exact String.extract_of_valid before piece rest

end Text
end Docblock
