/-
# The lines of a text

A text is its first line and then, for each further line, an end of line and
the line (`exists_splitChars`); lines put together like this are split into the
same lines again (`splitChars_behindEnds`). Writing the ends of lines as marks,
or marks as ends of lines, changes nothing else (`map_replace_behindEnds`), and a
run of characters that cannot take an end stays in its line
(`takeWhile_behindEnds`).

Key definitions: `Text.behindEnds`.
Key theorems: `Text.exists_span`, `Text.exists_splitChars`, `Text.splitChars_behindEnds`,
`Text.map_replace_behindEnds`, `Text.takeWhile_behindEnds`,
`Text.dropWhile_behindEnds`.
-/
import Docblock.Text.Cut
import Mathlib.Data.List.Infix
import Mathlib.Data.List.TakeWhile

namespace Docblock
namespace Text

/-- The longest start of accepted characters, and what stands behind it. -/
theorem exists_span (a : Char → Bool) (cs : List Char) :
    ∃ front back, cs = front ++ back ∧ (∀ c ∈ front, a c = true) ∧ ∀ c ∈ back.head?, a c = false := by
  refine ⟨cs.takeWhile a, cs.dropWhile a, List.takeWhile_append_dropWhile.symm,
    fun c hc => List.mem_takeWhile_imp hc, fun c hc => ?_⟩
  have hnot := List.head?_dropWhile_not a cs
  rw [Option.mem_def.mp hc] at hnot
  simpa using hnot

/-- Lines, each behind an end of line. -/
def behindEnds (ending : Char) (lines : List (List Char)) : List Char :=
  lines.flatMap (ending :: ·)

theorem behindEnds_nil (ending : Char) : behindEnds ending [] = [] := rfl

theorem behindEnds_cons (ending : Char) (line : List Char) (lines : List (List Char)) :
    behindEnds ending (line :: lines) = ending :: (line ++ behindEnds ending lines) := rfl

theorem behindEnds_append (ending : Char) (lines more : List (List Char)) :
    behindEnds ending (lines ++ more) = behindEnds ending lines ++ behindEnds ending more :=
  List.flatMap_append

theorem length_le_behindEnds (ending : Char) (lines : List (List Char)) :
    lines.length ≤ (behindEnds ending lines).length := by
  induction lines with
  | nil => exact Nat.zero_le _
  | cons line lines ih =>
    rw [behindEnds_cons, List.length_cons, List.length_cons, List.length_append]
    omega

/-- A text without the separator is one piece. -/
theorem splitChars_of_not_mem {sep : Char} : ∀ {cs : List Char}, sep ∉ cs → splitChars (· == sep) cs = [cs]
  | [], _ => rfl
  | c :: cs, h => by
    rw [List.mem_cons, not_or] at h
    rw [splitChars, splitChars_of_not_mem h.2]
    simp [Ne.symm h.1]

/-- A piece in front is split off. -/
theorem splitChars_append {sep : Char} : ∀ {a : List Char} (b : List Char), sep ∉ a →
    splitChars (· == sep) (a ++ sep :: b) = a :: splitChars (· == sep) b
  | [], b, _ => by simp [splitChars]
  | c :: cs, b, h => by
    rw [List.mem_cons, not_or] at h
    rw [List.cons_append, splitChars, splitChars_append b h.2]
    simp [Ne.symm h.1]

/-- A text is its first line and the others, and no line has an end inside. -/
theorem exists_splitChars (ending : Char) : ∀ cs : List Char, ∃ line lines,
    splitChars (· == ending) cs = line :: lines ∧ cs = line ++ behindEnds ending lines ∧
      ∀ l ∈ line :: lines, ending ∉ l
  | [] => ⟨[], [], rfl, rfl, by simp⟩
  | c :: cs => by
    obtain ⟨line, lines, hsplit, hcs, hfree⟩ := exists_splitChars ending cs
    by_cases hc : c = ending
    · refine ⟨[], line :: lines, ?_, ?_, ?_⟩
      · simp [splitChars, hc, hsplit]
      · rw [behindEnds_cons, ← hcs, hc, List.nil_append]
      · intro l hl
        rcases List.mem_cons.mp hl with rfl | hl
        · exact List.not_mem_nil
        · exact hfree l hl
    · refine ⟨c :: line, lines, ?_, ?_, ?_⟩
      · simp [splitChars, hc, hsplit]
      · rw [List.cons_append, ← hcs]
      · intro l hl
        rcases List.mem_cons.mp hl with rfl | hl
        · have hline := hfree line List.mem_cons_self
          simp [Ne.symm hc, hline]
        · exact hfree l (List.mem_cons_of_mem _ hl)

/-- Lines with ends between them are split into these lines. -/
theorem splitChars_behindEnds {ending : Char} : ∀ {line : List Char} {lines : List (List Char)},
    (∀ l ∈ line :: lines, ending ∉ l) →
    splitChars (· == ending) (line ++ behindEnds ending lines) = line :: lines
  | line, [], h => by
    rw [behindEnds_nil, List.append_nil, splitChars_of_not_mem (h line List.mem_cons_self)]
  | line, next :: lines, h => by
    rw [List.forall_mem_cons] at h
    rw [behindEnds_cons, splitChars_append _ h.1, splitChars_behindEnds h.2]

/-- Joining lines puts an end before each but the first. -/
theorem intercalate_eq_behindEnds (ending : Char) : ∀ (line : List Char) (lines : List (List Char)),
    [ending].intercalate (line :: lines) = line ++ behindEnds ending lines
  | line, [] => by rw [List.intercalate_singleton, behindEnds_nil, List.append_nil]
  | line, next :: lines => by
    rw [List.intercalate_cons_cons, intercalate_eq_behindEnds ending next lines, behindEnds_cons,
      List.append_assoc, List.singleton_append]

/-- What is in no text is in none of its lines. -/
theorem not_mem_lines {c ending : Char} {line : List Char} {lines : List (List Char)}
    (h : c ∉ line ++ behindEnds ending lines) : ∀ l ∈ line :: lines, c ∉ l := by
  intro l hl hc
  rw [List.mem_append, not_or] at h
  rcases List.mem_cons.mp hl with rfl | hl
  · exact h.1 hc
  · exact h.2 (List.mem_flatMap.mpr ⟨l, hl, List.mem_cons_of_mem _ hc⟩)

theorem map_replace_of_not_mem {old new : Char} {cs : List Char} (h : old ∉ cs) :
    cs.map (fun c => if c == old then new else c) = cs := by
  have hsame : ∀ c ∈ cs, (if c == old then new else c) = c := fun c hc => by
    have hne : c ≠ old := fun heq => h (heq ▸ hc)
    simp [hne]
  rw [List.map_congr_left hsame, List.map_id']

theorem map_replace_behindEnds {old new : Char} : ∀ {lines : List (List Char)}, (∀ l ∈ lines, old ∉ l) →
    (behindEnds old lines).map (fun c => if c == old then new else c) = behindEnds new lines
  | [], _ => rfl
  | line :: lines, h => by
    have hline : old ∉ line := h line List.mem_cons_self
    have ih : (behindEnds old lines).map _ = behindEnds new lines :=
      map_replace_behindEnds fun l hl => h l (List.mem_cons_of_mem _ hl)
    rw [behindEnds_cons, behindEnds_cons, List.map_cons, List.map_append, ih, map_replace_of_not_mem hline,
      beq_self_eq_true, if_pos rfl]

/-- What follows a run is what is left when it is dropped. -/
theorem drop_length_takeWhile (p : Char → Bool) (cs : List Char) :
    cs.drop (cs.takeWhile p).length = cs.dropWhile p :=
  List.append_cancel_left ((List.prefix_iff_eq_append.mp (List.takeWhile_prefix p)).trans
    List.takeWhile_append_dropWhile.symm)

theorem takeWhile_congr {p q : Char → Bool} : ∀ {cs : List Char}, (∀ c ∈ cs, p c = q c) →
    cs.takeWhile p = cs.takeWhile q
  | [], _ => rfl
  | c :: cs, h => by
    rw [List.forall_mem_cons] at h
    rw [List.takeWhile_cons, List.takeWhile_cons, h.1, takeWhile_congr h.2]

theorem dropWhile_congr {p q : Char → Bool} {cs : List Char} (h : ∀ c ∈ cs, p c = q c) :
    cs.dropWhile p = cs.dropWhile q := by
  rw [← drop_length_takeWhile, ← drop_length_takeWhile, takeWhile_congr h]

/-- A run of characters ends with its line, if it cannot take the end. -/
theorem takeWhile_behindEnds {p : Char → Bool} {ending : Char} (hp : p ending = false) (line : List Char)
    (lines : List (List Char)) :
    (line ++ behindEnds ending lines).takeWhile p = line.takeWhile p := by
  induction line with
  | nil => cases lines <;> simp [behindEnds, hp]
  | cons c cs ih => by_cases hc : p c = true <;> simp [hc, ih]

theorem dropWhile_behindEnds {p : Char → Bool} {ending : Char} (hp : p ending = false) (line : List Char)
    (lines : List (List Char)) :
    (line ++ behindEnds ending lines).dropWhile p = line.dropWhile p ++ behindEnds ending lines := by
  induction line with
  | nil => cases lines <;> simp [behindEnds, hp]
  | cons c cs ih => by_cases hc : p c = true <;> simp [hc, ih]

end Text
end Docblock
