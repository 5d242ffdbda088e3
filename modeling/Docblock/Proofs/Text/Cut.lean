/-
# Finding a piece of text

A piece is found where it first occurs: what stands before it and behind it
makes up the text again, and no earlier place has it (`cutAt?_eq_some_iff`). It is
not found where it does not occur (`cutAt?_eq_none_iff`). What comes behind a
text does not change where the piece is found in it (`cutAt?_append`), and a piece
that cannot overlap itself is first where there is none before it
(`isFirst_cons_iff`).

A piece occurs on one side of a character that it does not have
(`infix_append_cons_iff`), and never in what has none of its characters.

Key definitions: `Text.IsFirst`.
Key theorems: `Text.cutAt?_eq_some_iff`, `Text.cutAt?_eq_none_iff`,
`Text.isFirst_cons_iff`, `Text.cutAt?_append`, `Text.infix_append_cons_iff`.
-/
import Docblock.Text.Cut
import Mathlib.Data.List.Infix

namespace Docblock
namespace Text

/-! ### A piece in front -/

theorem dropPrefix?_append (piece rest : List Char) : dropPrefix? piece (piece ++ rest) = some rest := by
  induction piece with
  | nil => rfl
  | cons c cs ih => simp [dropPrefix?, ih]

theorem dropPrefix?_eq_none_iff (piece text : List Char) : dropPrefix? piece text = none ↔ ¬ piece <+: text := by
  rw [Option.eq_none_iff_forall_ne_some]
  constructor
  · rintro h ⟨rest, rfl⟩
    exact h rest (dropPrefix?_append piece rest)
  · rintro h rest hrest
    exact h ⟨rest, (eq_append_of_dropPrefix? hrest).symm⟩

/-! ### A piece somewhere -/

theorem cutAt?_eq_none_iff (piece : List Char) : ∀ text : List Char, cutAt? piece text = none ↔ ¬ piece <:+: text
  | [] => by
    rw [cutAt?, Option.map_eq_none_iff, dropPrefix?_eq_none_iff, List.prefix_nil, List.infix_nil]
  | c :: cs => by
    have ih := cutAt?_eq_none_iff piece cs
    rw [cutAt?, List.infix_cons_iff, not_or, ← ih, ← dropPrefix?_eq_none_iff]
    cases dropPrefix? piece (c :: cs) with
    | none => simp
    | some rest => simp

/-- No place of a piece comes before the one that is found. -/
theorem length_le_of_cutAt? {piece : List Char} : ∀ {text before rest : List Char},
    cutAt? piece text = some (before, rest) → ∀ front back, text = front ++ (piece ++ back) →
    before.length ≤ front.length
  | [], before, rest, h, front, back, _ => by
    obtain ⟨tail, -, heq⟩ := Option.map_eq_some_iff.mp h
    cases heq
    exact Nat.zero_le _
  | c :: cs, before, rest, h, front, back, hplace => by
    rw [cutAt?] at h
    split at h
    · cases h
      exact Nat.zero_le _
    · rename_i hnone
      obtain ⟨⟨before, rest⟩, hcut, heq⟩ := Option.map_eq_some_iff.mp h
      cases heq
      cases front with
      | nil =>
        rw [dropPrefix?_eq_none_iff] at hnone
        exact absurd ⟨back, hplace.symm⟩ hnone
      | cons d front => exact Nat.succ_le_succ (length_le_of_cutAt? hcut front back (List.cons.inj hplace).2)

/-- The first place of a piece. -/
theorem cutAt?_eq_some {piece text before rest : List Char} (h : cutAt? piece text = some (before, rest)) :
    text = before ++ (piece ++ rest) ∧
      ∀ front back, text = front ++ (piece ++ back) → before.length ≤ front.length :=
  ⟨eq_append_of_cutAt? h, length_le_of_cutAt? h⟩

theorem cutAt?_isSome_iff (piece text : List Char) : (cutAt? piece text).isSome ↔ piece <:+: text := by
  rw [Option.isSome_iff_ne_none, ne_eq, cutAt?_eq_none_iff, not_not]

/-- The piece stands between the two parts of a text, and nowhere earlier. -/
def IsFirst (piece before rest : List Char) : Prop :=
  ∀ front back, before ++ (piece ++ rest) = front ++ (piece ++ back) → before.length ≤ front.length

/-- A piece is found at its first place. -/
theorem cutAt?_of_first {piece before rest : List Char} (hfirst : IsFirst piece before rest) :
    cutAt? piece (before ++ (piece ++ rest)) = some (before, rest) := by
  obtain ⟨⟨front, back⟩, hcut⟩ : ∃ x, cutAt? piece (before ++ (piece ++ rest)) = some x := by
    rw [← Option.isSome_iff_exists, cutAt?_isSome_iff]
    exact ⟨before, rest, by simp⟩
  obtain ⟨heq, hfirst'⟩ := cutAt?_eq_some hcut
  have hlength : before.length = front.length := Nat.le_antisymm (hfirst front back heq) (hfirst' before rest rfl)
  obtain ⟨rfl, hrest⟩ := List.append_inj heq hlength
  rw [hcut, List.append_cancel_left hrest]

theorem cutAt?_eq_some_iff {piece text before rest : List Char} :
    cutAt? piece text = some (before, rest) ↔ text = before ++ (piece ++ rest) ∧ IsFirst piece before rest := by
  constructor
  · intro h
    obtain ⟨rfl, hfirst⟩ := cutAt?_eq_some h
    exact ⟨rfl, hfirst⟩
  · rintro ⟨rfl, hfirst⟩
    exact cutAt?_of_first hfirst

/-- **If a piece starts with a character that it does not have again, its first
place is the one with no such piece before it.** Two of its places cannot
overlap. -/
theorem isFirst_cons_iff {c : Char} {cs : List Char} (hc : c ∉ cs) (before rest : List Char) :
    IsFirst (c :: cs) before rest ↔ ¬ c :: cs <:+: before := by
  constructor
  · rintro hfirst ⟨front, back, rfl⟩
    have hle := hfirst front (back ++ (c :: cs ++ rest)) (by simp)
    simp only [List.length_append, List.length_cons] at hle
    omega
  · intro hnot front back heq
    rcases List.append_eq_append_iff.mp heq with ⟨_, rfl, _⟩ | ⟨between, rfl, hbetween⟩
    · simp
    · -- an earlier place starts with what is between, and the later one would start inside it
      cases between with
      | nil => simp
      | cons d between =>
        obtain ⟨rfl, hrest⟩ := List.cons.inj hbetween
        exfalso
        rcases List.append_eq_append_iff.mp hrest with ⟨more, rfl, _⟩ | ⟨overlap, hcs, hlater⟩
        · exact hnot ⟨front, more, by simp⟩
        · cases overlap with
          | nil =>
            rw [List.append_nil] at hcs
            exact hnot ⟨front, [], by simp [hcs]⟩
          | cons e overlap =>
            obtain ⟨rfl, -⟩ := List.cons.inj hlater
            exact hc (hcs ▸ List.mem_append_right between List.mem_cons_self)

/-- A character is found behind a text without it. -/
theorem cutAt?_singleton {c : Char} {before : List Char} (h : c ∉ before) (rest : List Char) :
    cutAt? [c] (before ++ c :: rest) = some (before, rest) := by
  have hfirst : IsFirst [c] before rest := by
    rw [isFirst_cons_iff List.not_mem_nil]
    exact fun hplace => h (hplace.subset List.mem_cons_self)
  exact cutAt?_of_first hfirst

/-- What comes behind a text does not change where a piece is found in it. -/
theorem cutAt?_append {piece text before rest : List Char} (h : cutAt? piece text = some (before, rest))
    (more : List Char) : cutAt? piece (text ++ more) = some (before, rest ++ more) := by
  obtain ⟨rfl, hfirst⟩ := cutAt?_eq_some h
  rw [List.append_assoc, List.append_assoc]
  refine cutAt?_of_first fun front back heq => ?_
  by_contra hlt
  -- an earlier place ends before the first one does, and so it is in the text
  have hprefix : front ++ piece <+: before ++ (piece ++ rest) := by
    have hwhole : front ++ piece <+: before ++ (piece ++ (rest ++ more)) := ⟨back, by rw [heq, List.append_assoc]⟩
    have htext : before ++ (piece ++ rest) <+: before ++ (piece ++ (rest ++ more)) := ⟨more, by simp⟩
    refine List.prefix_of_prefix_length_le hwhole htext ?_
    simp only [List.length_append]
    omega
  obtain ⟨tail, htail⟩ := hprefix
  rw [List.append_assoc] at htail
  exact hlt (hfirst front tail htail.symm)

/-! ### Pieces around a character -/

theorem contains_iff (s piece : String) : contains s piece = true ↔ piece.toList <:+: s.toList :=
  cutAt?_isSome_iff _ _

/-- **A piece without the character occurs before it or behind it.** -/
theorem infix_append_cons_iff {piece : List Char} {c : Char} (hc : c ∉ piece) (front back : List Char) :
    piece <:+: front ++ c :: back ↔ piece <:+: front ∨ piece <:+: back := by
  constructor
  · intro h
    -- a start of the piece that begins with the character is empty
    have hstart : ∀ {start : List Char}, (∀ d ∈ start, d ∈ piece) → start <+: c :: back → start = [] := by
      rintro (_ | ⟨d, start⟩) hsub hprefix
      · rfl
      · obtain ⟨rfl, -⟩ := List.cons_prefix_cons.mp hprefix
        exact absurd (hsub d List.mem_cons_self) hc
    rcases List.infix_append_iff.mp h with hfront | hback | ⟨start, tail, rfl, hsuffix, hprefix⟩
    · exact .inl hfront
    · rcases List.infix_cons_iff.mp hback with hprefix | hback
      · rw [hstart (fun _ hd => hd) hprefix]
        exact .inl List.nil_infix
      · exact .inr hback
    · rw [hstart (fun d hd => List.mem_append_right start hd) hprefix, List.append_nil]
      exact .inl hsuffix.isInfix
  · rintro (h | h)
    · exact h.trans (List.prefix_append front _).isInfix
    · exact h.trans ((List.suffix_cons c back).trans (List.suffix_append front _)).isInfix

/-- A piece occurs behind characters that it does not have. -/
theorem infix_append_left_iff {piece front : List Char} (hne : piece ≠ []) (hfront : ∀ c ∈ front, c ∉ piece)
    (back : List Char) : piece <:+: front ++ back ↔ piece <:+: back := by
  induction front with
  | nil => exact Iff.rfl
  | cons c front ih =>
    rw [List.forall_mem_cons] at hfront
    have hone : piece <:+: [] ++ c :: (front ++ back) ↔ piece <:+: [] ∨ piece <:+: front ++ back :=
      infix_append_cons_iff hfront.1 [] _
    rw [List.infix_nil, or_iff_right hne] at hone
    exact hone.trans (ih hfront.2)

/-- A piece occurs in front of characters that it does not have. -/
theorem infix_append_right_iff {piece back : List Char} (hne : piece ≠ []) (hback : ∀ c ∈ back, c ∉ piece)
    (front : List Char) : piece <:+: front ++ back ↔ piece <:+: front := by
  rw [← List.reverse_infix, List.reverse_append, infix_append_left_iff, List.reverse_infix]
  · simpa using hne
  · simpa using hback

end Text
end Docblock
