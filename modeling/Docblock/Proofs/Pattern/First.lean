/-
# The first way to match

A pattern is matched together with what follows it, and the first way that
leads to a match of the whole wins. What follows accepts a rest of the text, or
refuses it, whatever stands before it (`Accepts`, `Refuses`). For each kind of
pattern a lemma says which piece it takes: a greedy run goes as far as it can
and gives back what is refused (`accepts_chars_backtrack`), a lazy one stops at
the first place that is not refused (`accepts_charsLazy`), and a choice is made
for the second only if the first is refused (`accepts_alt_right`).

Key definitions: `Pattern.Accepts`, `Pattern.Refuses`.
Key theorems: `Pattern.accepts_chars_backtrack`, `Pattern.accepts_charsLazy`,
`Pattern.accepts_group_charsLazy1`, `Pattern.accepts_alt_right`,
`Pattern.refuses_chars`, `Pattern.accepts_enclosed`.
-/
import Docblock.Pattern.Search
import Mathlib.Data.List.Infix
import Mathlib.Data.List.TakeWhile

namespace Docblock
namespace Pattern

variable {α : Type} {next : Next α} {rest : List Char} {caps : Captures} {P : α → Prop} {a : Char → Bool}
  {p q : Pattern}

/-- From here on there is a match, and its result is as `P` says. -/
def Accepts (next : Next α) (rest : List Char) (caps : Captures) (P : α → Prop) : Prop :=
  ∀ before, ∃ r, next ⟨before, rest⟩ caps = some r ∧ P r

/-- From here on there is no match. -/
def Refuses (next : Next α) (rest : List Char) (caps : Captures) : Prop :=
  ∀ before, next ⟨before, rest⟩ caps = none

/-! ### Single characters and places -/

theorem accepts_one {c : Char} (hc : a c = true) (h : Accepts next rest caps P) :
    Accepts (run (.one a) next) (c :: rest) caps P := by
  intro before
  simp only [run, hc, ↓reduceIte]
  exact h (c :: before)

theorem refuses_one (h : ∀ c ∈ rest.head?, a c = false) : Refuses (run (.one a) next) rest caps := by
  intro before
  cases rest with
  | nil => rfl
  | cons c cs =>
    have hc : a c = false := h c rfl
    simp [run, hc]

theorem refuses_one_of_next {c : Char} (h : Refuses next rest caps) :
    Refuses (run (.one a) next) (c :: rest) caps := by
  intro before
  simp only [run]
  split
  · exact h (c :: before)
  · rfl

theorem accepts_textEnd (h : Accepts next [] caps P) : Accepts (run .textEnd next) [] caps P := h

theorem refuses_textEnd {c : Char} : Refuses (run .textEnd next) (c :: rest) caps := fun _ => rfl

theorem accepts_lineEnd (hrest : ∀ c ∈ rest.head?, c = '\n') (h : Accepts next rest caps P) :
    Accepts (run .lineEnd next) rest caps P := by
  intro before
  have hend : Cursor.atLineEnd ⟨before, rest⟩ = true := by
    cases rest with
    | nil => rfl
    | cons c cs => simpa [Cursor.atLineEnd] using hrest c rfl
  simp only [run, hend, ↓reduceIte]
  exact h before

theorem refuses_lineEnd {c : Char} (hc : c ≠ '\n') : Refuses (run .lineEnd next) (c :: rest) caps := by
  intro before
  have hend : Cursor.atLineEnd ⟨before, c :: rest⟩ = false := by simpa [Cursor.atLineEnd] using hc
  simp only [run, hend, Bool.false_eq_true, ↓reduceIte]

theorem run_lineStart {here : Cursor} (h : here.atLineStart = true) :
    run .lineStart next here caps = next here caps := by
  simp only [run, h, ↓reduceIte]

theorem run_lineStart_eq_none {here : Cursor} (h : here.atLineStart = false) :
    run .lineStart next here caps = none := by
  simp only [run, h, Bool.false_eq_true, ↓reduceIte]

/-- A text of one character. -/
theorem lit_of_toList {s : String} {c : Char} (hs : s.toList = [c]) : lit s = .one (· == c) := by
  rw [lit, hs]
  rfl

theorem accepts_lit {s : String} {c : Char} (hs : s.toList = [c]) (h : Accepts next rest caps P) :
    Accepts (run (lit s) next) (c :: rest) caps P := by
  rw [lit_of_toList hs]
  exact accepts_one (by simp) h

theorem refuses_lit {s : String} {c : Char} (hs : s.toList = [c]) (h : rest.head? ≠ some c) :
    Refuses (run (lit s) next) rest caps := by
  rw [lit_of_toList hs]
  refine refuses_one fun d hd => ?_
  rw [beq_eq_false_iff_ne]
  rintro rfl
  exact h hd

theorem accepts_all_one : ∀ (cs : List Char), Accepts next rest caps P →
    Accepts (run (all (cs.map fun c => .one (· == c))) next) (cs ++ rest) caps P
  | [], h => h
  | [c], h => accepts_one (beq_self_eq_true c) h
  | c :: d :: cs, h => accepts_one (beq_self_eq_true c) (accepts_all_one (d :: cs) h)

/-- A text is taken as it is. -/
theorem accepts_text (s : String) (h : Accepts next rest caps P) :
    Accepts (run (lit s) next) (s.toList ++ rest) caps P :=
  accepts_all_one s.toList h

/-! ### Choices and groups -/

theorem accepts_alt_left (h : Accepts (run p next) rest caps P) : Accepts (run (.alt p q) next) rest caps P := by
  intro before
  obtain ⟨r, hr, hP⟩ := h before
  exact ⟨r, run_alt_left hr, hP⟩

theorem accepts_alt_right (hp : Refuses (run p next) rest caps) (h : Accepts (run q next) rest caps P) :
    Accepts (run (.alt p q) next) rest caps P := by
  intro before
  obtain ⟨r, hr, hP⟩ := h before
  exact ⟨r, by simp only [run, hp before, hr], hP⟩

theorem refuses_alt (hp : Refuses (run p next) rest caps) (hq : Refuses (run q next) rest caps) :
    Refuses (run (.alt p q) next) rest caps := by
  intro before
  simp only [run, hp before, hq before]

theorem accepts_opt (h : Accepts (run p next) rest caps P) : Accepts (run (opt p) next) rest caps P :=
  accepts_alt_left h

theorem accepts_opt_absent (hp : Refuses (run p next) rest caps) (h : Accepts next rest caps P) :
    Accepts (run (opt p) next) rest caps P :=
  accepts_alt_right hp h

theorem refuses_opt (hp : Refuses (run p next) rest caps) (h : Refuses next rest caps) :
    Refuses (run (opt p) next) rest caps :=
  refuses_alt hp h

theorem accepts_group {n : Nat}
    (h : Accepts (run p fun there caps => next there ((n, ⟨rest, there.rest⟩) :: caps)) rest caps P) :
    Accepts (run (.group n p) next) rest caps P := h

theorem refuses_group {n : Nat}
    (h : Refuses (run p fun there caps => next there ((n, ⟨rest, there.rest⟩) :: caps)) rest caps) :
    Refuses (run (.group n p) next) rest caps := h

/-! ### Runs of characters -/

/-- All of a line can be taken as a line. -/
theorem notNewline_of_not_mem {cs : List Char} (h : '\n' ∉ cs) : ∀ c ∈ cs, notNewline c = true := by
  intro c hc
  rw [notNewline, bne_iff_ne]
  rintro rfl
  exact h hc

theorem newline_not_mem_of_forall {cs : List Char} (h : ∀ c ∈ cs, notNewline c = true) : '\n' ∉ cs :=
  fun hmem => absurd (h _ hmem) (by decide)

/-- A greedy run gives back what is refused. -/
theorem accepts_chars_backtrack {front back : List Char} (hfront : ∀ c ∈ front, a c = true)
    (hback : ∀ c ∈ back, a c = true) (hrest : ∀ c ∈ rest.head?, a c = false)
    (hlonger : ∀ taken left, back = taken ++ left → taken ≠ [] → Refuses next (left ++ rest) caps)
    (h : Accepts next (back ++ rest) caps P) :
    Accepts (run (.chars a) next) (front ++ (back ++ rest)) caps P := by
  -- behind the place nothing is accepted
  have hstop : ∀ (left : List Char), (∀ c ∈ left, a c = true) →
      (∀ taken more, left = taken ++ more → Refuses next (more ++ rest) caps) →
      ∀ before, runChars a next caps before (left ++ rest) = none := by
    intro left
    induction left with
    | nil =>
      intro _ hrefuses before
      have hnone := hrefuses [] [] rfl before
      rw [List.nil_append] at hnone ⊢
      cases rest with
      | nil => exact hnone
      | cons c cs =>
        have hc : a c = false := hrest c rfl
        rw [runChars, hc]
        exact hnone
    | cons c left ih =>
      intro hall hrefuses before
      rw [List.forall_mem_cons] at hall
      have hnone := hrefuses [] (c :: left) rfl before
      have hlater := ih hall.2 (fun taken more heq => hrefuses (c :: taken) more (by rw [heq]; rfl)) (c :: before)
      rw [List.cons_append] at hnone ⊢
      rw [runChars, if_pos hall.1, hlater, hnone]
  have hhere : ∀ before, runChars a next caps before (back ++ rest) = next ⟨before, back ++ rest⟩ caps := by
    intro before
    cases back with
    | nil =>
      rw [List.nil_append]
      cases rest with
      | nil => rfl
      | cons c cs =>
        have hc : a c = false := hrest c rfl
        rw [runChars, hc]
        rfl
    | cons c back =>
      rw [List.forall_mem_cons] at hback
      have hnone := hstop back hback.2
        (fun taken more heq => hlonger (c :: taken) more (by rw [heq]; rfl) (List.cons_ne_nil _ _)) (c :: before)
      rw [List.cons_append, runChars, if_pos hback.1, hnone]
  have hrun : ∀ before, ∃ r, runChars a next caps before (front ++ (back ++ rest)) = some r ∧ P r := by
    induction front with
    | nil =>
      intro before
      rw [List.nil_append, hhere]
      exact h before
    | cons c front ih =>
      intro before
      rw [List.forall_mem_cons] at hfront
      obtain ⟨r, hr, hP⟩ := ih hfront.2 (c :: before)
      exact ⟨r, by rw [List.cons_append, runChars, if_pos hfront.1, hr], hP⟩
  exact hrun

/-- A greedy run goes as far as it can. -/
theorem accepts_chars {piece : List Char} (hpiece : ∀ c ∈ piece, a c = true)
    (hrest : ∀ c ∈ rest.head?, a c = false) (h : Accepts next rest caps P) :
    Accepts (run (.chars a) next) (piece ++ rest) caps P := by
  have hall : Accepts (run (.chars a) next) (piece ++ ([] ++ rest)) caps P :=
    accepts_chars_backtrack hpiece (by simp) hrest
      (fun taken left heq hne => absurd (List.append_eq_nil_iff.mp heq.symm).1 hne) h
  exact hall

/-- A run of nothing, where none can begin. -/
theorem accepts_chars_nil (hrest : ∀ c ∈ rest.head?, a c = false) (h : Accepts next rest caps P) :
    Accepts (run (.chars a) next) rest caps P := by
  have hnil : Accepts (run (.chars a) next) ([] ++ rest) caps P := accepts_chars (by simp) hrest h
  exact hnil

/-- A group holds all the characters that are taken. -/
theorem accepts_group_chars {n : Nat} {piece : List Char} (hpiece : ∀ c ∈ piece, a c = true)
    (hrest : ∀ c ∈ rest.head?, a c = false) (h : Accepts next rest ((n, ⟨piece ++ rest, rest⟩) :: caps) P) :
    Accepts (run (.group n (.chars a)) next) (piece ++ rest) caps P :=
  accepts_group (accepts_chars hpiece hrest h)

theorem accepts_group_chars1 {n : Nat} {piece : List Char} (hne : piece ≠ []) (hpiece : ∀ c ∈ piece, a c = true)
    (hrest : ∀ c ∈ rest.head?, a c = false) (h : Accepts next rest ((n, ⟨piece ++ rest, rest⟩) :: caps) P) :
    Accepts (run (.group n (chars1 a)) next) (piece ++ rest) caps P := by
  obtain ⟨c, cs, rfl⟩ := List.exists_cons_of_ne_nil hne
  rw [List.forall_mem_cons] at hpiece
  exact accepts_group (accepts_one hpiece.1 (accepts_chars hpiece.2 hrest h))

/-- A lazy run stops at the first place that is not refused. -/
theorem accepts_charsLazy {piece : List Char} (hpiece : ∀ c ∈ piece, a c = true)
    (hshort : ∀ front back, piece = front ++ back → back ≠ [] → Refuses next (back ++ rest) caps)
    (h : Accepts next rest caps P) : Accepts (run (.charsLazy a) next) (piece ++ rest) caps P := by
  have hrun : ∀ before, ∃ r, runCharsLazy a next caps before (piece ++ rest) = some r ∧ P r := by
    induction piece with
    | nil =>
      intro before
      obtain ⟨r, hr, hP⟩ := h before
      rw [List.nil_append]
      cases rest with
      | nil => exact ⟨r, hr, hP⟩
      | cons c cs => exact ⟨r, by rw [runCharsLazy, hr], hP⟩
    | cons c piece ih =>
      intro before
      rw [List.forall_mem_cons] at hpiece
      have hnone := hshort [] (c :: piece) rfl (List.cons_ne_nil _ _) before
      obtain ⟨r, hr, hP⟩ :=
        ih hpiece.2 (fun front back heq => hshort (c :: front) back (by rw [heq]; rfl)) (c :: before)
      rw [List.cons_append] at hnone ⊢
      exact ⟨r, by rw [runCharsLazy, hnone, if_pos hpiece.1, hr], hP⟩
  exact hrun

theorem accepts_charsLazy_nil (h : Accepts next rest caps P) : Accepts (run (.charsLazy a) next) rest caps P := by
  have hnil : Accepts (run (.charsLazy a) next) ([] ++ rest) caps P :=
    accepts_charsLazy (by simp) (fun front back heq hne => absurd (List.append_eq_nil_iff.mp heq.symm).2 hne) h
  exact hnil

/-- A group holds the shortest piece behind which the rest is not refused. -/
theorem accepts_group_charsLazy1 {n : Nat} {piece : List Char} (hne : piece ≠ [])
    (hpiece : ∀ c ∈ piece, a c = true)
    (hshort : ∀ front back, piece = front ++ back → front ≠ [] → back ≠ [] → ∀ caps, Refuses next (back ++ rest) caps)
    (h : Accepts next rest ((n, ⟨piece ++ rest, rest⟩) :: caps) P) :
    Accepts (run (.group n (charsLazy1 a)) next) (piece ++ rest) caps P := by
  obtain ⟨c, cs, rfl⟩ := List.exists_cons_of_ne_nil hne
  rw [List.forall_mem_cons] at hpiece
  exact accepts_group (accepts_one hpiece.1 (accepts_charsLazy hpiece.2 (fun front back heq hback before =>
    hshort (c :: front) back (by rw [heq]; rfl) (List.cons_ne_nil _ _) hback _ before) h))

/-- A run is refused if all its ends are. -/
theorem refuses_chars (h : ∀ front back, rest = front ++ back → (∀ c ∈ front, a c = true) → Refuses next back caps) :
    Refuses (run (.chars a) next) rest caps := by
  have hrun : ∀ before, runChars a next caps before rest = none := by
    induction rest with
    | nil => exact h [] [] rfl (by simp)
    | cons c cs ih =>
      intro before
      have hhere := h [] (c :: cs) rfl (by simp) before
      rw [runChars]
      by_cases hc : a c = true
      · have hlater := ih (fun front back heq hfront =>
          h (c :: front) back (by rw [heq]; rfl) (List.forall_mem_cons.mpr ⟨hc, hfront⟩)) (c :: before)
        rw [if_pos hc, hlater, hhere]
      · rw [if_neg hc, hhere]
  exact hrun

/-- A run of nothing, where none can begin. -/
theorem refuses_chars_of_head (hrest : ∀ c ∈ rest.head?, a c = false) (h : Refuses next rest caps) :
    Refuses (run (.chars a) next) rest caps := by
  refine refuses_chars fun front back heq hfront => ?_
  cases front with
  | nil => rwa [heq] at h
  | cons c front =>
    have hc := hrest c (by rw [heq]; rfl)
    rw [hfront c List.mem_cons_self] at hc
    cases hc

/-! ### Pieces between blanks -/

/-- Blanks are refused if something else than the character comes behind them. -/
theorem refuses_blanks_lit {s : String} {c : Char} (hs : s.toList = [c]) (hc : Text.isBlank c = false)
    (h : (rest.dropWhile Text.isBlank).head? ≠ some c) :
    Refuses (run blanks (run (lit s) next)) rest caps := by
  refine refuses_chars fun front back heq hfront => refuses_lit hs fun hhead => h ?_
  obtain ⟨tail, rfl⟩ : ∃ tail, back = c :: tail := List.head?_eq_some_iff.mp hhead
  rw [heq, List.dropWhile_append_of_pos hfront, List.dropWhile_cons_of_neg (by simp [hc])]
  rfl

/-- A piece of a line that can stand between a bracket and the closing
character, without blanks around it. -/
structure IsInner (close : Char) (piece : List Char) : Prop where
  ne_nil : piece ≠ []
  head : ∀ c ∈ piece.head?, Text.isBlank c = false
  last : ∀ c ∈ piece.getLast?, Text.isBlank c = false
  close : close ∉ piece
  newline : '\n' ∉ piece

theorem IsInner.notNewline {close : Char} {piece : List Char} (h : IsInner close piece) :
    ∀ c ∈ piece, notNewline c = true :=
  notNewline_of_not_mem h.newline

/-- What is left of such a piece does not end in blanks before the closing
character. -/
theorem IsInner.head?_dropWhile {close : Char} {piece : List Char} (h : IsInner close piece)
    (front : List Char) {back : List Char} (heq : piece = front ++ back) (hback : back ≠ []) (rest : List Char) :
    ((back ++ rest).dropWhile Text.isBlank).head? ≠ some close := by
  subst heq
  have hlast : Text.isBlank (back.getLast hback) = false := by
    refine h.last _ ?_
    rw [List.getLast?_append, List.getLast?_eq_some_getLast hback]
    rfl
  have hfirst : ¬ ∀ c ∈ back, Text.isBlank c = true := fun hall => by
    rw [hall _ (List.getLast_mem hback)] at hlast
    cases hlast
  intro hhead
  have hdrop : back.dropWhile Text.isBlank ≠ [] := by
    rwa [ne_eq, List.dropWhile_eq_nil_iff]
  obtain ⟨c, tail, hcons⟩ := List.exists_cons_of_ne_nil hdrop
  rw [List.dropWhile_append, hcons] at hhead
  obtain rfl : c = close := by simpa using hhead
  have hmem : c ∈ back := (List.dropWhile_sublist Text.isBlank).subset (by rw [hcons]; simp)
  exact h.close (List.mem_append_right front hmem)

/-- **A piece before a closing character is taken whole,** without the blanks
around it. It ends at the first such character. -/
theorem accepts_enclosed {n : Nat} {s : String} {close : Char} {before piece after : List Char}
    (hs : s.toList = [close]) (hclose : Text.isBlank close = false) (hbefore : ∀ c ∈ before, Text.isBlank c = true)
    (hafter : ∀ c ∈ after, Text.isBlank c = true) (hpiece : IsInner close piece)
    (h : Accepts next rest ((n, ⟨piece ++ (after ++ close :: rest), after ++ close :: rest⟩) :: caps) P) :
    Accepts (run blanks (run (.group n (charsLazy1 notNewline)) (run blanks (run (lit s) next))))
      (before ++ (piece ++ (after ++ close :: rest))) caps P := by
  have hhead : ∀ c ∈ (piece ++ (after ++ close :: rest)).head?, Text.isBlank c = false := by
    rw [List.head?_append_of_ne_nil _ hpiece.ne_nil]
    exact hpiece.head
  refine accepts_chars hbefore hhead (accepts_group_charsLazy1 hpiece.ne_nil hpiece.notNewline
    (fun front back heq _ hne _ => ?_) ?_)
  · exact refuses_blanks_lit hs hclose (hpiece.head?_dropWhile front heq hne _)
  · exact accepts_chars hafter (by simpa using hclose) (accepts_lit hs h)

/-! ### What groups hold -/

/-- The text of a group. -/
def captured (caps : Captures) (n : Nat) : Option String :=
  (caps.find? fun entry => entry.1 == n).map fun entry => entry.2.text

theorem group?_eq_captured (m : Match) (n : Nat) : m.group? n = captured m.captures n := rfl

theorem captured_cons (entry : Nat × Span) (caps : Captures) (n : Nat) :
    captured (entry :: caps) n = if entry.1 = n then some entry.2.text else captured caps n := by
  by_cases h : entry.1 = n
  · simp [captured, h]
  · simp [captured, h]

theorem captured_append (new caps : Captures) (n : Nat) :
    captured (new ++ caps) n = (captured new n).or (captured caps n) := by
  induction new with
  | nil => rfl
  | cons entry new ih =>
    rw [List.cons_append, captured_cons, captured_cons, ih]
    split <;> rfl

theorem captured_of_not_mem {caps : Captures} {n : Nat} (h : n ∉ caps.map Prod.fst) : captured caps n = none := by
  induction caps with
  | nil => rfl
  | cons entry caps ih =>
    rw [List.map_cons, List.mem_cons, not_or] at h
    rw [captured_cons, if_neg (Ne.symm h.1), ih h.2]

/-- The text of a piece. -/
theorem text_span (piece rest : List Char) : (Span.mk (piece ++ rest) rest).text = String.ofList piece := by
  simp [Span.text, Span.chars]

/-! ### Searching -/

theorem search_of_matchAt? {before rest : List Char} {m : Match} (h : matchAt? p ⟨before, rest⟩ = some m) :
    search p before rest = some m := by
  cases rest with
  | nil => exact h
  | cons c cs => rw [search, h]

end Pattern
end Docblock
