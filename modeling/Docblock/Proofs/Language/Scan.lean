/-
# Comments read from left to right

A comment begins at `/**` and ends at the first `*/` that leaves it a character.
The end of a line behind the `/**` does not belong to it, and then it needs a
character behind that; only where there is no further `*/` the end of the line is
the comment itself. Reading a text so, mark by mark, finds the comments that the
pattern finds (`comments_eq_scan`), with all its choices and ways back.

Key definitions: `Language.comment?`, `Language.core`, `Language.scan`.
Key theorems: `Language.matchAt?_comment`, `Language.comments_eq_scan`.
-/
import Docblock.Language
import Docblock.Proofs.Pattern.Replace
import Docblock.Proofs.Text.Cut
import Docblock.Proofs.Text.OneLine

namespace Docblock
namespace Language

open Pattern Text

/-! ### Reading a text -/

/-- `/**`. -/
def opening : List Char := ['/', '*', '*']

/-- `*/`. -/
def closing : List Char := ['*', '/']

/-- The characters before the first `*/` that has one before it, and those
behind it. -/
def closed? : List Char → Option (List Char × List Char)
  | [] => none
  | c :: cs => (cutAt? closing cs).map fun (inside, behind) => (c :: inside, behind)

/-- The inside of a comment, behind the opening mark, and the text behind the
closing mark. -/
def comment? : List Char → Option (List Char × List Char)
  | [] => none
  | c :: cs => if c == lineMark then (closed? cs).or (closed? (c :: cs)) else closed? (c :: cs)

/-- The end of a line, and blanks. -/
def isMargin : List Char → Bool
  | [] => true
  | c :: cs => (c == lineMark || isBlank c) && cs.all isBlank

/-- The text of a comment: its shortest beginning, of one character at least,
behind which there is nothing but a margin. -/
def core : List Char → List Char
  | [] => []
  | c :: cs => if isMargin cs then [c] else c :: core cs

/-- A comment of a text: the text from behind its opening mark on, its inside,
and the text behind it. -/
structure Found where
  opened : List Char
  inside : List Char
  behind : List Char

/-- The first comment of a text. -/
def first? (text : List Char) : Option Found :=
  (cutAt? opening text).bind fun (_, opened) =>
    (comment? opened).map fun (inside, behind) => ⟨opened, inside, behind⟩

theorem closed?_eq_none_iff (cs : List Char) : closed? cs = none ↔ ¬ closing <:+: cs.tail := by
  cases cs with
  | nil => simp [closed?, closing]
  | cons c cs => rw [closed?, Option.map_eq_none_iff, cutAt?_eq_none_iff, List.tail_cons]

/-- A comment ends at the first closing mark that leaves it a character. -/
theorem closed?_eq_some {cs inside behind : List Char} (h : closed? cs = some (inside, behind)) :
    cs = inside ++ (closing ++ behind) ∧ inside ≠ [] ∧
      ∀ front back, cs = front ++ (closing ++ back) → front ≠ [] → inside.length ≤ front.length := by
  cases cs with
  | nil => cases h
  | cons c cs =>
    obtain ⟨⟨more, rest⟩, hcut, heq⟩ := Option.map_eq_some_iff.mp h
    cases heq
    obtain ⟨rfl, hfirst⟩ := cutAt?_eq_some hcut
    refine ⟨rfl, List.cons_ne_nil _ _, fun front back hplace hne => ?_⟩
    obtain ⟨d, front, rfl⟩ := List.exists_cons_of_ne_nil hne
    exact Nat.succ_le_succ (hfirst front back (List.cons.inj hplace).2)

theorem closed?_append {cs inside behind : List Char} (h : closed? cs = some (inside, behind))
    (more : List Char) : closed? (cs ++ more) = some (inside, behind ++ more) := by
  cases cs with
  | nil => cases h
  | cons c cs =>
    obtain ⟨⟨front, rest⟩, hcut, heq⟩ := Option.map_eq_some_iff.mp h
    cases heq
    rw [List.cons_append, closed?, cutAt?_append hcut, Option.map_some]

/-- A comment goes up to a closing mark, either with the end of a line in front
or without. -/
theorem comment?_cases {opened inside behind : List Char} (h : comment? opened = some (inside, behind)) :
    (∃ cs, opened = lineMark :: cs ∧ closed? cs = some (inside, behind)) ∨
      (closed? opened = some (inside, behind) ∧ (opened.head? = some lineMark → closed? opened.tail = none)) := by
  cases opened with
  | nil => cases h
  | cons c cs =>
    rw [comment?] at h
    split_ifs at h with hc
    · obtain rfl : c = lineMark := by simpa using hc
      rcases Option.or_eq_some_iff.mp h with h | ⟨hnone, h⟩
      · exact .inl ⟨cs, rfl, h⟩
      · exact .inr ⟨h, fun _ => hnone⟩
    · exact .inr ⟨h, fun hhead => absurd (Option.some.inj hhead) (by simpa using hc)⟩

theorem closed?_isSome_iff (cs : List Char) : (closed? cs).isSome ↔ closing <:+: cs.tail := by
  rw [Option.isSome_iff_ne_none, ne_eq, closed?_eq_none_iff, not_not]

/-- There is a comment if there is a closing mark that leaves it a character. -/
theorem comment?_isSome_iff (opened : List Char) : (comment? opened).isSome ↔ closing <:+: opened.tail := by
  rw [← closed?_isSome_iff]
  cases opened with
  | nil => rfl
  | cons c cs =>
    rw [comment?]
    split_ifs
    · have hlater : (closed? cs).isSome → (closed? (c :: cs)).isSome := by
        rw [closed?_isSome_iff, closed?_isSome_iff]
        exact fun h => h.trans (List.tail_suffix cs).isInfix
      rw [Option.isSome_or, Bool.or_eq_true]
      exact ⟨fun h => h.elim hlater id, .inr⟩
    · rfl

/-- The end of a line before a comment belongs to what is read. -/
theorem exists_of_comment? {opened inside behind : List Char} (h : comment? opened = some (inside, behind)) :
    ∃ front, opened = front ++ (closing ++ behind) := by
  rcases comment?_cases h with ⟨cs, rfl, hclosed⟩ | ⟨hclosed, -⟩
  · obtain ⟨rfl, -⟩ := closed?_eq_some hclosed
    exact ⟨lineMark :: inside, rfl⟩
  · obtain ⟨rfl, -⟩ := closed?_eq_some hclosed
    exact ⟨inside, rfl⟩

theorem first?_eq_some_iff {text : List Char} {f : Found} : first? text = some f ↔
    ∃ front, cutAt? opening text = some (front, f.opened) ∧ comment? f.opened = some (f.inside, f.behind) := by
  rw [first?, Option.bind_eq_some_iff]
  constructor
  · rintro ⟨⟨front, opened⟩, hcut, h⟩
    obtain ⟨⟨inside, behind⟩, hcomment, rfl⟩ := Option.map_eq_some_iff.mp h
    exact ⟨front, hcut, hcomment⟩
  · rintro ⟨front, hcut, hcomment⟩
    exact ⟨_, hcut, Option.map_eq_some_iff.mpr ⟨_, hcomment, rfl⟩⟩

theorem behind_suffix {text : List Char} {f : Found} (h : first? text = some f) : f.behind <:+ text := by
  obtain ⟨front, hcut, hcomment⟩ := first?_eq_some_iff.mp h
  obtain ⟨rfl, -⟩ := cutAt?_eq_some hcut
  obtain ⟨more, hopened⟩ := exists_of_comment? hcomment
  exact ⟨front ++ (opening ++ (more ++ closing)), by simp [hopened]⟩

theorem length_behind_lt {text : List Char} {f : Found} (h : first? text = some f) :
    f.behind.length < text.length := by
  obtain ⟨front, hcut, hcomment⟩ := first?_eq_some_iff.mp h
  obtain ⟨rfl, -⟩ := cutAt?_eq_some hcut
  obtain ⟨more, hopened⟩ := exists_of_comment? hcomment
  simp only [hopened, opening, closing, List.length_append, List.length_cons]
  omega

/-- The comments of a text, from left to right. -/
def scan (text : List Char) : List Found :=
  match _h : first? text with
  | none => []
  | some f => f :: scan f.behind
termination_by text.length
decreasing_by exact length_behind_lt _h

/-! ### The end of a comment -/

variable {α : Type} {next : Next α} {caps : Captures} {P : α → Prop}

/-- What follows the text of a comment. -/
abbrev ending (next : Next α) : Next α := run (opt lineEndMark) (run (opt blanks) (run (lit "*/") next))

/-- The text of a comment and what follows it. -/
abbrev inner (next : Next α) : Next α := run (.group 1 (charsLazy1 notNewline)) (ending next)

theorem run_comment (next : Next α) :
    run cStyle.comment next = run (lit "/**") (run (opt lineEndMark) (inner next)) := rfl

theorem isMargin_of_append {front back : List Char} (h : isMargin (front ++ back) = true) : isMargin front = true := by
  cases front with
  | nil => rfl
  | cons c front =>
    rw [List.cons_append, isMargin, List.all_append] at h
    simp_all [isMargin]

theorem accepts_closing {behind : List Char} (h : Accepts next behind caps P) :
    Accepts (run (lit "*/") next) (closing ++ behind) caps P := by
  have hmarks : Accepts (run (.one (· == '*')) (run (.one (· == '/')) next)) ('*' :: '/' :: behind) caps P :=
    accepts_one rfl (accepts_one rfl h)
  exact hmarks

theorem accepts_ending {margin behind : List Char} (hmargin : isMargin margin = true)
    (h : Accepts next behind caps P) : Accepts (ending next) (margin ++ (closing ++ behind)) caps P := by
  have hclose : ∀ blanks : List Char, (∀ c ∈ blanks, isBlank c = true) →
      Accepts (run (opt Pattern.blanks) (run (lit "*/") next)) (blanks ++ (closing ++ behind)) caps P :=
    fun blanks hblanks => accepts_opt (accepts_chars hblanks (by simp [closing, isBlank]) (accepts_closing h))
  cases margin with
  | nil => exact accepts_opt_absent (refuses_one (by simp [closing]; decide)) (hclose [] (by simp))
  | cons c margin =>
    rw [isMargin, Bool.and_eq_true, Bool.or_eq_true, List.all_eq_true] at hmargin
    by_cases hc : c = lineMark
    · exact accepts_opt (accepts_one (by simpa using hc) (hclose margin hmargin.2))
    · refine accepts_opt_absent (refuses_one (by simpa using hc)) (hclose (c :: margin) ?_)
      exact List.forall_mem_cons.mpr ⟨hmargin.1.resolve_left (by simpa using hc), hmargin.2⟩

theorem exists_of_ending {here : Cursor} {r : α} (h : ending next here caps = some r) :
    ∃ margin behind before', here.rest = margin ++ (closing ++ behind) ∧ isMargin margin = true ∧
      next ⟨before', behind⟩ caps = some r := by
  have hclose : ∀ {place : Cursor}, run (opt Pattern.blanks) (run (lit "*/") next) place caps = some r →
      ∃ blanks behind before', place.rest = blanks ++ (closing ++ behind) ∧ blanks.all isBlank = true ∧
        next ⟨before', behind⟩ caps = some r := by
    intro place hplace
    rcases cases_of_opt hplace with hblanks | hnone
    · obtain ⟨blanks, back, hrest, hall, hlit⟩ := exists_of_runChars hblanks
      obtain ⟨behind, before'', hback, hnext⟩ := exists_of_lit hlit
      have hmarks : back = closing ++ behind := hback
      exact ⟨blanks, behind, before'', by rw [hrest, hmarks], List.all_eq_true.mpr hall, hnext⟩
    · obtain ⟨behind, before'', hrest, hnext⟩ := exists_of_lit hnone
      exact ⟨[], behind, before'', hrest, rfl, hnext⟩
  rcases cases_of_opt h with hmark | hnone
  · obtain ⟨c, cs, hrest, hc, hmore⟩ := exists_of_one hmark
    obtain ⟨blanks, behind, before', hcs, hall, hnext⟩ := hclose hmore
    refine ⟨c :: blanks, behind, before', ?_, ?_, hnext⟩
    · rw [hrest, List.cons_append]
      exact congrArg (c :: ·) hcs
    · rw [isMargin, hc, hall]
      rfl
  · obtain ⟨blanks, behind, before', hrest, hall, hnext⟩ := hclose hnone
    refine ⟨blanks, behind, before', hrest, ?_, hnext⟩
    cases blanks with
    | nil => rfl
    | cons c blanks =>
      rw [List.all_cons, Bool.and_eq_true] at hall
      rw [isMargin, hall.1, hall.2, Bool.or_true, Bool.and_true]

/-! ### The text of a comment -/

theorem core_ne_nil {cs : List Char} (h : cs ≠ []) : core cs ≠ [] := by
  cases cs with
  | nil => exact absurd rfl h
  | cons c cs =>
    rw [core]
    split_ifs <;> exact List.cons_ne_nil _ _

/-- Behind the text there is a margin, and behind no shorter one. -/
theorem exists_margin : ∀ cs : List Char, ∃ margin, cs = core cs ++ margin ∧ isMargin margin = true ∧
    ∀ front back, core cs = front ++ back → front ≠ [] → back ≠ [] → isMargin (back ++ margin) = false
  | [] => ⟨[], rfl, rfl, fun front back heq hne => absurd (List.append_eq_nil_iff.mp heq.symm).1 hne⟩
  | c :: cs => by
    rw [core]
    split_ifs with hmargin
    · refine ⟨cs, rfl, hmargin, fun front back heq hfront hback => ?_⟩
      obtain ⟨d, front, rfl⟩ := List.exists_cons_of_ne_nil hfront
      exact absurd (List.append_eq_nil_iff.mp (List.cons.inj heq).2.symm).2 hback
    · obtain ⟨margin, hcs, hblank, hshort⟩ := exists_margin cs
      refine ⟨margin, by rw [List.cons_append, ← hcs], hblank, fun front back heq hfront hback => ?_⟩
      obtain ⟨d, front, rfl⟩ := List.exists_cons_of_ne_nil hfront
      have htail : core cs = front ++ back := (List.cons.inj heq).2
      cases front with
      | nil =>
        rw [List.nil_append] at htail
        rw [← htail, ← hcs]
        simpa using hmargin
      | cons e front => exact hshort (e :: front) back htail (List.cons_ne_nil _ _) hback

/-- What stands in a margin is the end of a line or a blank. -/
theorem mem_core {cs : List Char} {c : Char} (h : c ∈ cs) (hmark : c ≠ lineMark) (hblank : isBlank c = false) :
    c ∈ core cs := by
  obtain ⟨margin, hcs, hmargin, -⟩ := exists_margin cs
  rw [hcs, List.mem_append] at h
  refine h.resolve_right fun hmem => ?_
  cases margin with
  | nil => cases hmem
  | cons d margin =>
    rw [isMargin, Bool.and_eq_true, Bool.or_eq_true, List.all_eq_true, beq_iff_eq] at hmargin
    rcases List.mem_cons.mp hmem with rfl | hmem
    · exact hmargin.1.elim hmark (by simp [hblank])
    · rw [hmargin.2 c hmem] at hblank
      cases hblank

/-! ### One comment -/

/-- A shorter text is not followed by a closing mark. -/
theorem refuses_ending {cs inside behind front back margin : List Char} (hclosed : closed? cs = some (inside, behind))
    (hinside : inside = core inside ++ margin) (hcore : core inside = front ++ back) (hfront : front ≠ [])
    (hback : back ≠ []) : Refuses (ending next) (back ++ (margin ++ (closing ++ behind))) caps := by
  intro before
  rw [Option.eq_none_iff_forall_ne_some]
  intro r hr
  obtain ⟨heq, -, hfirst⟩ := closed?_eq_some hclosed
  obtain ⟨margin', behind', -, hplace, hmargin', -⟩ := exists_of_ending hr
  have hrest : back ++ (margin ++ (closing ++ behind)) = margin' ++ (closing ++ behind') := hplace
  rw [hcore, List.append_assoc] at hinside
  -- the mark is not before the first one, so all of `back` is in the margin
  have hlater : inside.length ≤ (front ++ margin').length := by
    refine hfirst _ behind' ?_ (by simp [hfront])
    rw [heq, hinside, List.append_assoc, List.append_assoc, List.append_assoc, hrest]
  have hlonger : back ++ margin <+: margin' := by
    have hwhole : back ++ margin <+: margin' ++ (closing ++ behind') :=
      ⟨closing ++ behind, by rw [← hrest, List.append_assoc]⟩
    refine List.prefix_of_prefix_length_le hwhole ⟨_, rfl⟩ ?_
    rw [hinside] at hlater
    simp only [List.length_append] at hlater ⊢
    omega
  obtain ⟨more, rfl⟩ := hlonger
  obtain ⟨margin'', hsame, -, hshort⟩ := exists_margin inside
  obtain rfl : margin = margin'' := by
    rw [hcore, List.append_assoc, hinside] at hsame
    exact List.append_cancel_left (List.append_cancel_left hsame)
  have hblank := isMargin_of_append hmargin'
  rw [hshort front back hcore hfront hback] at hblank
  cases hblank

/-- **The text goes up to the first closing mark that leaves it a character,**
without the margin before the mark. -/
theorem accepts_inner {cs inside behind : List Char} (hclosed : closed? cs = some (inside, behind))
    (hline : '\n' ∉ cs)
    (h : ∀ span : Span, span.text = String.ofList (core inside) → Accepts next behind ((1, span) :: caps) P) :
    Accepts (inner next) cs caps P := by
  obtain ⟨heq, hne, -⟩ := closed?_eq_some hclosed
  obtain ⟨margin, hinside, hmargin, -⟩ := exists_margin inside
  have hwhole : cs = core inside ++ (margin ++ (closing ++ behind)) := by
    rw [heq, ← List.append_assoc (core inside), ← hinside]
  have hplain : '\n' ∉ core inside := fun hmem => hline (hwhole ▸ List.mem_append_left _ hmem)
  rw [hwhole]
  exact accepts_group_charsLazy1 (core_ne_nil hne) (notNewline_of_not_mem hplain)
    (fun front back hcore hfront hback _ => refuses_ending hclosed hinside hcore hfront hback)
    (accepts_ending hmargin (h _ (text_span _ _)))

theorem infix_of_inner {here : Cursor} {r : α} (h : inner next here caps = some r) : closing <:+: here.rest.tail := by
  obtain ⟨piece, back, hrest, hne, -, hend⟩ := exists_of_group_charsLazy1 h
  obtain ⟨c, piece, rfl⟩ := List.exists_cons_of_ne_nil hne
  obtain ⟨margin, behind, -, hback, -, -⟩ := exists_of_ending hend
  dsimp only at hback
  rw [hrest, hback, List.cons_append, List.tail_cons]
  exact ⟨piece ++ margin, behind, by simp⟩

theorem refuses_inner {cs : List Char} (h : closed? cs = none) : Refuses (inner next) cs caps := by
  intro before
  rw [Option.eq_none_iff_forall_ne_some]
  exact fun r hr => (closed?_eq_none_iff cs).mp h (infix_of_inner hr)

/-- The end of a line is skipped if that leaves a comment. -/
theorem accepts_comment {opened inside behind : List Char} (hcomment : comment? opened = some (inside, behind))
    (hline : '\n' ∉ opened)
    (h : ∀ span : Span, span.text = String.ofList (core inside) → Accepts next behind ((1, span) :: caps) P) :
    Accepts (run cStyle.comment next) (opening ++ opened) caps P := by
  have hbody : Accepts (run (opt lineEndMark) (inner next)) opened caps P := by
    rcases comment?_cases hcomment with ⟨cs, rfl, hclosed⟩ | ⟨hclosed, hskip⟩
    · exact accepts_opt (accepts_one rfl (accepts_inner hclosed (fun hmem => hline (.tail _ hmem)) h))
    · refine accepts_opt_absent ?_ (accepts_inner hclosed hline h)
      cases opened with
      | nil => exact refuses_one (by simp)
      | cons c cs =>
        by_cases hc : c = lineMark
        · exact refuses_one_of_next (refuses_inner (hskip (congrArg some hc)))
        · exact refuses_one (by simpa using hc)
  have hmarks : Accepts (run (.one (· == '/')) (run (.one (· == '*')) (run (.one (· == '*'))
      (run (opt lineEndMark) (inner next))))) ('/' :: '*' :: '*' :: opened) caps P :=
    accepts_one rfl (accepts_one rfl (accepts_one rfl hbody))
  exact hmarks

theorem exists_opened {here : Cursor} {r : α} (h : run cStyle.comment next here caps = some r) :
    ∃ opened, here.rest = opening ++ opened ∧ closing <:+: opened.tail := by
  rw [run_comment] at h
  obtain ⟨opened, before, hrest, hbody⟩ := exists_of_lit h
  refine ⟨opened, hrest, ?_⟩
  rcases cases_of_opt hbody with hmark | hnone
  · obtain ⟨c, cs, hopened, -, hinner⟩ := exists_of_one hmark
    have hopened : opened = c :: cs := hopened
    rw [hopened, List.tail_cons]
    exact (infix_of_inner hinner).trans (List.tail_suffix cs).isInfix
  · exact infix_of_inner hnone

/-! ### All comments -/

/-- A match of the pattern is a comment of the text. -/
structure Reads (m : Match) (f : Found) : Prop where
  comment : comment? f.opened = some (f.inside, f.behind)
  start : m.start.rest = opening ++ f.opened
  stop : m.stop.rest = f.behind
  first : m.group? 1 = some (String.ofList (core f.inside))
  second : m.group? 2 = none

/-- **The pattern matches where a comment begins.** -/
theorem matchAt?_comment {opened inside behind : List Char} (hcomment : comment? opened = some (inside, behind))
    (hline : '\n' ∉ opened) (before : List Char) :
    ∃ m, matchAt? cStyle.comment ⟨before, opening ++ opened⟩ = some m ∧ Reads m ⟨opened, inside, behind⟩ := by
  have haccepts : Accepts (run cStyle.comment fun there caps =>
      some (⟨⟨before, opening ++ opened⟩, there, caps⟩ : Match)) (opening ++ opened) []
      fun m => Reads m ⟨opened, inside, behind⟩ := by
    refine accepts_comment hcomment hline fun span hspan place => ⟨_, rfl, hcomment, rfl, rfl, ?_, ?_⟩
    · rw [group?_eq_captured, captured_cons, if_pos rfl, hspan]
    · rw [group?_eq_captured, captured_cons, if_neg (show (1 : Nat) ≠ 2 by decide)]
      rfl
  exact haccepts before

/-- Before the first match there is no opening mark: it would begin a comment,
since there is a closing mark behind the match. -/
theorem cutAt?_of_no_match {before front opened : List Char} (hline : '\n' ∉ front ++ (opening ++ opened))
    (hclosing : closing <:+: opened.tail)
    (hnone : ∀ earlier piece, front = earlier ++ piece → piece ≠ [] →
      matchAt? cStyle.comment ⟨earlier.reverse ++ before, piece ++ (opening ++ opened)⟩ = none) :
    cutAt? opening (front ++ (opening ++ opened)) = some (front, opened) := by
  refine cutAt?_of_first fun earlier opened' heq => ?_
  by_contra hlt
  obtain ⟨piece, rfl⟩ : earlier <+: front :=
    List.prefix_of_prefix_length_le ⟨_, heq.symm⟩ ⟨_, rfl⟩ (Nat.le_of_not_le hlt)
  rw [List.append_assoc] at heq hline
  have hplace : piece ++ (opening ++ opened) = opening ++ opened' := List.append_cancel_left heq
  have hpiece : piece ≠ [] := by
    rintro rfl
    simp at hlt
  have hsuffix : opened <:+ opened'.tail := by
    have hwhole : opened'.tail <:+ opening ++ opened' := (List.tail_suffix _).trans ⟨opening, rfl⟩
    refine List.suffix_of_suffix_length_le ⟨piece ++ opening, by rw [List.append_assoc, hplace]⟩ hwhole ?_
    have hlength := congrArg List.length hplace
    have hpositive := List.length_pos_iff.mpr hpiece
    simp only [List.length_append, List.length_tail] at hlength ⊢
    omega
  have hlater : closing <:+: opened'.tail := hclosing.trans ((List.tail_suffix _).trans hsuffix).isInfix
  obtain ⟨⟨inside, behind⟩, hcomment⟩ := Option.isSome_iff_exists.mp ((comment?_isSome_iff _).mpr hlater)
  rw [hplace] at hline
  obtain ⟨m, hm, -⟩ := matchAt?_comment hcomment (fun hmem => hline (by simp [hmem])) (earlier.reverse ++ before)
  rw [← hplace, hnone earlier piece rfl hpiece] at hm
  cases hm

/-- The first match is the first comment. -/
theorem search_comment (before : List Char) {text : List Char} (hline : '\n' ∉ text) :
    Option.Rel Reads (search cStyle.comment before text) (first? text) := by
  cases hsearch : search cStyle.comment before text with
  | none =>
    cases hfirst : first? text with
    | none => exact .none
    | some f =>
      obtain ⟨front, hcut, hcomment⟩ := first?_eq_some_iff.mp hfirst
      obtain ⟨rfl, -⟩ := cutAt?_eq_some hcut
      obtain ⟨m, hm, -⟩ := matchAt?_comment hcomment (fun hmem => hline (by simp [hmem])) (front.reverse ++ before)
      rw [matchAt?_of_search_none hsearch] at hm
      cases hm
  | some m =>
    obtain ⟨front, back, rfl, hmatch, hnone⟩ := exists_of_search hsearch
    obtain ⟨opened, hback, hclosing⟩ := exists_opened hmatch
    obtain rfl : back = opening ++ opened := hback
    obtain ⟨⟨inside, behind⟩, hcomment⟩ := Option.isSome_iff_exists.mp ((comment?_isSome_iff opened).mpr hclosing)
    obtain ⟨m', hm', hreads⟩ := matchAt?_comment hcomment
      (fun hmem => hline (by simp [hmem])) (front.reverse ++ before)
    obtain rfl : m = m' := Option.some.inj (hmatch.symm.trans hm')
    have hfirst : first? (front ++ (opening ++ opened)) = some ⟨opened, inside, behind⟩ :=
      first?_eq_some_iff.mpr ⟨front, cutAt?_of_no_match hline hclosing hnone, hcomment⟩
    rw [hfirst]
    exact .some hreads

theorem takesSomething_comment : TakesSomething cStyle.comment :=
  takesSomething_of_one (a := (· == '/')) (q := .seq (all [.one (· == '*'), .one (· == '*')]) (body 1 (lit "*/")))
    fun _ => rfl

theorem scan_of_none {text : List Char} (h : first? text = none) : scan text = [] := by
  rw [scan]
  split
  · rfl
  · rename_i f hf
    rw [h] at hf
    cases hf

theorem scan_of_some {text : List Char} {f : Found} (h : first? text = some f) : scan text = f :: scan f.behind := by
  rw [scan]
  split
  · rename_i hf
    rw [h] at hf
    cases hf
  · rename_i f' hf
    rw [h] at hf
    cases hf
    rfl

/-- **The matches are the comments, read from left to right.** -/
theorem reads_matchesFrom : ∀ {fuel : Nat} {here : Cursor}, '\n' ∉ here.rest → here.rest.length < fuel →
    List.Forall₂ Reads (matchesFrom cStyle.comment fuel here) (scan here.rest)
  | 0, here, _, h => absurd h (Nat.not_lt_zero _)
  | fuel + 1, here, hline, h => by
    have hrel := search_comment here.before hline
    rw [matchesFrom_succ takesSomething_comment]
    cases hfirst : first? here.rest with
    | none =>
      rw [hfirst] at hrel
      cases hsearch : search cStyle.comment here.before here.rest with
      | none =>
        rw [scan_of_none hfirst]
        exact .nil
      | some m =>
        rw [hsearch] at hrel
        cases hrel
    | some f =>
      rw [hfirst] at hrel
      cases hsearch : search cStyle.comment here.before here.rest with
      | none =>
        rw [hsearch] at hrel
        cases hrel
      | some m =>
        rw [hsearch] at hrel
        obtain hreads : Reads m f := by
          cases hrel
          assumption
        rw [scan_of_some hfirst]
        refine .cons hreads ?_
        rw [← hreads.stop]
        have hless := length_behind_lt hfirst
        have hsuffix := behind_suffix hfirst
        refine reads_matchesFrom ?_ ?_
        · rw [hreads.stop]
          exact fun hmem => hline (hsuffix.subset hmem)
        · rw [hreads.stop]
          omega

/-- The text of a comment, without the leaders of its lines. -/
def shown (f : Found) : String :=
  cStyle.leader.replaceAll (fun _ => "") (unflatten (String.ofList (core f.inside)))

theorem reads_findAll (s : String) : List.Forall₂ Reads (cStyle.comment.findAll (flatten s)) (scan (flat s)) := by
  rw [findAll_eq_matchesFrom takesSomething_comment, ← toList_flatten]
  refine reads_matchesFrom ?_ ?_
  · rw [Cursor.ofChars, toList_flatten]
    exact newline_not_mem_flat s
  · rw [Cursor.ofChars, String.length_toList]
    omega

/-- **The comments of a source are those that are read from left to right.** -/
theorem comments_eq_scan (s : String) : cStyle.comments s = (scan (flat s)).map shown := by
  have hreads := reads_findAll s
  rw [comments]
  generalize cStyle.comment.findAll (flatten s) = ms at hreads ⊢
  generalize scan (flat s) = fs at hreads ⊢
  induction hreads with
  | nil => rfl
  | cons hm _ ih =>
    rw [List.filterMap_cons, hm.second, hm.first, ih]
    rfl

end Language
end Docblock
