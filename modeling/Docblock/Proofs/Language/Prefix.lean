/-
# Comments and the text behind them

A comment that is closed stays as it is, whatever comes behind it
(`closed?_append`), with one exception. In a comment of nothing but the end of a
line this end of a line is the text, as long as no other closing mark comes.
With one more `*/` somewhere behind it, the end of the line is skipped, the
comment goes on up to that mark, and the comments in between are lost
(`first?_append_of_not_holds`). So the comments of a source are the first ones of
a longer source exactly if this does not happen (`comments_prefix_iff`), and all
comments but the last one are so in any case.

Key definitions: `Language.Holds`.
Key theorems: `Language.first?_append`, `Language.scan_extend`,
`Language.comments_prefix_iff`.
-/
import Docblock.Proofs.Language.Scan

namespace Docblock
namespace Language

open Pattern Text

/-! ### One comment -/

/-- The comment with more text behind it. -/
def Found.extend (more : List Char) (f : Found) : Found := ⟨f.opened ++ more, f.inside, f.behind ++ more⟩

/-- No text behind the comment changes it: if it has nothing but the end of a
line, there is no other closing mark. -/
def Holds (more : List Char) (f : Found) : Prop :=
  f.opened = lineMark :: (closing ++ f.behind) → ¬ closing <:+: f.behind ++ more

theorem comment?_hollow (behind : List Char) :
    comment? (lineMark :: (closing ++ behind)) =
      ((cutAt? closing ('/' :: behind)).map fun (inside, behind) => ('*' :: inside, behind)).or
        (some ([lineMark], behind)) := by
  have hhere : cutAt? closing ([] ++ (closing ++ behind)) = some ([], behind) :=
    cutAt?_of_first fun _ _ _ => Nat.zero_le _
  rw [List.nil_append] at hhere
  rw [comment?, if_pos (beq_self_eq_true lineMark), closed?, hhere]
  rfl

theorem infix_slash_iff (behind : List Char) : closing <:+: '/' :: behind ↔ closing <:+: behind := by
  rw [List.infix_cons_iff, or_iff_right]
  rintro ⟨rest, hrest⟩
  exact absurd (List.cons.inj hrest).1 (by decide)

/-- The comment of the end of a line, if there is no other closing mark. -/
theorem comment?_hollow_of_no_closing {behind : List Char} (h : ¬ closing <:+: behind) :
    comment? (lineMark :: (closing ++ behind)) = some ([lineMark], behind) := by
  rw [comment?_hollow, (cutAt?_eq_none_iff _ _).mpr (mt (infix_slash_iff behind).mp h)]
  rfl

/-- With another closing mark the first one is in the text. -/
theorem comment?_hollow_of_closing {behind : List Char} (h : closing <:+: behind) :
    ∃ inside later, comment? (lineMark :: (closing ++ behind)) = some ('*' :: '/' :: inside, later) ∧
      behind = inside ++ (closing ++ later) := by
  obtain ⟨⟨inside, later⟩, hcut⟩ :=
    Option.isSome_iff_exists.mp ((cutAt?_isSome_iff closing _).mpr ((infix_slash_iff behind).mpr h))
  obtain ⟨heq, -⟩ := cutAt?_eq_some hcut
  rw [comment?_hollow, hcut]
  cases inside with
  | nil => exact absurd (List.cons.inj heq).1 (by decide)
  | cons c inside =>
    obtain ⟨rfl, hbehind⟩ := List.cons.inj heq
    exact ⟨inside, later, rfl, hbehind⟩

/-- A comment that is closed behind the end of a line has no other closing mark
behind it. -/
theorem eq_of_hollow {inside behind : List Char}
    (h : comment? (lineMark :: (closing ++ behind)) = some (inside, behind)) :
    inside = [lineMark] ∧ ¬ closing <:+: behind := by
  have hnone : ¬ closing <:+: behind := by
    intro hmark
    obtain ⟨more, later, hlater, hshorter⟩ := comment?_hollow_of_closing hmark
    obtain ⟨-, rfl⟩ := Prod.mk.inj (Option.some.inj (hlater.symm.trans h))
    have hlength := congrArg List.length hshorter
    simp only [List.length_append, closing, List.length_cons] at hlength
    omega
  rw [comment?_hollow_of_no_closing hnone] at h
  exact ⟨(congrArg Prod.fst (Option.some.inj h)).symm, hnone⟩

/-- **A closed comment stays as it is,** or it is the end of a line. -/
theorem comment?_append {opened inside behind : List Char} (h : comment? opened = some (inside, behind))
    (more : List Char) : comment? (opened ++ more) = some (inside, behind ++ more) ∨
      opened = lineMark :: (closing ++ behind) := by
  rcases comment?_cases h with ⟨cs, rfl, hclosed⟩ | ⟨hclosed, hskip⟩
  · left
    rw [List.cons_append, comment?, if_pos (beq_self_eq_true lineMark), closed?_append hclosed]
    rfl
  · cases opened with
    | nil => cases h
    | cons c cs =>
      by_cases hc : c = lineMark
      · right
        subst hc
        have hnone := (closed?_eq_none_iff cs).mp (hskip rfl)
        obtain ⟨heq, hne, -⟩ := closed?_eq_some hclosed
        obtain ⟨d, front, rfl⟩ := List.exists_cons_of_ne_nil hne
        obtain ⟨rfl, rfl⟩ := List.cons.inj heq
        cases front with
        | nil => rfl
        | cons e front => exact absurd ⟨front, behind, by simp⟩ hnone
      · left
        rw [List.cons_append, comment?, if_neg (by simpa using hc), ← List.cons_append, closed?_append hclosed]

/-! ### The comments of a longer text -/

variable {text more : List Char} {f : Found}

theorem first?_append (h : first? text = some f) (hholds : Holds more f) :
    first? (text ++ more) = some (f.extend more) := by
  obtain ⟨front, hcut, hcomment⟩ := first?_eq_some_iff.mp h
  refine first?_eq_some_iff.mpr ⟨front, cutAt?_append hcut more, ?_⟩
  rcases comment?_append hcomment more with hsame | hhollow
  · exact hsame
  · rw [hhollow] at hcomment
    obtain ⟨hinside, -⟩ := eq_of_hollow hcomment
    show comment? (f.opened ++ more) = some (f.inside, f.behind ++ more)
    rw [hhollow, List.cons_append, List.append_assoc, comment?_hollow_of_no_closing (hholds hhollow), hinside]

theorem scan_of_no_closing (h : ¬ closing <:+: text) : scan text = [] := by
  refine scan_of_none (Option.eq_none_iff_forall_ne_some.mpr fun f hf => h ?_)
  obtain ⟨front, hcut, hcomment⟩ := first?_eq_some_iff.mp hf
  obtain ⟨rfl, -⟩ := cutAt?_eq_some hcut
  obtain ⟨more, hopened⟩ := exists_of_comment? hcomment
  exact ⟨front ++ (opening ++ more), f.behind, by simp [hopened]⟩

/-- **The comment of an end of line goes on to the next closing mark.** It is
the last one, and what it becomes has the closing mark in its text. -/
theorem first?_append_of_not_holds (h : first? text = some f) (hholds : ¬ Holds more f) :
    f.inside = [lineMark] ∧ scan f.behind = [] ∧ ∃ g, first? (text ++ more) = some g ∧ '/' ∈ g.inside := by
  obtain ⟨hhollow, hmark⟩ : f.opened = lineMark :: (closing ++ f.behind) ∧ closing <:+: f.behind ++ more := by
    simpa [Holds] using hholds
  obtain ⟨front, hcut, hcomment⟩ := first?_eq_some_iff.mp h
  obtain ⟨inside, later, hlater, -⟩ := comment?_hollow_of_closing hmark
  have hmore : first? (text ++ more) = some ⟨f.opened ++ more, '*' :: '/' :: inside, later⟩ := by
    refine first?_eq_some_iff.mpr ⟨front, cutAt?_append hcut more, ?_⟩
    rw [← hlater, hhollow, List.cons_append, List.append_assoc]
  rw [hhollow] at hcomment
  obtain ⟨hinside, hnone⟩ := eq_of_hollow hcomment
  exact ⟨hinside, scan_of_no_closing hnone, _, hmore, by simp⟩

theorem scan_extend (hholds : ∀ f ∈ scan text, Holds more f) :
    (scan text).map (Found.extend more) <+: scan (text ++ more) := by
  fun_induction scan text with
  | case1 text hnone => exact List.nil_prefix
  | case2 text f hfirst ih =>
    rw [List.forall_mem_cons] at hholds
    rw [List.map_cons, scan_of_some (first?_append hfirst hholds.1), List.prefix_cons_inj]
    exact ih hholds.2

theorem scan_append_of_not_holds (hholds : ¬ ∀ f ∈ scan text, Holds more f) :
    ∃ front f g later, scan text = front ++ [f] ∧ f.inside = [lineMark] ∧
      scan (text ++ more) = front.map (Found.extend more) ++ g :: later ∧ '/' ∈ g.inside := by
  fun_induction scan text with
  | case1 text hnone => simp at hholds
  | case2 text f hfirst ih =>
    rw [List.forall_mem_cons, not_and_or] at hholds
    by_cases hf : Holds more f
    · obtain ⟨front, last, g, later, hscan, hlast, hmore, hg⟩ := ih (hholds.resolve_left (not_not.mpr hf))
      refine ⟨f :: front, last, g, later, by rw [hscan]; rfl, hlast, ?_, hg⟩
      rw [scan_of_some (first?_append hfirst hf), List.map_cons, List.cons_append, ← hmore]
      rfl
    · obtain ⟨hinside, hbehind, g, hmore, hg⟩ := first?_append_of_not_holds hfirst hf
      exact ⟨[], f, g, scan g.behind, by rw [hbehind]; rfl, hinside, scan_of_some hmore, hg⟩

/-! ### What is shown of a comment -/

/-- A leader is blanks, a star and a space, so it takes no slash. -/
theorem exists_of_leader {here : Cursor} {m : Match} (h : matchAt? cStyle.leader here = some m) :
    ∃ piece, here.rest = piece ++ m.stop.rest ∧ '/' ∉ piece ∧ piece ≠ [] := by
  -- the star and what follows it
  have hstar : ∀ {place : Cursor} {caps : Captures}, run (.group 2 (lit "*")) (run (opt (lit " "))
      fun there caps => some (⟨here, there, caps⟩ : Match)) place caps = some m →
      ∃ piece, place.rest = '*' :: (piece ++ m.stop.rest) ∧ '/' ∉ piece := by
    intro place caps hplace
    have hlit : run (lit "*") (fun there caps' => run (opt (lit " "))
        (fun there caps => some (⟨here, there, caps⟩ : Match)) there ((2, ⟨place.rest, there.rest⟩) :: caps'))
        place caps = some m := hplace
    obtain ⟨back, before, hrest, hspace⟩ := exists_of_lit hlit
    have hrest : place.rest = '*' :: back := hrest
    rw [hrest]
    rcases cases_of_opt hspace with hlit | hend
    · obtain ⟨back', before', hback, hend⟩ := exists_of_lit hlit
      have hback : back = ' ' :: back' := hback
      cases hend
      exact ⟨[' '], by rw [hback]; rfl, by decide⟩
    · cases hend
      exact ⟨[], rfl, List.not_mem_nil⟩
  have hblanks := next_of_lineStart h
  rcases cases_of_opt hblanks with hblanks | hnone
  · obtain ⟨front, back, hrest, hall, hnext⟩ := exists_of_runChars hblanks
    obtain ⟨piece, hback, hslash⟩ := hstar hnext
    have hback : back = '*' :: (piece ++ m.stop.rest) := hback
    refine ⟨front ++ '*' :: piece, by rw [hrest, hback]; simp, ?_, by simp⟩
    rw [List.mem_append, List.mem_cons, not_or, not_or]
    exact ⟨fun hmem => absurd (hall _ hmem) (by decide), by decide, hslash⟩
  · obtain ⟨piece, hrest, hslash⟩ := hstar hnone
    refine ⟨'*' :: piece, hrest, ?_, by simp⟩
    rw [List.mem_cons, not_or]
    exact ⟨by decide, hslash⟩

theorem takesSomething_leader : TakesSomething cStyle.leader := by
  intro here m h
  obtain ⟨piece, hrest, -, hpiece⟩ := exists_of_leader h
  rw [Match.isEmpty, (start_of_matchAt? h).1, hrest, beq_eq_false_iff_ne]
  have hpositive := List.length_pos_iff.mpr hpiece
  rw [List.length_append]
  omega

theorem slash_mem_withoutLeaders {s : String} (h : '/' ∈ s.toList) :
    '/' ∈ (cStyle.leader.replaceAll (fun _ => "") s).toList := by
  refine replaceAll_induction takesSomething_leader (fun _ => "")
    (motive := fun here out => '/' ∈ here.rest → '/' ∈ out) (fun here _ hmem => hmem)
    (fun here m front out hsearch hrest ih hmem => ?_) s h
  obtain ⟨front', back, hback, hmatch, -⟩ := exists_of_search hsearch
  obtain ⟨piece, hpiece, hslash, -⟩ := exists_of_leader hmatch
  have hstart : m.start.rest = piece ++ m.stop.rest := by
    rw [(start_of_matchAt? hmatch).1]
    exact hpiece
  rw [hrest, hstart, List.mem_append, List.mem_append] at hmem
  rw [List.mem_append, List.mem_append]
  rcases hmem with hmem | hmem | hmem
  · exact .inl hmem
  · exact absurd hmem hslash
  · exact .inr (.inr (ih hmem))

theorem slash_mem_shown (h : '/' ∈ f.inside) : '/' ∈ (shown f).toList := by
  refine slash_mem_withoutLeaders ?_
  have hcore : '/' ∈ core f.inside := mem_core h (by decide) (by decide)
  rw [unflatten, replaceChar, String.toList_ofList, String.toList_ofList, List.mem_map]
  exact ⟨'/', hcore, by decide⟩

theorem shown_lineMark (h : f.inside = [lineMark]) : shown f = "\n" := by
  rw [shown, h]
  decide +kernel

theorem shown_extend (more : List Char) (f : Found) : shown (f.extend more) = shown f := rfl

theorem map_shown_extend (more : List Char) (fs : List Found) :
    (fs.map (Found.extend more)).map shown = fs.map shown := by
  simp only [List.map_map, Function.comp_def, shown_extend]

/-! ### Later text -/

theorem Reads.text_eq_iff {m : Match} (h : Reads m f) :
    m.text = flatten "/**\n*/" ↔ f.opened = lineMark :: (closing ++ f.behind) := by
  obtain ⟨front, hopened⟩ := exists_of_comment? h.comment
  have htext : m.text = String.ofList (opening ++ (front ++ closing)) := by
    rw [Match.text, Match.span, h.start, h.stop, hopened, ← text_span _ f.behind]
    simp
  have hhollow : flatten "/**\n*/" = String.ofList (opening ++ ([lineMark] ++ closing)) := rfl
  rw [htext, hhollow, String.ofList_inj, List.append_cancel_left_eq, List.append_cancel_right_eq, hopened,
    ← List.append_cancel_right_eq front (closing ++ f.behind) [lineMark]]
  rfl

theorem holds_iff (s : String) (more : List Char) : (∀ f ∈ scan (flat s), Holds more f) ↔
    ∀ m ∈ cStyle.comment.findAll (flatten s), m.text = flatten "/**\n*/" → ¬ closing <:+: m.stop.rest ++ more := by
  have hreads := reads_findAll s
  generalize cStyle.comment.findAll (flatten s) = ms at hreads ⊢
  generalize scan (flat s) = fs at hreads ⊢
  induction hreads with
  | nil => simp
  | cons hm _ ih =>
    rw [List.forall_mem_cons, List.forall_mem_cons]
    refine and_congr ?_ ih
    rw [Holds, hm.text_eq_iff, hm.stop]

/-- **Text behind a source changes only a comment of nothing but the end of a
line.** The comments of a source, apart from the last one, come first whatever
text follows it. The last one does too, except where it is such a comment and
there is another closing mark behind it. -/
theorem comments_prefix_iff (a b : String) :
    (cStyle.comments a).dropLast <+: cStyle.comments (a ++ b) ∧
      (cStyle.comments a <+: cStyle.comments (a ++ b) ↔
        ∀ m ∈ cStyle.comment.findAll (flatten a), m.text = flatten "/**\n*/" →
          ¬ ['*', '/'] <:+: m.stop.rest ++ flat b) := by
  rw [show ['*', '/'] = closing from rfl, ← holds_iff, comments_eq_scan, comments_eq_scan, flat_append]
  by_cases hholds : ∀ f ∈ scan (flat a), Holds (flat b) f
  · have hprefix : (scan (flat a)).map shown <+: (scan (flat a ++ flat b)).map shown := by
      rw [← map_shown_extend (flat b)]
      exact (scan_extend hholds).map shown
    exact ⟨(List.dropLast_prefix _).trans hprefix, iff_of_true hprefix hholds⟩
  · obtain ⟨front, f, g, later, hscan, hf, hmore, hg⟩ := scan_append_of_not_holds hholds
    have hcomments : (scan (flat a)).map shown = front.map shown ++ [shown f] := by
      rw [hscan, List.map_append, List.map_singleton]
    have hlonger : (scan (flat a ++ flat b)).map shown = front.map shown ++ shown g :: later.map shown := by
      rw [hmore, List.map_append, map_shown_extend, List.map_cons]
    rw [hcomments, hlonger]
    refine ⟨?_, iff_of_false (fun hprefix => ?_) hholds⟩
    · rw [List.dropLast_concat]
      exact List.prefix_append _ _
    · rw [List.prefix_append_right_inj, List.cons_prefix_cons] at hprefix
      have hslash := slash_mem_shown hg
      rw [← hprefix.1, shown_lineMark hf] at hslash
      exact absurd hslash (by decide)

/-- An empty comment takes the next one in. -/
theorem empty_comment_takes_next :
    ¬ cStyle.comments "/**\n*/" <+: cStyle.comments ("/**\n*/" ++ "\n/** @api {get} /a A */") := by
  have hempty : cStyle.comments "/**\n*/" = ["\n"] := by decide +kernel
  have hlater : cStyle.comments ("/**\n*/" ++ "\n/** @api {get} /a A */") =
      ["/\n/** @api {get} /a A"] := by decide +kernel
  rw [hempty, hlater]
  decide

end Language
end Docblock
