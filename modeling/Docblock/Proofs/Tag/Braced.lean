/-
# Any text in the place of a type

A parameter may be made by a program, as `{kind} [field] text`, where `kind` is
any text without a closing brace. It is read as a type if it is a name of the
characters of types, alone or with an equals sign and something behind it
(`isTypeText`). Then the field is found (`exists_match_braced`). If not, the
grammar refuses the whole line (`refuses_line_braced`): no part of it can take
the opening brace. All that is left to match is an `@` somewhere in the line,
and that has no field.

Key definitions: `Tag.isTypeText`, `Tag.bracedLine`.
Key theorems: `Tag.accepts_braced`, `Tag.refuses_braced`,
`Tag.exists_match_braced`, `Tag.readParameter_braced`,
`Tag.readParameter_braced_of_refused`.
-/
import Docblock.Proofs.Pattern.Trace
import Docblock.Proofs.Tag.Grammar
import Docblock.Proofs.Text.OneLine

namespace Docblock
namespace Tag

open Pattern Text

variable {α : Type} {next : Next α} {rest : List Char} {caps : Captures} {P : α → Prop}

/-- What can stand behind the name of a type: nothing, or an equals sign and
something. -/
def isTypeEnd (cs : List Char) : Bool :=
  match dropBlanks cs with
  | [] => true
  | '=' :: _ :: _ => true
  | _ => false

/-- Whether a text is read as a type. -/
def isTypeText (kind : List Char) : Bool :=
  (dropBlanks kind).head?.any isTypeChar && isTypeEnd ((dropBlanks kind).dropWhile isTypeChar)

/-! ### Texts that are read as a type -/

theorem needs_close (next : Next α) : Needs '}' 1 (run blanks (run (lit "\x7d") next)) :=
  (Needs.lit rfl fun _ _ h => absurd h (Nat.not_lt_zero _)).run blanks

/-- A value cannot start with the last closing brace. -/
theorem refuses_value_close {n : Nat} (hrest : '}' ∉ rest) :
    Refuses (run (.group n (charsLazy1 notNewline)) (run blanks (run (lit "\x7d") next))) ('}' :: rest) caps := by
  have hvalue : Needs '}' 1 fun there caps =>
      run blanks (run (lit "\x7d") next) there ((n, ⟨'}' :: rest, there.rest⟩) :: caps) :=
    fun back caps h before => needs_close next back _ h before
  have hcount : rest.count '}' < 1 := by
    rw [List.count_eq_zero.mpr hrest]
    exact Nat.one_pos
  exact refuses_group (refuses_one_of_next (hvalue.run (.charsLazy notNewline) rest caps hcount))

/-- Blanks alone are taken as a value: the run of blanks gives the last one
back. -/
theorem accepts_blank_value {n : Nat} {value : List Char} (hne : value ≠ []) (hblank : ∀ c ∈ value, isBlank c = true)
    (hline : '\n' ∉ value) (hrest : '}' ∉ rest) (h : ∀ span, Accepts next rest ((n, span) :: caps) P) :
    Accepts (run blanks (run (.group n (charsLazy1 notNewline)) (run blanks (run (lit "\x7d") next))))
      (value ++ '}' :: rest) caps P := by
  have hlast : isBlank (value.getLast hne) = true := hblank _ (List.getLast_mem hne)
  have hnewline : notNewline (value.getLast hne) = true := by
    rw [notNewline, bne_iff_ne]
    exact fun heq => hline (heq ▸ List.getLast_mem hne)
  rw [← List.dropLast_append_getLast hne, List.append_assoc]
  refine accepts_chars_backtrack (fun c hc => hblank c (List.mem_of_mem_dropLast hc)) (by simpa using hlast)
    (by simp [isBlank]) (fun taken left heq htaken => ?_) (accepts_group (accepts_one hnewline ?_))
  · -- with no blank left, the value would start with the brace that ends it
    have hleft : left = [] := by
      have hlength := congrArg List.length heq
      have hpos := List.length_pos_iff.mpr htaken
      simp only [List.length_singleton, List.length_append] at hlength
      exact List.length_eq_zero_iff.mp (by omega)
    subst hleft
    exact refuses_value_close hrest
  · have hclosed : ∀ span, Accepts (run blanks (run (lit "\x7d") next)) ('}' :: rest) ((n, span) :: caps) P :=
      fun span => accepts_chars_nil (by simp [isBlank]) (accepts_lit rfl (h span))
    exact accepts_charsLazy_nil (hclosed ⟨[value.getLast hne] ++ '}' :: rest, '}' :: rest⟩)

/-- Whatever values are allowed, they are taken. -/
theorem accepts_allowedPart_any {n : Nat} {value : List Char} (hne : value ≠ []) (hclose : '}' ∉ value)
    (hline : '\n' ∉ value) (hrest : '}' ∉ rest) (h : ∀ span, Accepts next rest ((n, span) :: caps) P) :
    Accepts (run (allowedPart n) (run blanks (run (lit "\x7d") next))) ('=' :: (value ++ '}' :: rest)) caps P := by
  obtain ⟨before, after, hvalue, hbefore, hafter⟩ := exists_stripBlanks value
  by_cases hempty : stripBlanks value = []
  · have hblank : ∀ c ∈ value, isBlank c = true := by
      rw [hempty, List.nil_append] at hvalue
      rw [hvalue]
      exact fun c hc => (List.mem_append.mp hc).elim (hbefore c) (hafter c)
    exact accepts_opt (accepts_lit rfl (accepts_blank_value hne hblank hline hrest h))
  · have hsub : ∀ c ∈ stripBlanks value, c ∈ value := by
      intro c hc
      rw [hvalue]
      exact List.mem_append_right _ (List.mem_append_left _ hc)
    have htrimmed := isTrimmed_stripBlanks value
    have hpiece : IsInner '}' (stripBlanks value) :=
      ⟨hempty, htrimmed.head, htrimmed.last, fun hmem => hclose (hsub _ hmem), fun hmem => hline (hsub _ hmem)⟩
    have htext : value ++ '}' :: rest = before ++ (stripBlanks value ++ (after ++ '}' :: rest)) := by
      conv => lhs; rw [hvalue]
      simp only [List.append_assoc]
    rw [htext]
    exact accepts_allowedPart hbefore hafter hpiece (h _)

theorem exists_of_isTypeText {kind : List Char} (h : isTypeText kind = true) :
    ∃ lead name gap more, kind = lead ++ (name ++ (gap ++ more)) ∧ (∀ c ∈ lead, isBlank c = true) ∧ name ≠ [] ∧
      (∀ c ∈ name, isTypeChar c = true) ∧ (∀ c ∈ gap, isBlank c = true) ∧
      (more = [] ∨ ∃ value, value ≠ [] ∧ more = '=' :: value) := by
  rw [isTypeText, Bool.and_eq_true] at h
  obtain ⟨hhead, hend⟩ := h
  refine ⟨kind.takeWhile isBlank, (dropBlanks kind).takeWhile isTypeChar,
    ((dropBlanks kind).dropWhile isTypeChar).takeWhile isBlank,
    dropBlanks ((dropBlanks kind).dropWhile isTypeChar), ?_, fun c hc => List.mem_takeWhile_imp hc, ?_,
    fun c hc => List.mem_takeWhile_imp hc, fun c hc => List.mem_takeWhile_imp hc, ?_⟩
  · rw [dropBlanks, dropBlanks, List.takeWhile_append_dropWhile, List.takeWhile_append_dropWhile,
      List.takeWhile_append_dropWhile]
  · intro hnil
    cases hkind : dropBlanks kind with
    | nil => simp [hkind] at hhead
    | cons c cs =>
      have hc : isTypeChar c = true := by simpa [hkind] using hhead
      simp [hkind, hc] at hnil
  · rw [isTypeEnd] at hend
    split at hend
    · exact Or.inl ‹_›
    · rename_i c cs hmore
      exact Or.inr ⟨c :: cs, List.cons_ne_nil _ _, hmore⟩
    · cases hend

/-- **A text that is read as a type is taken up to its brace.** -/
theorem accepts_braced {kind : List Char} (hkind : isTypeText kind = true) (hclose : '}' ∉ kind) (hline : '\n' ∉ kind)
    {gap : List Char} (hgap : ∀ c ∈ gap, isBlank c = true) (hhead : ∀ c ∈ rest.head?, isBlank c = false)
    (hrest : '}' ∉ gap ++ rest)
    (h : ∀ new : Captures, (∀ entry ∈ new, entry.1 ∈ [2, 4]) → Accepts next rest (new ++ caps) P) :
    Accepts (run parameterTypePart next) ('{' :: (kind ++ '}' :: (gap ++ rest))) caps P := by
  obtain ⟨lead, name, blank, more, rfl, hlead, hne, hname, hblank, hmore⟩ := exists_of_isTypeText hkind
  have hopen : ∀ new : Captures, (∀ entry ∈ new, entry.1 ∈ [2, 4]) →
      Accepts (run blanks next) (gap ++ rest) (new ++ caps) P := fun new hnew => accepts_chars hgap hhead (h new hnew)
  have hend : ∀ span : Span, Accepts (afterTypeName next) (more ++ '}' :: (gap ++ rest)) ((2, span) :: caps) P := by
    intro span
    rcases hmore with rfl | ⟨value, hvalue, rfl⟩
    · exact accepts_sizePart_absent (by simp) (accepts_chars_nil (by simp [isBlank])
        (accepts_allowedPart_absent (by simp) (accepts_chars_nil (by simp [isBlank]) (accepts_lit rfl
          (hopen [(2, span)] (by simp))))))
    · simp only [List.mem_append, List.mem_cons, not_or] at hclose hline
      exact accepts_sizePart_absent (by simp) (accepts_chars_nil (by simp [isBlank])
        (accepts_allowedPart_any hvalue hclose.2.2.2.2 hline.2.2.2.2 hrest
          fun values => hopen [(4, values), (2, span)] (by simp)))
  have htext : '{' :: (lead ++ (name ++ (blank ++ more)) ++ '}' :: (gap ++ rest)) =
      '{' :: (lead ++ (name ++ (blank ++ (more ++ '}' :: (gap ++ rest))))) := by
    simp only [List.append_assoc]
  have hstop : ∀ c ∈ (more ++ '}' :: (gap ++ rest)).head?, isBlank c = false ∧ isTypeChar c = false := by
    rcases hmore with rfl | ⟨value, -, rfl⟩
    · rintro c ⟨⟩
      decide
    · rintro c ⟨⟩
      decide
  rw [htext]
  exact accepts_parameterTypePart hlead hne hname hblank hstop (hend _)

/-! ### Texts that are not -/

theorem isTypeEnd_append {front back : List Char} (hfront : ∀ c ∈ front, isBlank c = true) :
    isTypeEnd (front ++ back) = isTypeEnd back := by
  rw [isTypeEnd, isTypeEnd, dropBlanks, dropBlanks, List.dropWhile_append_of_pos hfront]

/-- Nor can the rest of a name stand there. -/
theorem isTypeEnd_of_dropWhile {front back : List Char} (hfront : ∀ c ∈ front, isTypeChar c = true)
    (hend : isTypeEnd ((front ++ back).dropWhile isTypeChar) = false) : isTypeEnd back = false := by
  rw [List.dropWhile_append_of_pos hfront] at hend
  cases back with
  | nil => exact hend
  | cons c cs =>
    by_cases hc : isTypeChar c = true
    · have hblank := isBlank_of_isTypeChar hc
      have hequals : c ≠ '=' := by
        rintro rfl
        exact absurd hc (by decide)
      simp [isTypeEnd, dropBlanks, hblank, hequals]
    · rwa [List.dropWhile_cons_of_neg hc] at hend

/-- A run stops before a brace that it cannot take. -/
theorem refuses_chars_close {a : Char → Bool} (ha : a '}' = false) {cs : List Char}
    (h : ∀ front back, cs = front ++ back → (∀ c ∈ front, a c = true) → Refuses next (back ++ '}' :: rest) caps) :
    Refuses (run (.chars a) next) (cs ++ '}' :: rest) caps := by
  refine refuses_chars fun front back heq hfront => ?_
  rcases List.append_eq_append_iff.mp heq with ⟨more, rfl, hback⟩ | ⟨more, hcs, rfl⟩
  · cases more with
    | nil =>
      rw [List.nil_append] at hback
      rw [List.append_nil] at hfront
      rw [← hback]
      exact h cs [] (List.append_nil cs).symm hfront
    | cons c more =>
      obtain ⟨rfl, -⟩ := List.cons.inj hback
      have htaken := hfront '}' (List.mem_append_right _ List.mem_cons_self)
      rw [ha] at htaken
      cases htaken
  · exact h front more hcs hfront

theorem count_close {cs : List Char} (hclose : '}' ∉ cs) (hrest : '}' ∉ rest) : (cs ++ '}' :: rest).count '}' = 1 := by
  rw [List.count_append, List.count_cons_self, List.count_eq_zero.mpr hclose, List.count_eq_zero.mpr hrest]

/-- A size would need a closing brace of its own. -/
theorem refuses_size {cs : List Char} (hclose : '}' ∉ cs) (hrest : '}' ∉ rest) (h : Needs '}' 1 next) :
    Refuses (run (all [lit "\x7b", blanks, .group 3 (charsLazy1 notNewline), blanks, lit "\x7d", blanks]) next)
      (cs ++ '}' :: rest) caps := by
  have hsize : Needs '}' 2 (run (lit "\x7d") (run blanks next)) := Needs.lit rfl (h.run blanks)
  refine (((hsize.run blanks).run (.group 3 (charsLazy1 notNewline))).run blanks).run (lit "\x7b") _ _ ?_
  rw [count_close hclose hrest]
  decide

/-- Allowed values behind something else than the end of a type. -/
theorem refuses_allowed {cs : List Char} (hend : isTypeEnd cs = false) (hrest : '}' ∉ rest) :
    Refuses (run (all [lit "=", blanks, .group 4 (charsLazy1 notNewline)]) (run blanks (run (lit "\x7d") next)))
      (cs ++ '}' :: rest) caps := by
  cases cs with
  | nil => cases hend
  | cons c cs =>
    by_cases hc : c = '='
    · subst hc
      cases cs with
      | nil =>
        have hvalue : Refuses (run blanks (run (.group 4 (charsLazy1 notNewline)) (run blanks (run (lit "\x7d") next))))
            ([] ++ '}' :: rest) caps := by
          refine refuses_chars_close (by decide) fun front back heq _ => ?_
          obtain ⟨-, rfl⟩ := List.append_eq_nil_iff.mp heq.symm
          exact refuses_value_close hrest
        exact refuses_one_of_next hvalue
      | cons d cs => cases hend
    · have hhead : (c :: cs ++ '}' :: rest).head? ≠ some '=' := by simpa using hc
      exact refuses_lit rfl hhead

/-- Behind the name of a type, only what ends a type is taken. -/
theorem refuses_typeEnd {cs : List Char} (hend : isTypeEnd cs = false) (hclose : '}' ∉ cs) (hrest : '}' ∉ rest) :
    Refuses (run blanks (afterTypeName next)) (cs ++ '}' :: rest) caps := by
  refine refuses_chars_close (by decide) fun lead back heq hlead => ?_
  subst heq
  rw [isTypeEnd_append hlead] at hend
  have hback : '}' ∉ back := fun hmem => hclose (List.mem_append_right _ hmem)
  refine refuses_opt (refuses_size hback hrest (((needs_close _).run (allowedPart 4)).run blanks))
    (refuses_chars_close (by decide) fun lead' back' heq' hlead' => ?_)
  subst heq'
  rw [isTypeEnd_append hlead'] at hend
  refine refuses_opt (refuses_allowed hend hrest) (refuses_blanks_lit rfl (by decide) fun hhead => ?_)
  cases hdrop : dropBlanks back' with
  | nil => simp [isTypeEnd, hdrop] at hend
  | cons c cs =>
    rw [dropBlanks] at hdrop
    rw [List.dropWhile_append, hdrop] at hhead
    cases hhead
    have hmem : '}' ∈ back' := (List.dropWhile_sublist isBlank).subset (by rw [hdrop]; exact List.mem_cons_self)
    exact hback (List.mem_append_right _ hmem)

/-- **A text that is not read as a type is refused.** -/
theorem refuses_braced {kind : List Char} (hkind : isTypeText kind = false) (hclose : '}' ∉ kind) (hrest : '}' ∉ rest) :
    Refuses (run (all [lit "\x7b", blanks, .group 2 (chars1 isTypeChar), blanks, sizePart 3, blanks,
      allowedPart 4, blanks, lit "\x7d", blanks]) next) ('{' :: (kind ++ '}' :: rest)) caps := by
  refine refuses_one_of_next (refuses_chars_close (by decide) fun lead back heq hlead => refuses_group ?_)
  subst heq
  have hback : '}' ∉ back := fun hmem => hclose (List.mem_append_right _ hmem)
  cases back with
  | nil => exact refuses_one (by simp [isTypeChar, alnumOr])
  | cons c more =>
    by_cases hc : isTypeChar c = true
    · have hnone : dropBlanks (lead ++ c :: more) = c :: more := by
        rw [dropBlanks, List.dropWhile_append_of_pos hlead,
          List.dropWhile_cons_of_neg (by simp [isBlank_of_isTypeChar hc])]
      have hend : isTypeEnd (more.dropWhile isTypeChar) = false := by
        simpa [isTypeText, hnone, hc] using hkind
      refine refuses_one_of_next (refuses_chars_close (by decide) fun front back heq hfront before => ?_)
      subst heq
      have hmore : '}' ∉ back := fun hmem => hback (List.mem_cons_of_mem _ (List.mem_append_right _ hmem))
      exact refuses_typeEnd (isTypeEnd_of_dropWhile hfront hend) hmore hrest before
    · exact refuses_one (by simpa using hc)

/-! ### The field behind it -/

theorem isSome_opt {p : Pattern} {here : Cursor} (h : (next here caps).isSome) :
    (run (opt p) next here caps).isSome := by
  simp only [opt, run]
  split
  · rfl
  · exact h

theorem isSome_chars {a : Char → Bool} {here : Cursor} (h : (next here caps).isSome) :
    (run (.chars a) next here caps).isSome := by
  obtain ⟨before, rest⟩ := here
  cases rest with
  | nil => exact h
  | cons c cs =>
    simp only [run, runChars]
    split
    · split
      · rfl
      · exact h
    · exact h

/-- What may come behind the name of a field. -/
def fieldEnd : Pattern := all [defaultPart 7 8 9, blanks, opt (lit "]"), blanks]

/-- The match of a parameter, behind its field. -/
def afterField (here : Cursor) (field : List Char) : Next Match := fun there caps =>
  run (all [restPart 10, .textEnd]) (fun there caps => some ⟨here, there, caps⟩) there
    ((5, ⟨field, there.rest⟩) :: caps)

/-- Whatever comes behind the name of a field, there is a match, and it holds
what was captured before. -/
theorem accepts_fieldEnd {here : Cursor} {field : List Char} {P : Match → Prop} (hline : '\n' ∉ rest)
    (hP : ∀ m : Match, (∀ n ∉ [5, 7, 8, 9, 10], captured m.captures n = captured caps n) →
      (∃ stop, stop <:+ rest ∧ captured m.captures 5 = some (Span.mk field stop).text) → P m) :
    Accepts (run fieldEnd (afterField here field)) rest caps P := by
  intro before
  have hsome : (run fieldEnd (afterField here field) ⟨before, rest⟩ caps).isSome := by
    have hrest : Accepts (run (restPart 10) (run .textEnd fun there caps => some (Match.mk here there caps))) rest
        ((5, ⟨field, rest⟩) :: caps) fun _ => True :=
      accepts_restPart hline fun before => ⟨_, rfl, trivial⟩
    obtain ⟨m, hm, -⟩ := hrest before
    exact isSome_opt (isSome_chars (isSome_opt (isSome_chars (Option.isSome_iff_exists.mpr ⟨m, hm⟩))))
  obtain ⟨m, hm⟩ := Option.isSome_iff_exists.mp hsome
  obtain ⟨there, caps', hleads, hafter⟩ := exists_of_run fieldEnd hm
  obtain ⟨last, caps'', hleads', hlast⟩ := exists_of_run (all [restPart 10, .textEnd]) hafter
  cases hlast
  refine ⟨_, hm, hP _ (fun n hn => ?_) ⟨there.rest, hleads.suffix, ?_⟩⟩
  · have hend : fieldEnd.groups = [7, 8, 9] := rfl
    have hlast : (all [restPart 10, .textEnd]).groups = [10] := rfl
    simp only [List.mem_cons, List.not_mem_nil, not_or, or_false] at hn
    obtain ⟨hfield, hothers⟩ := hn
    rw [hleads'.captured_eq (by rw [hlast]; simp [hothers]), captured_cons, if_neg (Ne.symm hfield),
      hleads.captured_eq (by rw [hend]; simp [hothers])]
  · rw [hleads'.captured_eq (by decide), captured_cons, if_pos rfl]

/-- **The field is found, whatever comes behind it.** -/
theorem accepts_anyField {here : Cursor} {optional : Bool} {name : List Char} {P : Match → Prop} (hne : name ≠ [])
    (hname : ∀ c ∈ name, isFieldChar c = true) (hhead : ∀ c ∈ rest.head?, isFieldChar c = false ∧ c ≠ '[')
    (hline : '\n' ∉ rest)
    (hP : ∀ m : Match, (∀ n < 5, captured m.captures n = captured caps n) →
      captured m.captures 6 = some (String.ofList name) →
      (∃ more, captured m.captures 5 = some (String.ofList (opener optional ++ (name ++ more)))) → P m) :
    Accepts (run parameterFieldPart (run (restPart 10) (run .textEnd fun there caps => some ⟨here, there, caps⟩)))
      (opener optional ++ (name ++ rest)) caps P := by
  have hend : Accepts (run fieldEnd (afterField here (opener optional ++ (name ++ rest)))) rest
      ((6, ⟨name ++ rest, rest⟩) :: caps) P := by
    refine accepts_fieldEnd hline fun m hkept ⟨stop, ⟨more, hmore⟩, hwhole⟩ => hP m (fun n hn => ?_) ?_ ⟨more, ?_⟩
    · rw [hkept n (by simp; omega), captured_cons, if_neg (by simp; omega)]
    · rw [hkept 6 (by decide), captured_cons, if_pos rfl, text_span]
    · rw [hwhole, ← hmore, ← List.append_assoc, ← List.append_assoc, text_span, List.append_assoc]
  exact accepts_group (accepts_opener hne hname hhead hend)

/-! ### The whole line -/

/-- A line with a type in braces, a field and something behind it. -/
def bracedLine (kind : List Char) (optional : Bool) (name tail : List Char) : List Char :=
  '{' :: (kind ++ '}' :: ([' '] ++ (opener optional ++ (name ++ (closer optional ++ tail)))))

/-- What the field of such a line and the text behind it are made of. -/
structure IsFieldLine (name tail : List Char) : Prop where
  name_ne_nil : name ≠ []
  name_chars : ∀ c ∈ name, isFieldChar c = true
  tail_line : '\n' ∉ tail
  tail_head : ∀ c ∈ tail.head?, isBlank c = true

/-- What the parts of such a line are made of, if it has one closing brace. -/
structure IsBraced (kind name tail : List Char) : Prop extends IsFieldLine name tail where
  kind_close : '}' ∉ kind
  kind_line : '\n' ∉ kind
  tail_close : '}' ∉ tail

namespace IsFieldLine

variable {name tail : List Char} {optional : Bool}

/-- Behind the name comes nothing that could belong to it. -/
theorem head?_behind (h : IsFieldLine name tail) :
    ∀ c ∈ (closer optional ++ tail).head?, isFieldChar c = false ∧ c ≠ '[' := by
  cases optional with
  | true =>
    rintro c ⟨⟩
    decide
  | false =>
    intro c hc
    have hblank := h.tail_head c hc
    constructor
    · by_contra hfield
      rw [isBlank_of_isFieldChar (eq_true_of_ne_false hfield)] at hblank
      cases hblank
    · rintro rfl
      exact absurd hblank (by decide)

theorem newline_not_mem (h : IsFieldLine name tail) : '\n' ∉ closer optional ++ tail := by
  have htail := h.tail_line
  cases optional <;> simp [closer, htail]

theorem head?_field (h : IsFieldLine name tail) :
    ∀ c ∈ (opener optional ++ (name ++ (closer optional ++ tail))).head?, isBlank c = false := by
  cases optional with
  | true =>
    rintro c ⟨⟩
    decide
  | false =>
    obtain ⟨first, more, rfl⟩ := List.exists_cons_of_ne_nil h.name_ne_nil
    rintro c ⟨⟩
    exact isBlank_of_isFieldChar (h.name_chars first List.mem_cons_self)

end IsFieldLine

theorem IsBraced.close_not_mem {kind name tail : List Char} {optional : Bool} (h : IsBraced kind name tail) :
    '}' ∉ [' '] ++ (opener optional ++ (name ++ (closer optional ++ tail))) := by
  have hname : '}' ∉ name := fun hmem => absurd (h.name_chars _ hmem) (by decide)
  have htail := h.tail_close
  cases optional <;> simp [opener, closer, hname, htail]

/-- The grammar of a parameter, from the start of the line on. -/
def parameterLine : Pattern :=
  all [groupPart 1, blanks, parameterTypePart, parameterFieldPart, restPart 10, .textEnd]

theorem parameterPattern_eq : parameterPattern = .alt (.seq .textStart parameterLine) (lit "@") := rfl

variable {kind name tail : List Char} {optional : Bool}

/-- **A field behind a type is found.** -/
theorem exists_match_braced (h : IsBraced kind name tail) (hkind : isTypeText kind = true) {s : String}
    (hs : s.toList = bracedLine kind optional name tail) :
    ∃ m, parameterPattern.find? s = some m ∧ captured m.captures 6 = some (String.ofList name) ∧
      ∃ more, captured m.captures 5 = some (String.ofList (opener optional ++ (name ++ more))) := by
  have hfield : ∀ new : Captures, Accepts (run parameterFieldPart (run (restPart 10) (run .textEnd fun there caps =>
      some (Match.mk ⟨[], bracedLine kind optional name tail⟩ there caps))))
      (opener optional ++ (name ++ (closer optional ++ tail))) (new ++ []) fun m =>
        captured m.captures 6 = some (String.ofList name) ∧
          ∃ more, captured m.captures 5 = some (String.ofList (opener optional ++ (name ++ more))) := fun new =>
    accepts_anyField h.name_ne_nil h.name_chars h.head?_behind h.newline_not_mem fun m _ hname hwhole => ⟨hname, hwhole⟩
  have htype := accepts_braced hkind h.kind_close h.kind_line (by simp [isBlank]) h.head?_field h.close_not_mem
    fun new _ => hfield new
  have hbrace : ∀ c ∈ (bracedLine kind optional name tail).head?, isBlank c = false ∧ c ≠ '(' := by
    rintro c ⟨⟩
    decide
  obtain ⟨m, hm, hheld⟩ := accepts_groupPart_absent 1 hbrace (accepts_chars_nil (fun c hc => (hbrace c hc).1) htype) []
  have hmatch : matchAt? parameterPattern ⟨[], bracedLine kind optional name tail⟩ = some m := run_alt_left hm
  exact ⟨m, by rw [find?, hs, search_of_matchAt? hmatch], hheld⟩

/-- No field starts with a brace. -/
theorem refuses_field_brace : Refuses (run parameterFieldPart next) ('{' :: rest) caps := by
  have hhead : ('{' :: rest).head? ≠ some '[' := by simp
  have hbrace : ∀ c ∈ ('{' :: rest).head?, isBlank c = false ∧ isFieldChar c = false := by
    rintro c ⟨⟩
    decide
  exact refuses_group (refuses_opt (refuses_lit rfl hhead) (refuses_chars_of_head (fun c hc => (hbrace c hc).1)
    (refuses_group (refuses_one fun c hc => (hbrace c hc).2))))

theorem refuses_line_braced (hkind : isTypeText kind = false) (hclose : '}' ∉ kind) (hrest : '}' ∉ rest) :
    Refuses (run parameterLine next) ('{' :: (kind ++ '}' :: rest)) caps := by
  have hbrace : ∀ c ∈ ('{' :: (kind ++ '}' :: rest)).head?, isBlank c = false := by
    rintro c ⟨⟩
    decide
  have hhead : ('{' :: (kind ++ '}' :: rest)).head? ≠ some '(' := by simp
  exact refuses_chars_of_head hbrace (refuses_opt (refuses_lit rfl hhead) (refuses_chars_of_head hbrace
    (refuses_opt (refuses_braced hkind hclose hrest) refuses_field_brace)))

/-- Where the grammar refuses the line, only an `@` is found, and it says
nothing. -/
theorem captures_of_refused {s : String} (h : ∀ here : Cursor, Refuses (run parameterLine fun there caps =>
    some (Match.mk here there caps)) s.toList []) {m : Match} (hm : parameterPattern.find? s = some m) :
    '@' ∈ s.toList ∧ m.captures = [] := by
  obtain ⟨front, back, hs, hmatch, -⟩ := exists_of_search hm
  rw [List.append_nil] at hmatch
  have hline : run (.seq .textStart parameterLine)
      (fun there caps => some (Match.mk ⟨front.reverse, back⟩ there caps)) ⟨front.reverse, back⟩ [] = none := by
    cases front with
    | nil =>
      rw [List.nil_append] at hs
      rw [← hs]
      exact h _ []
    | cons c front =>
      have hbefore : (c :: front).reverse.isEmpty = false := by simp
      simp only [run, hbefore, Bool.false_eq_true, ↓reduceIte]
  have hat : run (lit "@") (fun there caps => some (Match.mk ⟨front.reverse, back⟩ there caps))
      ⟨front.reverse, back⟩ [] = some m := by
    rw [matchAt?, parameterPattern_eq, run] at hmatch
    simpa only [hline] using hmatch
  have hlit : lit "@" = .one (· == '@') := lit_of_toList rfl
  rw [hlit] at hat
  obtain ⟨c, cs, hback, hc, hfound⟩ := exists_of_one hat
  cases hfound
  obtain rfl : c = '@' := by simpa using hc
  have hback' : back = '@' :: cs := hback
  rw [hs, hback']
  exact ⟨List.mem_append_right _ List.mem_cons_self, rfl⟩

/-! ### The text of such a line -/

/-- A type in braces, a field and what describes it. -/
def bracedText (kind : String) (optional : Bool) (name description : String) : String :=
  "\x7b" ++ kind ++ "\x7d " ++ (if optional then "[" ++ name ++ "]" else name) ++ " " ++ description

theorem toList_bracedText (kind : String) (optional : Bool) (name description : String) :
    (bracedText kind optional name description).toList =
      ('{' :: (kind.toList ++ '}' :: ' ' :: (opener optional ++ (name.toList ++ closer optional)))) ++
        ' ' :: description.toList := by
  cases optional <;> simp [bracedText, opener, closer]

/-- As one line, without the blanks around it, only what describes the field
may have changed. -/
theorem exists_line_of_bracedText {name : String} (hne : name ≠ "") (hname : ∀ c ∈ name.toList, isFieldChar c = true)
    (kind : String) (optional : Bool) (description : String) :
    ∃ tail, flat (trim (bracedText kind optional name description)) =
        bracedLine (flat kind) optional (flat name) tail ∧
      IsFieldLine (flat name) tail ∧ ('}' ∈ tail → '}' ∈ description.toList) := by
  have hfield : IsTrimmed (opener optional ++ (name.toList ++ closer optional)) := by
    have hword : IsTrimmed name.toList := isTrimmed_of_forall fun c hc => isBlank_of_isFieldChar (hname c hc)
    have hopen : IsTrimmed (opener optional) := by
      cases optional <;> exact isTrimmed_of_forall (by simp [opener, isBlank])
    have hclose : IsTrimmed (closer optional) := by
      cases optional <;> exact isTrimmed_of_forall (by simp [closer, isBlank])
    exact hopen.append (hword.append hclose)
  have htrimmed : IsTrimmed ('{' :: (kind.toList ++ '}' :: ' ' ::
      (opener optional ++ (name.toList ++ closer optional)))) := by
    have hall : IsTrimmed (('{' :: (kind.toList ++ ['}', ' '])) ++
        (opener optional ++ (name.toList ++ closer optional))) :=
      .append_of_ne_nil (by simp [isBlank]) hfield (by simp [hne])
    simpa using hall
  have hflat : flat name = name.toList := flat_of_not_mem fun hmem => absurd (hname _ hmem) (by decide)
  have hprefix := dropBlanksEnd_prefix (' ' :: description.toList)
  refine ⟨(dropBlanksEnd (' ' :: description.toList)).map mark, ?_, ⟨?_, ?_, ?_, ?_⟩, ?_⟩
  · have hopen : (opener optional).map mark = opener optional := by cases optional <;> rfl
    have hclose : (closer optional).map mark = closer optional := by cases optional <;> rfl
    have hmarks : mark '{' = '{' ∧ mark '}' = '}' ∧ mark ' ' = ' ' := ⟨rfl, rfl, rfl⟩
    rw [flat, trim, String.toList_ofList, toList_bracedText, htrimmed.stripBlanks_append (List.cons_ne_nil _ _)]
    simp [bracedLine, flat, hopen, hclose, hmarks]
  · exact fun hnil => hne (flat_eq_nil.mp hnil)
  · rw [hflat]
    exact hname
  · intro hmem
    obtain ⟨c, -, hc⟩ := List.mem_map.mp hmem
    exact mark_ne_newline c hc
  · intro c hc
    rw [List.head?_map] at hc
    obtain ⟨d, hd, rfl⟩ := Option.map_eq_some_iff.mp hc
    obtain ⟨more, hmore⟩ := hprefix
    have hspace : (' ' :: description.toList).head? = some d := by
      rw [← hmore, List.head?_append, hd]
      rfl
    cases hspace
    rfl
  · intro hmem
    obtain ⟨c, hc, hmark⟩ := List.mem_map.mp hmem
    have hclose : c = '}' := eq_of_mark_eq hmark (by decide)
    have hdescription := hprefix.subset hc
    rw [hclose] at hdescription
    simpa using hdescription

/-! ### Reading the line -/

theorem get?_ofPresent_cons (key k : String) (v : Option Json) (entries : List (String × Option Json)) :
    (Json.ofPresent ((k, v) :: entries)).get? key =
      (if k = key then v else none).or ((Json.ofPresent entries).get? key) := by
  cases v with
  | none => simp [Json.ofPresent]
  | some v => by_cases hk : k = key <;> simp [Json.ofPresent, Json.get?, Fields.get?, hk]

/-- What a value says of the field and of its brackets. -/
theorem exists_of_find? {content : String} {m : Match} (hm : parameterPattern.find? (oneLine content) = some m)
    (defaultGroup : String) (memory : Memory) :
    ∃ v, (readParameter defaultGroup content memory).1 = some v ∧ v.getStr? "field" = restored m 6 ∧
      v.get? "optional" = some (.bool ((restored m 5).any fun t => startsWith t "[")) := by
  rw [readParameter, hm]
  refine ⟨_, rfl, ?_, ?_⟩
  · have hnone : (Json.ofPresent []).get? "field" = none := rfl
    simp only [Json.getStr?, get?_ofPresent_cons, hnone]
    cases restored m 6 <;> simp [Json.str?]
  · simp [get?_ofPresent_cons]

/-- **A field behind a type is read with its name and its brackets.** -/
theorem readParameter_braced (h : IsBraced kind name tail) (hkind : isTypeText kind = true) {content field : String}
    (hline : (oneLine content).toList = bracedLine kind optional name tail)
    (hfield : unflatten (String.ofList name) = field) (defaultGroup : String) (memory : Memory) :
    ∃ v, (readParameter defaultGroup content memory).1 = some v ∧ v.getStr? "field" = some field ∧
      v.get? "optional" = some (.bool optional) := by
  obtain ⟨m, hm, hname, more, hwhole⟩ := exists_match_braced h hkind hline
  obtain ⟨v, hv, hfound, hoptional⟩ := exists_of_find? hm defaultGroup memory
  refine ⟨v, hv, ?_, ?_⟩
  · rw [hfound, restored, group?_eq_captured, hname, Option.map_some, hfield]
  · rw [hoptional, restored, group?_eq_captured, hwhole, Option.map_some, Option.any_some,
      startsWith_opener h.name_ne_nil h.name_chars]

/-- **Behind anything else no field is read.** Without an `@` nothing is read at
all. -/
theorem readParameter_braced_of_refused (h : IsBraced kind name tail) (hkind : isTypeText kind = false)
    {content : String} (hline : (oneLine content).toList = bracedLine kind optional name tail) (defaultGroup : String)
    (memory : Memory) :
    (∀ v, (readParameter defaultGroup content memory).1 = some v → v.getStr? "field" = none) ∧
      ('@' ∉ (oneLine content).toList → (readParameter defaultGroup content memory).1 = none) := by
  have hrefused : ∀ here : Cursor, Refuses (run parameterLine fun there caps => some (Match.mk here there caps))
      (oneLine content).toList [] := by
    intro here
    rw [hline]
    exact refuses_line_braced hkind h.kind_close h.close_not_mem
  cases hm : parameterPattern.find? (oneLine content) with
  | none =>
    have hnone : (readParameter defaultGroup content memory).1 = none := by rw [readParameter, hm]
    simp [hnone]
  | some m =>
    obtain ⟨hat, hcaptures⟩ := captures_of_refused hrefused hm
    obtain ⟨v, hv, hfound, -⟩ := exists_of_find? hm defaultGroup memory
    refine ⟨fun v' hv' => ?_, fun hnot => absurd hat hnot⟩
    obtain rfl : v = v' := Option.some.inj (hv.symm.trans hv')
    rw [hfound, restored, group?_eq_captured, hcaptures]
    rfl

end Tag
end Docblock
