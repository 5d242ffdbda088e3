/-
# What a match went through

Whatever choices the matcher made, each pattern on the way led from a place to a
later one over a piece of the text, and all it did to the groups was to add its
own (`exists_of_run`).
So what a group holds is not touched by patterns without that group, and what
needs a character more often than it comes refuses the rest
(`Needs.run`).

Key definitions: `Pattern.groups`, `Pattern.Leads`, `Pattern.Needs`.
Key theorems: `Pattern.exists_of_run`, `Pattern.exists_of_search`,
`Pattern.stop_of_matchAt?`, `Pattern.run_of_find?_textStart`,
`Pattern.Needs.run`.
-/
import Docblock.Proofs.Pattern.First
import Mathlib.Data.List.Infix

namespace Docblock
namespace Pattern

variable {α : Type} {next : Next α} {caps : Captures} {a : Char → Bool} {r : α}

/-- The numbers of a pattern's groups. -/
def groups : Pattern → List Nat
  | .seq p q => groups p ++ groups q
  | .alt p q => groups p ++ groups q
  | .many p => groups p
  | .manyLazy p => groups p
  | .group n p => n :: groups p
  | _ => []

/-- From one place on to another over a piece of the text, where only groups of
the list were added. -/
structure Leads (ns : List Nat) (here : Cursor) (caps : Captures) (there : Cursor) (caps' : Captures) : Prop where
  moved : ∃ piece, here.rest = piece ++ there.rest ∧ there.before = piece.reverse ++ here.before
  added : ∃ new, caps' = new ++ caps ∧ ∀ entry ∈ new, entry.1 ∈ ns

namespace Leads

variable {ns : List Nat} {here there later : Cursor} {caps' caps'' : Captures}

theorem refl : Leads ns here caps here caps := ⟨⟨[], rfl, rfl⟩, [], rfl, by simp⟩

theorem of_piece (piece : List Char) (hrest : here.rest = piece ++ there.rest)
    (hbefore : there.before = piece.reverse ++ here.before) : Leads ns here caps there caps :=
  ⟨⟨piece, hrest, hbefore⟩, [], rfl, by simp⟩

theorem suffix (h : Leads ns here caps there caps') : there.rest <:+ here.rest := by
  obtain ⟨piece, hrest, -⟩ := h.moved
  exact ⟨piece, hrest.symm⟩

theorem trans (h : Leads ns here caps there caps') (h' : Leads ns there caps' later caps'') :
    Leads ns here caps later caps'' := by
  obtain ⟨⟨piece, hrest, hbefore⟩, new, rfl, hnew⟩ := h
  obtain ⟨⟨piece', hrest', hbefore'⟩, new', rfl, hnew'⟩ := h'
  refine ⟨⟨piece ++ piece', ?_, ?_⟩, new' ++ new, (List.append_assoc _ _ _).symm, fun entry hentry => ?_⟩
  · rw [hrest, hrest', List.append_assoc]
  · rw [hbefore', hbefore, List.reverse_append, List.append_assoc]
  · exact (List.mem_append.mp hentry).elim (hnew' entry) (hnew entry)

theorem mono {ms : List Nat} (h : Leads ns here caps there caps') (hsub : ns ⊆ ms) :
    Leads ms here caps there caps' := by
  obtain ⟨hmoved, new, heq, hnew⟩ := h
  exact ⟨hmoved, new, heq, fun entry hentry => hsub (hnew entry hentry)⟩

/-- A group that was not among those added is as it was. -/
theorem captured_eq (h : Leads ns here caps there caps') {n : Nat} (hn : n ∉ ns) :
    captured caps' n = captured caps n := by
  obtain ⟨-, new, rfl, hnew⟩ := h
  rw [captured_append, captured_of_not_mem, Option.none_or]
  intro hmem
  obtain ⟨entry, hentry, rfl⟩ := List.mem_map.mp hmem
  exact hn (hnew entry hentry)

end Leads

/-! ### One pattern -/

theorem exists_of_one {here : Cursor} (h : run (.one a) next here caps = some r) :
    ∃ c cs, here.rest = c :: cs ∧ a c = true ∧ next ⟨c :: here.before, cs⟩ caps = some r := by
  simp only [run] at h
  split at h
  · rename_i c cs hrest
    split at h
    · exact ⟨c, cs, hrest, ‹_›, h⟩
    · cases h
  · cases h

theorem next_of_textStart {here : Cursor} (h : run .textStart next here caps = some r) : next here caps = some r := by
  simp only [run] at h
  split at h
  · exact h
  · cases h

theorem before_of_textStart {here : Cursor} (h : run .textStart next here caps = some r) : here.before = [] := by
  simp only [run] at h
  split at h
  · exact List.isEmpty_iff.mp ‹_›
  · cases h

theorem next_of_lineStart {here : Cursor} (h : run .lineStart next here caps = some r) : next here caps = some r := by
  simp only [run] at h
  split at h
  · exact h
  · cases h

theorem rest_of_textEnd {here : Cursor} (h : run .textEnd next here caps = some r) : here.rest = [] := by
  simp only [run] at h
  split at h
  · exact List.isEmpty_iff.mp ‹_›
  · cases h

/-- A run takes accepted characters only. -/
theorem exists_of_runChars : ∀ {before rest : List Char}, runChars a next caps before rest = some r →
    ∃ piece back, rest = piece ++ back ∧ (∀ c ∈ piece, a c = true) ∧
      next ⟨piece.reverse ++ before, back⟩ caps = some r
  | before, [], h => ⟨[], [], rfl, by simp, h⟩
  | before, c :: cs, h => by
    rw [runChars] at h
    split at h
    · rename_i hc
      split at h
      · rename_i found hfound
        cases h
        obtain ⟨piece, back, rfl, hpiece, hnext⟩ := exists_of_runChars hfound
        refine ⟨c :: piece, back, rfl, List.forall_mem_cons.mpr ⟨hc, hpiece⟩, ?_⟩
        rwa [List.reverse_cons, List.append_assoc, List.singleton_append]
      · exact ⟨[], c :: cs, rfl, by simp, h⟩
    · exact ⟨[], c :: cs, rfl, by simp, h⟩

/-- So does a lazy one. -/
theorem exists_of_runCharsLazy : ∀ {before rest : List Char}, runCharsLazy a next caps before rest = some r →
    ∃ piece back, rest = piece ++ back ∧ (∀ c ∈ piece, a c = true) ∧
      next ⟨piece.reverse ++ before, back⟩ caps = some r
  | before, [], h => ⟨[], [], rfl, by simp, h⟩
  | before, c :: cs, h => by
    rw [runCharsLazy] at h
    split at h
    · rename_i found hfound
      cases h
      exact ⟨[], c :: cs, rfl, by simp, hfound⟩
    · split at h
      · rename_i hc
        obtain ⟨piece, back, rfl, hpiece, hnext⟩ := exists_of_runCharsLazy h
        refine ⟨c :: piece, back, rfl, List.forall_mem_cons.mpr ⟨hc, hpiece⟩, ?_⟩
        rwa [List.reverse_cons, List.append_assoc, List.singleton_append]
      · cases h

/-- What a group holds of a run of characters. -/
theorem exists_of_group_charsLazy1 {n : Nat} {here : Cursor}
    (h : run (.group n (charsLazy1 a)) next here caps = some r) :
    ∃ piece back, here.rest = piece ++ back ∧ piece ≠ [] ∧ (∀ c ∈ piece, a c = true) ∧
      next ⟨piece.reverse ++ here.before, back⟩ ((n, ⟨piece ++ back, back⟩) :: caps) = some r := by
  obtain ⟨c, cs, hrest, hc, hlazy⟩ := exists_of_one h
  obtain ⟨piece, back, rfl, hpiece, hnext⟩ := exists_of_runCharsLazy hlazy
  refine ⟨c :: piece, back, hrest, List.cons_ne_nil _ _, List.forall_mem_cons.mpr ⟨hc, hpiece⟩, ?_⟩
  rw [hrest] at hnext
  rwa [List.reverse_cons, List.append_assoc, List.singleton_append]

theorem exists_of_all_one : ∀ (cs : List Char) {here : Cursor},
    run (all (cs.map fun c => .one (· == c))) next here caps = some r →
    ∃ back before', here.rest = cs ++ back ∧ next ⟨before', back⟩ caps = some r
  | [], here, h => ⟨here.rest, here.before, rfl, h⟩
  | [c], here, h => by
    obtain ⟨d, back, hrest, hd, hnext⟩ := exists_of_one h
    obtain rfl : d = c := by simpa using hd
    exact ⟨back, _, hrest, hnext⟩
  | c :: c' :: cs, here, h => by
    obtain ⟨d, back, hrest, hd, hmore⟩ := exists_of_one h
    obtain rfl : d = c := by simpa using hd
    obtain ⟨back', before', hback, hnext⟩ := exists_of_all_one (c' :: cs) hmore
    exact ⟨back', before', by rw [hrest]; exact congrArg (d :: ·) hback, hnext⟩

/-- A text is taken as it is. -/
theorem exists_of_lit {s : String} {here : Cursor} (h : run (lit s) next here caps = some r) :
    ∃ back before', here.rest = s.toList ++ back ∧ next ⟨before', back⟩ caps = some r :=
  exists_of_all_one s.toList h

/-- What may be missing is there or not. -/
theorem cases_of_opt {p : Pattern} {here : Cursor} (h : run (opt p) next here caps = some r) :
    run p next here caps = some r ∨ next here caps = some r := by
  simp only [opt, run] at h
  split at h
  · rename_i found hfound
    cases h
    exact .inl hfound
  · exact .inr h

section Repeat

variable {body : Next α → Next α} {ns : List Nat} {empties : Bool}

theorem exists_of_repeatGreedy
    (hbody : ∀ {next : Next α} {here : Cursor} {caps : Captures}, body next here caps = some r →
      ∃ there caps', Leads ns here caps there caps' ∧ next there caps' = some r) :
    ∀ {budget : List Char} {here : Cursor} {caps : Captures},
      repeatGreedy empties body next budget here caps = some r →
      ∃ there caps', Leads ns here caps there caps' ∧ next there caps' = some r
  | [], here, caps, h => ⟨here, caps, .refl, h⟩
  | _ :: budget, here, caps, h => by
    rw [repeatGreedy] at h
    split at h
    · rename_i found hfound
      cases h
      obtain ⟨there, caps', hleads, hnext⟩ := hbody hfound
      split at hnext
      · cases hnext
      · obtain ⟨later, caps'', hleads', hlater⟩ := exists_of_repeatGreedy hbody hnext
        exact ⟨later, caps'', hleads.trans hleads', hlater⟩
    · exact ⟨here, caps, .refl, h⟩

theorem exists_of_repeatLazy
    (hbody : ∀ {next : Next α} {here : Cursor} {caps : Captures}, body next here caps = some r →
      ∃ there caps', Leads ns here caps there caps' ∧ next there caps' = some r) :
    ∀ {budget : List Char} {here : Cursor} {caps : Captures},
      repeatLazy empties body next budget here caps = some r →
      ∃ there caps', Leads ns here caps there caps' ∧ next there caps' = some r
  | [], here, caps, h => ⟨here, caps, .refl, h⟩
  | _ :: budget, here, caps, h => by
    rw [repeatLazy] at h
    split at h
    · rename_i found hfound
      cases h
      exact ⟨here, caps, .refl, hfound⟩
    · obtain ⟨there, caps', hleads, hnext⟩ := hbody h
      split at hnext
      · cases hnext
      · obtain ⟨later, caps'', hleads', hlater⟩ := exists_of_repeatLazy hbody hnext
        exact ⟨later, caps'', hleads.trans hleads', hlater⟩

end Repeat

/-- **A match goes on from a later place, with the groups of the pattern added.** -/
theorem exists_of_run (p : Pattern) {next : Next α} {here : Cursor} {caps : Captures}
    (h : run p next here caps = some r) :
    ∃ there caps', Leads p.groups here caps there caps' ∧ next there caps' = some r := by
  induction p generalizing next here caps with
  | empty => exact ⟨here, caps, .refl, h⟩
  | one a =>
    obtain ⟨c, cs, hrest, -, hnext⟩ := exists_of_one h
    exact ⟨⟨c :: here.before, cs⟩, caps, .of_piece [c] hrest rfl, hnext⟩
  | chars a =>
    obtain ⟨piece, back, hrest, -, hnext⟩ := exists_of_runChars h
    exact ⟨_, caps, .of_piece piece hrest rfl, hnext⟩
  | charsLazy a =>
    obtain ⟨piece, back, hrest, -, hnext⟩ := exists_of_runCharsLazy h
    exact ⟨_, caps, .of_piece piece hrest rfl, hnext⟩
  | seq p q ihp ihq =>
    obtain ⟨there, caps', hleads, hq⟩ := ihp h
    obtain ⟨later, caps'', hleads', hnext⟩ := ihq hq
    exact ⟨later, caps'', (hleads.mono (List.subset_append_left _ _)).trans
      (hleads'.mono (List.subset_append_right _ _)), hnext⟩
  | alt p q ihp ihq =>
    simp only [run] at h
    split at h
    · rename_i found hfound
      cases h
      obtain ⟨there, caps', hleads, hnext⟩ := ihp hfound
      exact ⟨there, caps', hleads.mono (List.subset_append_left _ _), hnext⟩
    · obtain ⟨there, caps', hleads, hnext⟩ := ihq h
      exact ⟨there, caps', hleads.mono (List.subset_append_right _ _), hnext⟩
  | many p ih => exact exists_of_repeatGreedy ih h
  | manyLazy p ih => exact exists_of_repeatLazy ih h
  | group n p ih =>
    obtain ⟨there, caps', hleads, hnext⟩ := ih h
    obtain ⟨hmoved, new, rfl, hnew⟩ := hleads.mono (List.subset_cons_self n p.groups)
    exact ⟨there, _, ⟨hmoved, _ :: new, rfl, List.forall_mem_cons.mpr ⟨List.mem_cons_self, hnew⟩⟩, hnext⟩
  | textStart | textEnd | lineStart | lineEnd | wordEdge =>
    simp only [run] at h
    split at h
    · exact ⟨here, caps, .refl, h⟩
    · cases h
  | noWordEdge =>
    simp only [run] at h
    split at h
    · cases h
    · exact ⟨here, caps, .refl, h⟩

/-! ### Searching -/

/-- A match starts where it was looked for and ends there or later. -/
theorem start_of_matchAt? {p : Pattern} {here : Cursor} {m : Match} (h : matchAt? p here = some m) :
    m.start = here ∧ m.stop.rest <:+ here.rest := by
  obtain ⟨there, caps, hleads, hfound⟩ := exists_of_run p h
  cases hfound
  exact ⟨rfl, hleads.suffix⟩

/-- What a match takes stands before its end. -/
theorem stop_of_matchAt? {p : Pattern} {here : Cursor} {m : Match} (h : matchAt? p here = some m) :
    ∃ piece, here.rest = piece ++ m.stop.rest ∧ m.stop.before = piece.reverse ++ here.before := by
  obtain ⟨there, caps, hleads, hfound⟩ := exists_of_run p h
  cases hfound
  exact hleads.moved

/-- The first match comes before all others. -/
theorem exists_of_search {p : Pattern} {m : Match} : ∀ {before rest : List Char}, search p before rest = some m →
    ∃ front back, rest = front ++ back ∧ matchAt? p ⟨front.reverse ++ before, back⟩ = some m ∧
      ∀ earlier piece, front = earlier ++ piece → piece ≠ [] →
        matchAt? p ⟨earlier.reverse ++ before, piece ++ back⟩ = none
  | before, [], h => ⟨[], [], rfl, h, fun earlier piece heq hne => absurd (List.append_eq_nil_iff.mp heq.symm).2 hne⟩
  | before, c :: cs, h => by
    rw [search] at h
    split at h
    · rename_i found hfound
      cases h
      exact ⟨[], c :: cs, rfl, hfound, fun earlier piece heq hne => absurd (List.append_eq_nil_iff.mp heq.symm).2 hne⟩
    · rename_i hnone
      obtain ⟨front, back, rfl, hm, hfirst⟩ := exists_of_search h
      refine ⟨c :: front, back, rfl, ?_, fun earlier piece heq hne => ?_⟩
      · rwa [List.reverse_cons, List.append_assoc, List.singleton_append]
      · cases earlier with
        | nil =>
          obtain rfl : c :: front = piece := heq
          exact hnone
        | cons d earlier =>
          obtain ⟨rfl, hfront⟩ := List.cons.inj heq
          rw [List.reverse_cons, List.append_assoc, List.singleton_append]
          exact hfirst earlier piece hfront hne

/-- A match that needs the start of the text is found there. -/
theorem run_of_find?_textStart {q : Pattern} {s : String} {m : Match} (h : (Pattern.seq .textStart q).find? s = some m) :
    run q (fun there caps => some (Match.mk ⟨[], s.toList⟩ there caps)) ⟨[], s.toList⟩ [] = some m := by
  obtain ⟨front, back, hs, hmatch, -⟩ := exists_of_search h
  have hfront : front = [] := by simpa using before_of_textStart hmatch
  rw [hfront, List.nil_append] at hs
  rw [hfront, ← hs] at hmatch
  exact next_of_textStart hmatch

theorem matchAt?_of_search_none {p : Pattern} : ∀ {before front back : List Char},
    search p before (front ++ back) = none → matchAt? p ⟨front.reverse ++ before, back⟩ = none
  | before, [], [], h => h
  | before, [], c :: cs, h => by
    rw [List.nil_append, search] at h
    split at h
    · cases h
    · assumption
  | before, c :: front, back, h => by
    rw [List.cons_append, search] at h
    split at h
    · cases h
    · rw [List.reverse_cons, List.append_assoc, List.singleton_append]
      exact matchAt?_of_search_none h

/-! ### Needed characters -/

/-- There is no match where the character comes less than `n` times. -/
def Needs (c : Char) (n : Nat) (next : Next α) : Prop :=
  ∀ (rest : List Char) (caps : Captures), rest.count c < n → Refuses next rest caps

theorem Needs.run {c : Char} {n : Nat} (h : Needs c n next) (p : Pattern) : Needs c n (Pattern.run p next) := by
  intro rest caps hcount before
  rw [Option.eq_none_iff_forall_ne_some]
  intro r hr
  obtain ⟨there, caps', hleads, hnext⟩ := exists_of_run p hr
  have hfew : there.rest.count c < n := lt_of_le_of_lt (hleads.suffix.sublist.count_le c) hcount
  rw [h there.rest caps' hfew there.before] at hnext
  cases hnext

theorem Needs.lit {s : String} {c : Char} {n : Nat} (hs : s.toList = [c]) (h : Needs c n next) :
    Needs c (n + 1) (Pattern.run (Pattern.lit s) next) := by
  intro rest caps hcount
  cases rest with
  | nil => exact refuses_lit hs (by simp)
  | cons d rest =>
    by_cases hd : d = c
    · subst hd
      rw [List.count_cons_self, Nat.add_lt_add_iff_right] at hcount
      rw [lit_of_toList hs]
      exact refuses_one_of_next (h rest caps hcount)
    · exact refuses_lit hs (by simpa using hd)

end Pattern
end Docblock
