/-
# Running patterns

The matcher tries the longest run of characters first and goes back. Two
cases need no going back: what follows takes every place
(`runChars_of_isSome`), or it takes no place at which the run could have
gone on (`runChars_of_none`). Either way the run is the longest there is.

A pattern that never matches the empty text finds its matches by searching
on from the end of the last one (`matchesFrom_succ`, `findAll_eq_matchesFrom`).

Key definitions: `Pattern.TakesSomething`.
Key theorems: `Pattern.runChars_of_isSome`, `Pattern.runChars_of_none`,
`Pattern.findAll_eq_matchesFrom`.
-/
import Docblock.Pattern.Search

namespace Docblock
namespace Pattern

variable {α : Type}

/-! ### Runs of characters -/

/-- Where the rest takes every place, the run is the longest. -/
theorem runChars_of_isSome (accepts : Char → Bool) {next : Next α} {caps : Captures}
    (h : ∀ here, (next here caps).isSome) : ∀ before rest : List Char,
    runChars accepts next caps before rest =
      next ⟨(rest.takeWhile accepts).reverse ++ before, rest.dropWhile accepts⟩ caps
  | before, [] => rfl
  | before, c :: cs => by
    have ih := runChars_of_isSome accepts h (c :: before) cs
    by_cases hc : accepts c = true
    · obtain ⟨r, hr⟩ := Option.isSome_iff_exists.mp
        (h ⟨(cs.takeWhile accepts).reverse ++ c :: before, cs.dropWhile accepts⟩)
      rw [hr] at ih
      rw [runChars, if_pos hc, ih, List.takeWhile_cons_of_pos hc, List.dropWhile_cons_of_pos hc,
        List.reverse_cons, List.append_assoc, List.singleton_append, hr]
    · rw [runChars, if_neg hc, List.takeWhile_cons_of_neg hc, List.dropWhile_cons_of_neg hc]
      rfl

/-- Where the rest takes no place before a character of the run, the run is the
longest, or there is none. -/
theorem runChars_of_none {accepts : Char → Bool} {next : Next α} {caps : Captures}
    (h : ∀ before c cs, accepts c = true → next ⟨before, c :: cs⟩ caps = none) :
    ∀ before rest : List Char, runChars accepts next caps before rest =
      next ⟨(rest.takeWhile accepts).reverse ++ before, rest.dropWhile accepts⟩ caps
  | before, [] => rfl
  | before, c :: cs => by
    have ih := runChars_of_none h (c :: before) cs
    by_cases hc : accepts c = true
    · rw [runChars, if_pos hc, ih, h before c cs hc, List.takeWhile_cons_of_pos hc,
        List.dropWhile_cons_of_pos hc, List.reverse_cons, List.append_assoc, List.singleton_append]
      cases next ⟨(cs.takeWhile accepts).reverse ++ c :: before, cs.dropWhile accepts⟩ caps <;> rfl
    · rw [runChars, if_neg hc, List.takeWhile_cons_of_neg hc, List.dropWhile_cons_of_neg hc]
      rfl

/-! ### Searching -/

/-- No match of the pattern is empty. -/
def TakesSomething (p : Pattern) : Prop := ∀ here m, matchAt? p here = some m → m.isEmpty = false

variable {p : Pattern}

theorem search_cons_of_none {before cs : List Char} {c : Char}
    (h : matchAt? p ⟨before, c :: cs⟩ = none) : search p before (c :: cs) = search p (c :: before) cs := by
  rw [search, h]

theorem search_cons_of_some {before cs : List Char} {c : Char} {m : Match}
    (h : matchAt? p ⟨before, c :: cs⟩ = some m) : search p before (c :: cs) = some m := by
  rw [search, h]

theorem TakesSomething.search (hp : TakesSomething p) : ∀ {before rest : List Char} {m : Match},
    Pattern.search p before rest = some m → m.isEmpty = false
  | before, [], m, h => hp _ _ h
  | before, c :: cs, m, h => by
    cases hm : matchAt? p ⟨before, c :: cs⟩ with
    | none =>
      rw [search_cons_of_none hm] at h
      exact hp.search h
    | some found =>
      rw [search_cons_of_some hm] at h
      cases h
      exact hp _ _ hm

theorem searchAfter_of_search {here : Cursor} {m : Match} (h : search p here.before here.rest = some m)
    (hm : m.isEmpty = false) : searchAfter p here = some m := by
  simp [searchAfter, h, hm]

theorem searchAfter_eq_search (hp : TakesSomething p) (here : Cursor) :
    searchAfter p here = search p here.before here.rest := by
  cases h : search p here.before here.rest with
  | none => simp [searchAfter, h]
  | some m => exact searchAfter_of_search h (hp.search h)

theorem matchesFrom_succ (hp : TakesSomething p) (fuel : Nat) (here : Cursor) :
    matchesFrom p (fuel + 1) here =
      match search p here.before here.rest with
      | none => []
      | some m => m :: matchesFrom p fuel m.stop := by
  cases h : search p here.before here.rest <;>
    simp only [matchesFrom, searchAfter_eq_search hp, h]

/-- All matches are those from the start on. -/
theorem findAll_eq_matchesFrom (hp : TakesSomething p) (s : String) :
    findAll p s = matchesFrom p (s.length + 2) (.ofChars s.toList) := by
  rw [matchesFrom_succ hp]
  rfl

end Pattern
end Docblock
