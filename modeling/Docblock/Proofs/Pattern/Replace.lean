/-
# Replacing matches

Replacing the matches of a pattern goes from match to match: what stands before
the first match, what replaces it, and the same again from its end on
(`rewritten`). So a property of the text that is made is proved for a text
without a match, and for one match before a text that has it
(`replaceAll_induction`).

Key definitions: `Pattern.rewritten`.
Key theorems: `Pattern.toList_replaceAll`, `Pattern.replaceAll_induction`.
-/
import Docblock.Proofs.Pattern.Run
import Docblock.Proofs.Pattern.Trace

namespace Docblock
namespace Pattern

variable {p : Pattern}

/-- The text from a place on, with its matches replaced; the fuel bounds their
number. -/
def rewritten (p : Pattern) (new : Match → String) : (fuel : Nat) → Cursor → List Char
  | 0, here => here.rest
  | fuel + 1, here =>
    match search p here.before here.rest with
    | none => here.rest
    | some m => (Span.mk here.rest m.start.rest).chars ++ ((new m).toList ++ rewritten p new fuel m.stop)

theorem flatMap_pieces (hp : TakesSomething p) (new : Match → String) : ∀ (fuel : Nat) (here : Cursor),
    ((pieces here.rest (matchesFrom p fuel here)).map fun (between, m) =>
      String.ofList between ++ (m.map new).getD "").flatMap String.toList = rewritten p new fuel here
  | 0, here => by simp [matchesFrom, pieces, rewritten]
  | fuel + 1, here => by
    rw [matchesFrom_succ hp, rewritten]
    cases search p here.before here.rest with
    | none => simp [pieces]
    | some m =>
      have ih := flatMap_pieces hp new fuel m.stop
      simp only [pieces, List.map_cons, List.flatMap_cons, ih]
      simp

/-- The text that replacing makes. -/
theorem toList_replaceAll (hp : TakesSomething p) (new : Match → String) (s : String) :
    (replaceAll p new s).toList = rewritten p new (s.length + 2) (.ofChars s.toList) := by
  rw [replaceAll, String.toList_join, findAll_eq_matchesFrom hp]
  exact flatMap_pieces hp new _ (.ofChars s.toList)

/-- A pattern that starts with a character takes something. -/
theorem takesSomething_of_one {a : Char → Bool} {q : Pattern}
    (h : ∀ next : Next Match, run p next = run (.one a) (run q next)) : TakesSomething p := by
  intro here m hm
  rw [matchAt?, h] at hm
  obtain ⟨c, cs, hrest, -, hmore⟩ := exists_of_one hm
  obtain ⟨there, caps, hleads, hfound⟩ := exists_of_run q hmore
  cases hfound
  have hlength := hleads.suffix.length_le
  simp only [Match.isEmpty, hrest, List.length_cons, beq_eq_false_iff_ne, ne_eq]
  dsimp only at hlength
  omega

/-! ### Matches among others -/

theorem exists_of_searchAfter {here : Cursor} {m : Match} (h : searchAfter p here = some m) :
    ∃ there, there.rest <:+ here.rest ∧ matchAt? p there = some m := by
  have hfound : ∀ {before rest : List Char}, search p before rest = some m →
      ∃ there : Cursor, there.rest <:+ rest ∧ matchAt? p there = some m := by
    intro before rest hsearch
    obtain ⟨front, back, rfl, hmatch, -⟩ := exists_of_search hsearch
    exact ⟨_, List.suffix_append front back, hmatch⟩
  unfold searchAfter at h
  split at h
  · cases h
  · rename_i first hfirst
    split at h
    · split at h
      · cases h
      · rename_i c cs hrest
        obtain ⟨there, hsuffix, hmatch⟩ := hfound h
        exact ⟨there, by rw [hrest]; exact hsuffix.trans (List.suffix_cons c cs), hmatch⟩
    · cases h
      exact hfound hfirst

theorem exists_of_mem_matchesFrom {m : Match} : ∀ {fuel : Nat} {here : Cursor}, m ∈ matchesFrom p fuel here →
    ∃ there, there.rest <:+ here.rest ∧ matchAt? p there = some m
  | 0, _, h => absurd h List.not_mem_nil
  | fuel + 1, here, h => by
    rw [matchesFrom] at h
    split at h
    · cases h
    · rename_i first hfirst
      obtain ⟨start, hstart, hmatch⟩ := exists_of_searchAfter hfirst
      rcases List.mem_cons.mp h with rfl | hlater
      · exact ⟨start, hstart, hmatch⟩
      · obtain ⟨there, hthere, hfound⟩ := exists_of_mem_matchesFrom hlater
        exact ⟨there, (hthere.trans (start_of_matchAt? hmatch).2).trans hstart, hfound⟩

/-- Every match was found somewhere in the text. -/
theorem exists_of_mem_findAll {s : String} {m : Match} (h : m ∈ findAll p s) :
    ∃ here, here.rest <:+ s.toList ∧ matchAt? p here = some m := by
  unfold findAll at h
  split at h
  · cases h
  · rename_i first hfirst
    obtain ⟨front, back, hs, hmatch, -⟩ := exists_of_search hfirst
    have hback : back <:+ s.toList := by
      rw [hs]
      exact List.suffix_append front back
    rcases List.mem_cons.mp h with rfl | hlater
    · exact ⟨_, hback, hmatch⟩
    · obtain ⟨there, hthere, hfound⟩ := exists_of_mem_matchesFrom hlater
      exact ⟨there, (hthere.trans (start_of_matchAt? hmatch).2).trans hback, hfound⟩

/-- What stands behind a match is an end of the text. -/
theorem stop_suffix_of_mem_findAll {s : String} {m : Match} (h : m ∈ findAll p s) : m.stop.rest <:+ s.toList := by
  obtain ⟨here, hhere, hmatch⟩ := exists_of_mem_findAll h
  exact (start_of_matchAt? hmatch).2.trans hhere

/-! ### What replacing keeps -/

/-- **What holds of texts without a match, and of a match before such a text,
holds when all matches are replaced.** -/
theorem replaceAll_induction (hp : TakesSomething p) (new : Match → String) {motive : Cursor → List Char → Prop}
    (hnone : ∀ here, search p here.before here.rest = none → motive here here.rest)
    (hsome : ∀ here m front out, search p here.before here.rest = some m → here.rest = front ++ m.start.rest →
      motive m.stop out → motive here (front ++ ((new m).toList ++ out))) (s : String) :
    motive (.ofChars s.toList) (replaceAll p new s).toList := by
  have hrun : ∀ (fuel : Nat) (here : Cursor), here.rest.length < fuel → motive here (rewritten p new fuel here) := by
    intro fuel
    induction fuel with
    | zero => exact fun here h => absurd h (Nat.not_lt_zero _)
    | succ fuel ih =>
      intro here hfuel
      rw [rewritten]
      cases hm : search p here.before here.rest with
      | none => exact hnone here hm
      | some m =>
        obtain ⟨front, back, hrest, hmatch, -⟩ := exists_of_search hm
        obtain ⟨hstart, hstop⟩ := start_of_matchAt? hmatch
        have hback : m.start.rest = back := by rw [hstart]
        have hfront : (Span.mk here.rest m.start.rest).chars = front := by
          rw [hrest, hback]
          simp [Span.chars]
        -- a match takes something, so less is left behind it
        have hless : m.stop.rest.length < fuel := by
          have htakes := hp.search hm
          have hlength := hstop.length_le
          rw [Match.isEmpty, hback, beq_eq_false_iff_ne] at htakes
          rw [hrest, List.length_append] at hfuel
          dsimp only at hlength
          omega
        dsimp only
        rw [hfront]
        exact hsome here m front _ hm (by rw [hrest, hback]) (ih m.stop hless)
  rw [toList_replaceAll hp]
  refine hrun _ _ ?_
  rw [Cursor.ofChars, String.length_toList]
  omega

end Pattern
end Docblock
