/-
# The properties of an interface

Each property comes from a line that starts with a name and a colon. So its name
is a word of ASCII letters, digits and underscores, and not empty
(`isName_of_readAll`).

Key definitions: `TypeScript.IsName`.
Key theorems: `TypeScript.isName_group`, `TypeScript.isName_of_readAll`.
-/
import Docblock.Proofs.Pattern.Trace
import Docblock.TypeScript.Interface

namespace Docblock
namespace TypeScript

open Pattern

/-- A word of ASCII letters, digits and underscores. -/
structure IsName (name : String) : Prop where
  ne_empty : name ≠ ""
  chars : ∀ c ∈ name.toList, Text.isAsciiWord c = true

/-- What follows the name in the head of a property. -/
def nameEnd : Pattern := all [opt (.group 2 (lit "?")), lit ":", blanks]

/-- The first group of a line that declares a property is its name. -/
theorem isName_group {q : Pattern} (hq : 1 ∉ q.groups) {line : String} {m : Match}
    (h : (Pattern.seq propertyHead q).find? line = some m) : IsName (m.group 1) := by
  obtain ⟨front, back, -, hmatch, -⟩ := exists_of_search h
  have hhead : run (.group 1 (chars1 Text.isAsciiWord)) (run (.seq nameEnd q) fun there caps =>
      some (Match.mk ⟨front.reverse ++ [], back⟩ there caps)) ⟨front.reverse ++ [], back⟩ [] = some m :=
    next_of_textStart hmatch
  obtain ⟨c, cs, hrest, hc, hmore⟩ := exists_of_one hhead
  obtain ⟨piece, stop, rfl, hpiece, hnext⟩ := exists_of_runChars hmore
  obtain ⟨there, caps, hleads, hfound⟩ := exists_of_run (.seq nameEnd q) hnext
  have hgroups : 1 ∉ (Pattern.seq nameEnd q).groups := fun hmem => (List.mem_append.mp hmem).elim (by decide) hq
  have hname : m.group 1 = String.ofList (c :: piece) := by
    cases hfound
    rw [Match.group, group?_eq_captured, hleads.captured_eq hgroups, captured_cons, if_pos rfl]
    have hback : back = c :: piece ++ stop := hrest
    rw [hback, text_span]
    rfl
  rw [hname]
  refine ⟨fun hempty => ?_, ?_⟩
  · rw [String.ofList_eq_empty_iff] at hempty
    cases hempty
  · rw [String.toList_ofList]
    exact List.forall_mem_cons.mpr ⟨hc, hpiece⟩

/-- The type of an array behind the head of a property. -/
def arrayEnd : Pattern := all [.group 3 (charsLazy1 notNewline), lit "[]", propertyComment, .textEnd]

/-- Any other type behind the head of a property. -/
def simpleEnd : Pattern := all [.group 3 (charsLazy1 notNewline), propertyComment, .textEnd]

/-- What can follow the head of a property. -/
def behindHead : List Pattern := [lit "Array<", lit "\x7b", arrayEnd, simpleEnd]

/-- A property is that of a match of its line. -/
theorem exists_of_readProperty? {line : String} {p : Property} (h : readProperty? line = some p) :
    ∃ q ∈ behindHead, ∃ m kind comment, (Pattern.seq propertyHead q).find? line = some m ∧
      p = propertyOf m kind comment ∧ (comment = none ∨ comment = m.group? 4) := by
  unfold readProperty? at h
  split at h
  · cases h
  · split at h
    · rename_i m hm
      cases h
      exact ⟨lit "Array<", by simp [behindHead], m, _, _, hm, rfl, Or.inl rfl⟩
    · split at h
      · rename_i m hm
        cases h
        exact ⟨lit "\x7b", by simp [behindHead], m, _, _, hm, rfl, Or.inl rfl⟩
      · split at h
        · rename_i m hm
          cases h
          exact ⟨arrayEnd, by simp [behindHead], m, _, _, hm, rfl, Or.inr rfl⟩
        · split at h
          · rename_i m hm
            split at h
            · cases h
            · cases h
              exact ⟨simpleEnd, by simp [behindHead], m, _, _, hm, rfl, Or.inr rfl⟩
          · cases h

/-- Each property has a name. -/
theorem isName_of_readProperty? {line : String} {p : Property} (h : readProperty? line = some p) : IsName p.name := by
  obtain ⟨q, hq, m, kind, comment, hm, rfl, -⟩ := exists_of_readProperty? h
  have hgroups : ∀ q ∈ behindHead, 1 ∉ q.groups := by decide
  exact isName_group (hgroups q hq) hm

/-- So has each property of an interface. -/
theorem isName_of_readAll {content : String} {i : Interface} (hi : i ∈ Interface.readAll content) {p : Property}
    (hp : p ∈ i.properties) : IsName p.name := by
  obtain ⟨m, -, hbody⟩ := List.mem_filterMap.mp hi
  obtain ⟨body, -, rfl⟩ := Option.map_eq_some_iff.mp hbody
  obtain ⟨line, -, hline⟩ := List.mem_filterMap.mp hp
  exact isName_of_readProperty? hline

end TypeScript
end Docblock
