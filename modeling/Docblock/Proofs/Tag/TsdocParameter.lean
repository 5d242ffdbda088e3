/-
# The mark of an optional parameter

A parameter is written as its name, a dash and a description, and a question mark
behind the name makes it optional. The name is read up to the first character
that no name has, the dash goes with the blanks around it, and what is left is the
description (`exists_tsdocParam_match`).

The mark is not read there, but looked for in the whole text: a description that
mentions the name with a question mark makes the parameter optional as well, and
so does any word of it that ends like this. Nothing else does, since such a piece
has neither blanks nor a dash and stands in the description as it is
(`marked_infix_iff`). So the parameter is optional by its name alone if and only
if the description does not have the mark (`tsdoc_param_optional`).

Key definitions: `Tag.IsIdentifier`, `Tag.tsdocParameter`.
Key theorems: `Tag.exists_tsdocParam_match`, `Tag.marked_infix_iff`,
`Tag.readTsdocParam_written`, `Tag.tsdoc_param_optional`.
-/
import Docblock.Proofs.Pattern.First
import Docblock.Proofs.Text.Cut
import Docblock.Proofs.Text.OneLine
import Docblock.Tag.Tsdoc

namespace Docblock
namespace Tag

open Pattern Text

/-! ### Names -/

/-- A letter, `_` or `$`. -/
def isNameStart (c : Char) : Bool := c.isAlpha || c == '_' || c == '$'

/-- A name starts with a letter, `_` or `$`, and has such characters and digits. -/
def IsIdentifier (name : String) : Prop :=
  ∃ c cs, name.toList = c :: cs ∧ isNameStart c = true ∧ ∀ d ∈ cs, alnumOr "_$" d = true

theorem alnumOr_of_isNameStart {c : Char} (h : isNameStart c = true) : alnumOr "_$" c = true := by
  simp only [isNameStart, Bool.or_eq_true, beq_iff_eq] at h
  rcases h with (halpha | rfl) | rfl
  · simp [alnumOr, Char.isAlphanum, halpha]
  · decide
  · decide

theorem IsIdentifier.ne_nil {name : String} (h : IsIdentifier name) : name.toList ≠ [] := by
  obtain ⟨c, cs, hname, -⟩ := h
  rw [hname]
  exact List.cons_ne_nil c cs

theorem IsIdentifier.alnumOr {name : String} (h : IsIdentifier name) : ∀ c ∈ name.toList, alnumOr "_$" c = true := by
  obtain ⟨c, cs, hname, hstart, hrest⟩ := h
  rw [hname, List.forall_mem_cons]
  exact ⟨alnumOr_of_isNameStart hstart, hrest⟩

/-- A name has no blanks and no dash. -/
theorem of_alnumOr {c : Char} (h : alnumOr "_$" c = true) : isBlank c = false ∧ c ≠ '-' := by
  refine ⟨isBlank_of_alnumOr (by decide) h, ?_⟩
  rintro rfl
  exact absurd h (by decide)

/-! ### Reading the text -/

/-- A name with its mark, if it has one, behind it a dash and the description. -/
def tsdocParamChars (name mark gap description : List Char) : List Char :=
  name ++ (mark ++ ' ' :: '-' :: (gap ++ description))

/-- A name. -/
def identifierPattern : Pattern := .group 1 (.seq (.one isNameStart) (.chars (alnumOr "_$")))

/-- What may stand behind a name, up to the end. -/
def describedPattern : Pattern :=
  all [opt (all [blanks, lit "-", blanks]), .group 2 (.chars fun _ => true), .textEnd]

theorem tsdocParamPattern_eq :
    tsdocParamPattern = .seq .textStart (.seq identifierPattern (.seq (opt (lit "?")) describedPattern)) := rfl

section Reading

variable {next : Next Match} {caps : Captures} {P : Match → Prop}

/-- A description is all that stands behind the dash and its blanks. -/
theorem accepts_described {gap description : List Char} (hgap : ∀ c ∈ gap, isBlank c = true)
    (hdescription : ∀ c ∈ description.head?, isBlank c = false)
    (h : Accepts next [] ((2, ⟨description ++ [], []⟩) :: caps) P) :
    Accepts (run describedPattern next) (' ' :: '-' :: (gap ++ description)) caps P := by
  have htext : Accepts (run (.group 2 (.chars fun _ => true)) (run .textEnd next)) (description ++ []) caps P :=
    accepts_group_chars (fun _ _ => rfl) (by simp) (accepts_textEnd h)
  rw [List.append_nil] at htext
  have hdash : Accepts (run blanks (run (lit "-") (run blanks
      (run (.group 2 (.chars fun _ => true)) (run .textEnd next)))))
      ([' '] ++ '-' :: (gap ++ description)) caps P :=
    accepts_chars (by decide) (by simpa using show isBlank '-' = false by decide)
      (accepts_lit rfl (accepts_chars hgap hdescription htext))
  exact accepts_opt hdash

/-- A mark is taken if it stands behind the name. -/
theorem accepts_mark {mark rest : List Char} (hmark : mark = [] ∨ mark = ['?']) (hrest : rest.head? ≠ some '?')
    (h : Accepts next rest caps P) : Accepts (run (opt (lit "?")) next) (mark ++ rest) caps P := by
  rcases hmark with rfl | rfl
  · exact accepts_opt_absent (refuses_lit rfl hrest) h
  · exact accepts_opt (accepts_lit rfl h)

end Reading

/-- **The name and the description are read as they are written.** -/
theorem exists_tsdocParam_match {name : String} {mark gap description : List Char} (h : IsIdentifier name)
    (hmark : mark = [] ∨ mark = ['?']) (hgap : ∀ c ∈ gap, isBlank c = true)
    (hdescription : ∀ c ∈ description.head?, isBlank c = false) :
    ∃ m, tsdocParamPattern.find? (String.ofList (tsdocParamChars name.toList mark gap description)) = some m ∧
      m.group 1 = name ∧ m.group 2 = String.ofList description := by
  obtain ⟨c, cs, hname, hstart, hrest⟩ := h
  let behind := mark ++ ' ' :: '-' :: (gap ++ description)
  let ofName : Nat × Span := (1, ⟨(c :: cs) ++ behind, behind⟩)
  let final : Next Match := fun there caps => some ⟨⟨[], (c :: cs) ++ behind⟩, there, caps⟩
  have hread : Accepts final [] [(2, ⟨description ++ [], []⟩), ofName] fun m =>
      m.group 1 = name ∧ m.group 2 = String.ofList description := by
    refine fun before => ⟨_, rfl, ?_, text_span _ _⟩
    calc Match.group _ 1 = (Span.mk ((c :: cs) ++ behind) behind).text := rfl
      _ = String.ofList name.toList := by rw [text_span, hname]
      _ = name := String.ofList_toList
  -- the name ends at the mark, or at the blank
  have hends : ∀ d ∈ behind.head?, alnumOr "_$" d = false := by
    rcases hmark with rfl | rfl
    · exact fun d hd => Option.some.inj hd ▸ (by decide : alnumOr "_$" ' ' = false)
    · exact fun d hd => Option.some.inj hd ▸ (by decide : alnumOr "_$" '?' = false)
  have hbehind := accepts_mark hmark (by simp) (accepts_described hgap hdescription hread)
  have hopen : Accepts (run identifierPattern (run (.seq (opt (lit "?")) describedPattern) final))
      (c :: (cs ++ behind)) [] fun m => m.group 1 = name ∧ m.group 2 = String.ofList description :=
    accepts_group (accepts_one hstart (accepts_chars hrest hends hbehind))
  obtain ⟨m, hm, hread⟩ := hopen []
  refine ⟨m, ?_, hread⟩
  rw [tsdocParamPattern_eq, find?, tsdocParamChars, hname, String.toList_ofList]
  exact search_of_matchAt? hm

/-! ### The mark in the text -/

/-- The text that is read: the description stands behind the dash without the
blanks around it. -/
theorem exists_trim_tsdocParam {name : String} (h : IsIdentifier name) (mark description : String) :
    ∃ gap, (∀ c ∈ gap, isBlank c = true) ∧ trim (name ++ mark ++ " - " ++ description) =
      String.ofList (tsdocParamChars name.toList mark.toList gap (trim description).toList) := by
  let front := (name.toList ++ (mark.toList ++ [' '])) ++ ['-']
  have hfront : IsTrimmed front := by
    refine .append_of_ne_nil (fun c hc => ?_) ⟨by decide, by decide⟩ (by decide)
    rw [List.head?_append_of_ne_nil _ h.ne_nil] at hc
    exact (of_alnumOr (h.alnumOr c (List.mem_of_mem_head? hc))).1
  obtain ⟨gap, hgap, hblank, -⟩ := exists_dropBlanksEnd (' ' :: description.toList)
  have hstrip : stripBlanks (' ' :: description.toList) = stripBlanks description.toList := by
    have hblanks : stripBlanks ([' '] ++ description.toList) = stripBlanks description.toList := by
      rw [stripBlanks, dropBlanks_append (by decide), stripBlanks]
    exact hblanks
  refine ⟨gap, hblank, ?_⟩
  have htext : (name ++ mark ++ " - " ++ description).toList = front ++ ' ' :: description.toList := by
    simp [front]
  rw [trim, htext, hfront.stripBlanks_append (by simp [front]), hgap, hstrip, trim, String.toList_ofList]
  simp [front, tsdocParamChars]

/-- Neither blanks nor dashes are in a name with the mark. -/
theorem IsIdentifier.not_mem_marked {name : String} (h : IsIdentifier name) {c : Char}
    (hc : isBlank c = true ∨ c = '-') : c ∉ name.toList ++ ['?'] := by
  have hmarked : ∀ d ∈ name.toList ++ ['?'], isBlank d = false ∧ d ≠ '-' := by
    rw [List.forall_mem_append]
    exact ⟨fun d hd => of_alnumOr (h.alnumOr d hd), by decide⟩
  intro hmem
  obtain ⟨hblank, hdash⟩ := hmarked c hmem
  rcases hc with hc | hc
  · rw [hblank] at hc
    cases hc
  · exact hdash hc

/-- **The text of a parameter without a mark has the mark only in its
description.** -/
theorem marked_infix_iff {name : String} (h : IsIdentifier name) {gap : List Char}
    (hgap : ∀ c ∈ gap, isBlank c = true) (description : String) :
    name.toList ++ ['?'] <:+: tsdocParamChars name.toList [] gap (trim description).toList ↔
      name.toList ++ ['?'] <:+: description.toList := by
  have hne : name.toList ++ ['?'] ≠ [] := by simp
  obtain ⟨before, after, hdescription, hbefore, hafter⟩ := exists_stripBlanks description.toList
  have hblanks : ∀ {blanks : List Char}, (∀ c ∈ blanks, isBlank c = true) →
      ∀ c ∈ blanks, c ∉ name.toList ++ ['?'] :=
    fun hall c hc => h.not_mem_marked (.inl (hall c hc))
  have hdash : ∀ c ∈ '-' :: gap, c ∉ name.toList ++ ['?'] :=
    List.forall_mem_cons.mpr ⟨h.not_mem_marked (.inr rfl), hblanks hgap⟩
  -- the name itself is too short for the mark
  have hname : ¬ name.toList ++ ['?'] <:+: name.toList := fun hinfix => by
    have hlength := hinfix.length_le
    rw [List.length_append, List.length_singleton] at hlength
    omega
  calc name.toList ++ ['?'] <:+: name.toList ++ ' ' :: (('-' :: gap) ++ (trim description).toList)
      ↔ name.toList ++ ['?'] <:+: ('-' :: gap) ++ (trim description).toList := by
        rw [infix_append_cons_iff (h.not_mem_marked (.inl (by decide))), or_iff_right hname]
    _ ↔ name.toList ++ ['?'] <:+: stripBlanks description.toList := by
        rw [infix_append_left_iff hne hdash, trim, String.toList_ofList]
    _ ↔ name.toList ++ ['?'] <:+: before ++ (stripBlanks description.toList ++ after) := by
        rw [infix_append_left_iff hne (hblanks hbefore), infix_append_right_iff hne (hblanks hafter)]
    _ ↔ name.toList ++ ['?'] <:+: description.toList := by rw [← hdescription]

/-! ### The parameter -/

/-- A parameter with its description; an optional one says so. -/
def tsdocParameter (name description : String) (optional : Bool) : Json :=
  .obj ([("name", .str name), ("description", .str description)] ++
    if optional then [("optional", .bool true)] else [])

/-- **A written parameter is read with its name and its description**, and is
optional if its name has the mark or the description mentions the name with it. -/
theorem readTsdocParam_written {name mark : String} (h : IsIdentifier name) (hmark : mark = "" ∨ mark = "?")
    (description : String) :
    readTsdocParam (name ++ mark ++ " - " ++ description) = some (tsdocParameter name (trim description)
      (mark == "?" || Text.contains description (name ++ "?"))) := by
  obtain ⟨gap, hgap, htrim⟩ := exists_trim_tsdocParam h mark description
  have htext := isTrimmed_stripBlanks description.toList
  rw [← String.toList_ofList (l := stripBlanks description.toList), ← trim] at htext
  have hchars : mark.toList = [] ∨ mark.toList = ['?'] := hmark.imp (congrArg String.toList) (congrArg String.toList)
  obtain ⟨m, hm, hname, hdescription⟩ := exists_tsdocParam_match h hchars hgap htext.head
  let text := String.ofList (tsdocParamChars name.toList mark.toList gap (trim description).toList)
  have hcontent : nonBlank? (name ++ mark ++ " - " ++ description) = some text := by
    rw [nonBlank?, htrim, if_neg (by simp [tsdocParamChars])]
  have hmarked : Text.contains text (name ++ "?") = (mark == "?" || Text.contains description (name ++ "?")) := by
    have hpiece : (name ++ "?").toList = name.toList ++ ['?'] := by simp
    rw [Bool.eq_iff_iff, Bool.or_eq_true, contains_iff, contains_iff, hpiece, beq_iff_eq, String.toList_ofList]
    rcases hmark with rfl | rfl
    · rw [or_iff_right (by decide)]
      exact marked_infix_iff h hgap description
    · refine iff_of_true ?_ (.inl rfl)
      exact ⟨[], ' ' :: '-' :: (gap ++ (trim description).toList), by simp [tsdocParamChars]⟩
  have hstrip : trim (trim description) = trim description := trim_eq_self_iff.mpr htext
  have hfound : tsdocParamPattern.find? text = some m := hm
  simp only [readTsdocParam, hcontent, hfound, hname, hdescription, hmarked, String.ofList_toList, hstrip,
    Option.bind_eq_bind, Option.bind_some, Option.pure_def]
  cases (mark == "?" || Text.contains description (name ++ "?")) <;> rfl

/-- **A parameter is optional by the mark of its name, or by a description that
mentions the name with the mark.** -/
theorem tsdoc_param_optional {name : String} (h : IsIdentifier name) (description : String) :
    (readTsdocParam (name ++ " - " ++ description) = some (tsdocParameter name (trim description) false) ↔
        ¬ (name ++ "?").toList <:+: description.toList) ∧
      (readTsdocParam (name ++ " - " ++ description) = some (tsdocParameter name (trim description) true) ↔
        (name ++ "?").toList <:+: description.toList) ∧
      readTsdocParam (name ++ "? - " ++ description) = some (tsdocParameter name (trim description) true) := by
  have hplain : readTsdocParam (name ++ " - " ++ description) = some (tsdocParameter name (trim description)
      (Text.contains description (name ++ "?"))) := by
    have hread := readTsdocParam_written h (.inl rfl) description
    have hnone : ("" == "?") = false := by decide
    rw [String.append_empty, hnone, Bool.false_or] at hread
    exact hread
  have hmark : readTsdocParam (name ++ "? - " ++ description) =
      some (tsdocParameter name (trim description) true) := by
    have hread := readTsdocParam_written h (.inr rfl) description
    have hsame : name ++ "?" ++ " - " = name ++ "? - " := String.append_assoc
    rw [hsame, beq_self_eq_true, Bool.true_or] at hread
    exact hread
  have hne : tsdocParameter name (trim description) true ≠ tsdocParameter name (trim description) false := by
    simp [tsdocParameter]
  refine ⟨?_, ?_, hmark⟩
  · rw [hplain, ← contains_iff, Option.some_inj]
    cases Text.contains description (name ++ "?") <;> simp [hne]
  · rw [hplain, ← contains_iff, Option.some_inj]
    cases Text.contains description (name ++ "?") <;> simp [hne.symm]

/-- The name alone, or a question mark behind another word, does no harm. -/
theorem tsdoc_param_optional_limit :
    let description := " Which limit ? Page size, if any?\n"
    IsIdentifier "limit" ∧ ¬ ("limit" ++ "?").toList <:+: description.toList ∧
      readTsdocParam ("limit" ++ " - " ++ description) =
        some (tsdocParameter "limit" (trim description) false) ∧
      readTsdocParam ("limit" ++ "? - " ++ description) =
        some (tsdocParameter "limit" (trim description) true) := by
  intro description
  have hname : IsIdentifier "limit" := ⟨'l', "imit".toList, rfl, by decide, by decide⟩
  have hnone : ¬ ("limit" ++ "?").toList <:+: description.toList := by decide
  obtain ⟨hplain, -, hmark⟩ := tsdoc_param_optional hname description
  exact ⟨hname, hnone, hplain.mpr hnone, hmark⟩

/-- A word of the description that ends like the name makes a parameter optional. -/
theorem description_makes_optional :
    IsIdentifier "id" ∧ (readTsdocParam ("id" ++ " - " ++ "Whether it is valid?")).isSome ∧
      readTsdocParam ("id" ++ " - " ++ "Whether it is valid?") =
        some (tsdocParameter "id" "Whether it is valid?" true) := by
  have hname : IsIdentifier "id" := ⟨'i', ['d'], rfl, by decide, by decide⟩
  have hread := readTsdocParam_written hname (.inl rfl) "Whether it is valid?"
  have hmark : Text.contains "Whether it is valid?" ("id" ++ "?") = true := by decide
  have htrim : trim "Whether it is valid?" = "Whether it is valid?" := by decide
  rw [String.append_empty, hmark, htrim, Bool.or_true] at hread
  exact ⟨hname, by rw [hread]; rfl, hread⟩

end Tag
end Docblock
