/-
# Interfaces as parameters

An interface stands for a parameter for each of its properties, written as
`{kind} [name] description`. The name is a word and the description is made of
it, so neither can stand in the way of reading the line back. The type is the
text that was left of it, whatever that is, and so it decides alone: the field
and the mark of an optional one are read back if and only if the text is read
as a type (`expansion_read_iff_type`). Quotes are not, and they are all that is
left of a type that is a text (`text_type_not_read`).

Key definitions: `TypeScript.parameterText`, `TypeScript.readsAsType`,
`TypeScript.Records`.
Key theorems: `TypeScript.records_iff`,
`TypeScript.expansion_read_iff_type`.
-/
import Docblock.Proofs.Tag.Braced
import Docblock.Proofs.TypeScript.Comment
import Mathlib.Data.List.Forall2

namespace Docblock
namespace TypeScript

open Pattern Tag Text

/-! ### The line of a property -/

/-- The text of a property as a parameter. -/
def parameterText (p : Property) : String :=
  "\x7b" ++ p.kind ++ "\x7d " ++ (if p.optional then "[" ++ p.name ++ "]" else p.name) ++ " " ++ p.description

/-- A property as an element. -/
def parameterElement (element : String) (p : Property) : Element :=
  .new element (trim (parameterText p)) ("@" ++ element ++ " " ++ parameterText p)

theorem toElements_eq (i : Interface) (element : String) :
    i.toElements element "" = i.properties.map (parameterElement element) := by
  have hlead : (if "".isEmpty then "" else "(" ++ "" ++ ") ") = "" := rfl
  refine List.map_congr_left fun p _ => ?_
  simp only [hlead, parameterElement, parameterText, String.empty_append]

/-! ### Reading the line -/

/-- Whether the type of a property is read as the type of a parameter. -/
def readsAsType (kind : String) : Bool := isTypeText (flat kind)

/-- The value names the property and says whether it is optional. -/
def Records (p : Property) (v : Json) : Prop :=
  v.getStr? "field" = some p.name ∧ v.get? "optional" = some (.bool p.optional)

theorem oneLine_trim (s : String) : (oneLine (trim s)).toList = flat (trim s) := by
  have htrim : trim (trim s) = trim s := by
    rw [trim_eq_self_iff, trim, String.toList_ofList]
    exact isTrimmed_stripBlanks _
  rw [oneLine, htrim, toList_flatten]

/-- A property is read if its type is, and then as it is; without an `@` nothing
is read otherwise. -/
theorem records_iff {p : Property} (hname : IsName p.name) (hkind : '}' ∉ p.kind.toList)
    (hdescription : '}' ∉ p.description.toList) (defaultGroup : String) (memory : Memory) :
    ((∃ v, (readParameter defaultGroup (trim (parameterText p)) memory).1 = some v ∧ Records p v) ↔
        readsAsType p.kind = true) ∧
      (readsAsType p.kind = false → '@' ∉ (trim (parameterText p)).toList →
        (readParameter defaultGroup (trim (parameterText p)) memory).1 = none) := by
  have hchars : ∀ c ∈ p.name.toList, isFieldChar c = true :=
    fun c hc => isFieldChar_of_isAsciiWord (hname.chars c hc)
  have htext : parameterText p = bracedText p.kind p.optional p.name p.description := rfl
  obtain ⟨tail, hflat, hline, hclose⟩ :=
    exists_line_of_bracedText hname.ne_empty hchars p.kind p.optional p.description
  rw [← htext] at hflat
  have hbraced : IsBraced (flat p.kind) (flat p.name) tail := {
    hline with
    kind_close := fun hmem => hkind (mem_toList_of_mem_flat hmem (by decide))
    kind_line := newline_not_mem_flat _
    tail_close := fun hmem => hdescription (hclose hmem) }
  rw [← oneLine_trim] at hflat
  have hmark : lineMark ∉ p.name.toList := fun hmem => absurd (hname.chars _ hmem) (by decide)
  refine ⟨⟨fun ⟨v, hv, hrecords⟩ => ?_, fun htype => ?_⟩, fun htype hat => ?_⟩
  · by_contra htype
    have hnone := (readParameter_braced_of_refused hbraced (eq_false_of_ne_true htype) hflat defaultGroup memory).1 v hv
    rw [hrecords.1] at hnone
    cases hnone
  · exact readParameter_braced hbraced htype hflat (unflatten_flat hmark) defaultGroup memory
  · refine (readParameter_braced_of_refused hbraced htype hflat defaultGroup memory).2 fun hmem => hat ?_
    rw [oneLine_trim] at hmem
    exact mem_toList_of_mem_flat hmem (by decide)

/-- **A property becomes a parameter if its type can be one.** Of every interface
of every text, each property gives an element, and of those whose type has no
closing brace exactly the ones with a type that is read as one are read back,
with their name and with the mark of optional ones. Of the others no field is
read, and without an `@` nothing at all. -/
theorem expansion_read_iff_type {content : String} {i : Interface} (hi : i ∈ Interface.readAll content)
    (element defaultGroup : String) (memory : Memory) :
    List.Forall₂ (fun p e => '}' ∉ p.kind.toList →
      ((∃ v, (readParameter defaultGroup e.content memory).1 = some v ∧ Records p v) ↔ readsAsType p.kind = true) ∧
        (readsAsType p.kind = false → '@' ∉ e.content.toList → (readParameter defaultGroup e.content memory).1 = none))
      i.properties (i.toElements element "") := by
  rw [toElements_eq, List.forall₂_map_right_iff, List.forall₂_same]
  intro p hp hkind
  have hname := isName_of_readAll hi hp
  have hdescription : '}' ∉ p.description.toList := by
    rw [description_eq hi hp]
    exact close_not_mem_describe hname
  exact records_iff hname hkind hdescription defaultGroup memory

deriving instance DecidableEq for Property, Interface

/-- A number that may be missing. -/
def idProperty : Property := ⟨"id", "Number", true, "Id"⟩

/-- A property whose type is a text: what stood in its quotes is gone. -/
def kindProperty : Property := ⟨"kind", "\"\"", false, "Kind"⟩

theorem readAll_sample : Interface.readAll "interface A \x7b id?: number; kind: \"x\" \x7d" =
    [⟨"A", [idProperty, kindProperty], []⟩] := by
  decide +kernel

theorem expansion_read_iff_type_sample :
    ∃ i ∈ Interface.readAll "interface A \x7b id?: number; kind: \"x\" \x7d",
      ∃ id kind, i.toElements "apiParam" "" = [id, kind] ∧
        (∃ v, (readParameter "Parameter" id.content {}).1 = some v ∧ Records idProperty v) ∧
        (readParameter "Parameter" kind.content {}).1 = none := by
  have hi : ⟨"A", [idProperty, kindProperty], []⟩ ∈
      Interface.readAll "interface A \x7b id?: number; kind: \"x\" \x7d" := by
    rw [readAll_sample]
    exact List.mem_singleton_self _
  have hall := expansion_read_iff_type hi "apiParam" "Parameter" {}
  rw [toElements_eq, List.map_cons, List.map_cons, List.map_nil, List.forall₂_cons, List.forall₂_cons] at hall
  refine ⟨_, hi, _, _, toElements_eq _ _, ?_, ?_⟩
  · exact (hall.1 (by decide)).1.mpr (by decide)
  · exact (hall.2.1 (by decide)).2 (by decide) (by decide)

/-- **A property with a text for its type is not read at all.** -/
theorem text_type_not_read :
    ∃ i ∈ Interface.readAll "interface A \x7b kind: \"x\"; \x7d", ∃ e ∈ i.toElements "apiParam" "",
      (readParameter "Parameter" e.content {}).1 = none := by
  have hread : Interface.readAll "interface A \x7b kind: \"x\"; \x7d" = [⟨"A", [kindProperty], []⟩] := by
    decide +kernel
  refine ⟨⟨"A", [kindProperty], []⟩, by rw [hread]; exact List.mem_singleton_self _,
    parameterElement "apiParam" kindProperty, ?_, Option.isNone_iff_eq_none.mp (by decide +kernel)⟩
  rw [toElements_eq]
  exact List.mem_singleton_self _

end TypeScript
end Docblock
