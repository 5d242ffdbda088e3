/-
# The operations of a document

A document in a file stands for one element for each of its operations: the
document with this operation alone, written as YAML. Such an element is no
reference to a file again (`read?_element`), since it has lines that start with
other keys than its first one. If it reads back as it was written, it gives the
endpoint of its operation (`convertDocument_alone`).

Key definitions: `OpenApi.Operation`, `OpenApi.operations`,
`OpenApi.Operation.alone`, `OpenApi.IsRecord`.
Key theorems: `OpenApi.operationElements_eq`, `OpenApi.read?_element`,
`OpenApi.convertDocument_alone`.
-/
import Docblock.OpenApi.External
import Docblock.Proofs.OpenApi.FirstPath
import Docblock.Proofs.Text.OneLine
import Mathlib.Data.List.Chain

namespace Docblock
namespace OpenApi

open Pattern

/-! ### Operations -/

/-- An operation of a document, with the place where it stands. -/
structure Operation where
  path : String
  method : String
  operation : Json

/-- The operations of a document that become elements, in order. -/
def operations (document : Json) : List Operation :=
  (((document.get? "paths").bind Json.obj?).getD []).flatMap fun entry =>
    elementMethods.filterMap fun method => (entry.2.getTruthy? method).map (Operation.mk entry.1 method)

namespace Operation

/-- The document with this operation alone. -/
def alone (document : Json) (o : Operation) : Json :=
  withPaths document [(o.path, .obj [(o.method, o.operation)])]

/-- The place of an operation in its document. -/
def place (o : Operation) : String × String := (o.path, o.method)

/-- The element of an operation. -/
def element (document : Json) (o : Operation) : Element :=
  operationElement document o.path o.method o.operation

end Operation

theorem operationElements_eq (document : Json) :
    operationElements document = (operations document).map (Operation.element document) := by
  rw [operationElements, operations, List.map_flatMap]
  refine List.flatMap_congr fun entry _ => ?_
  rw [List.map_filterMap]
  refine List.filterMap_congr fun method _ => ?_
  rw [Option.map_map]
  rfl

theorem of_mem_operations {document : Json} {o : Operation} (h : o ∈ operations document) :
    o.method ∈ elementMethods ∧ o.operation.isTruthy = true := by
  obtain ⟨entry, -, hentry⟩ := List.mem_flatMap.mp h
  obtain ⟨method, hmethod, hsome⟩ := List.mem_filterMap.mp hentry
  obtain ⟨operation, hoperation, rfl⟩ := Option.map_eq_some_iff.mp hsome
  exact ⟨hmethod, (Option.filter_eq_some_iff.mp hoperation).2⟩

/-- No two operations have the same place, if no two paths are the same. -/
theorem pairwise_place {document : Json}
    (h : ∀ paths, document.get? "paths" = some (.obj paths) → Fields.Distinct paths) :
    (operations document).Pairwise fun o p => o.place ≠ p.place := by
  have hpaths : Fields.Distinct (((document.get? "paths").bind Json.obj?).getD []) := by
    cases hget : document.get? "paths" with
    | none => exact List.nodup_nil
    | some v =>
      cases v with
      | obj paths => exact h paths hget
      | _ => exact List.nodup_nil
  rw [operations, List.pairwise_flatMap]
  constructor
  · intro entry _
    have hmethods : elementMethods.Nodup := by decide
    refine List.Pairwise.filterMap _ (fun m n hne o ho p hp heq => ?_) hmethods
    obtain ⟨_, -, rfl⟩ := Option.map_eq_some_iff.mp ho
    obtain ⟨_, -, rfl⟩ := Option.map_eq_some_iff.mp hp
    exact hne (Prod.ext_iff.mp heq).2
  · have hkeys : (((document.get? "paths").bind Json.obj?).getD []).Pairwise fun a b => a.1 ≠ b.1 :=
      List.pairwise_map.mp hpaths
    refine hkeys.imp fun hne o ho p hp heq => ?_
    obtain ⟨_, -, ho⟩ := List.mem_filterMap.mp ho
    obtain ⟨_, -, hp⟩ := List.mem_filterMap.mp hp
    obtain ⟨_, -, rfl⟩ := Option.map_eq_some_iff.mp ho
    obtain ⟨_, -, rfl⟩ := Option.map_eq_some_iff.mp hp
    exact hne (Prod.ext_iff.mp heq).1

/-! ### Elements are no references -/

/-- Behind the end of a line comes a blank or a brace. -/
def Continues (c d : Char) : Prop := c = '\n' → Text.isBlank d = true ∨ d = '{'

theorem isChain_continues_of_forall {cs : List Char} (h : ∀ c ∈ cs, ∀ d ∈ cs, Continues c d) :
    cs.IsChain Continues := by
  refine List.isChain_iff_forall_rel_of_append_cons_cons.mpr fun c d front back heq => ?_
  exact h c (by simp [heq]) d (by simp [heq])

theorem isChain_continues_of_not_mem {cs : List Char} (h : '\n' ∉ cs) : cs.IsChain Continues :=
  isChain_continues_of_forall fun _ hc _ _ hline => absurd (hline ▸ hc) h

/-- What a reference behind a path looks like: one line, blanks, and another
line that starts with a brace. -/
theorem isChain_continues {first gap last : List Char} (hfirst : '\n' ∉ first)
    (hgap : ∀ c ∈ gap, Text.isBlank c = true) (hlast : '\n' ∉ last) (hbrace : last.head? = some '{') :
    (first ++ (gap ++ last)).IsChain Continues := by
  have hblanks : gap.IsChain Continues := isChain_continues_of_forall fun _ _ d hd _ => .inl (hgap d hd)
  refine List.isChain_append.mpr ⟨isChain_continues_of_not_mem hfirst,
    List.isChain_append.mpr ⟨hblanks, isChain_continues_of_not_mem hlast, ?_⟩, ?_⟩
  · intro c _ d hd _
    rw [hbrace] at hd
    exact .inr (Option.some.inj hd).symm
  · intro c hc d _ hline
    rw [hline] at hc
    exact absurd (List.mem_of_getLast? hc) hfirst

/-- The file of a reference is on one line with its braces. -/
theorem exists_of_fileInBraces {α : Type} {next : Next α} {n : Nat} {here : Cursor} {caps : Captures} {r : α}
    (h : run (fileInBraces n) next here caps = some r) : here.rest.head? = some '{' ∧ '\n' ∉ here.rest := by
  obtain ⟨back, before, hopen, hfile⟩ := exists_of_lit h
  obtain ⟨piece, rest, hback, -, hpiece, hclose⟩ := exists_of_group_charsLazy1 hfile
  obtain ⟨stop, before'', hrest, hend⟩ := exists_of_lit hclose
  have hstop : stop = [] := rest_of_textEnd hend
  dsimp only at hback hrest
  have hchars : "\x7bopenapi=".toList = '{' :: "openapi=".toList := by decide
  rw [hopen, hback, hrest, hstop, hchars]
  refine ⟨rfl, ?_⟩
  have hlit : '\n' ∉ "openapi=".toList := by decide
  have hclose : '\n' ∉ "\x7d".toList := by decide
  simp only [List.cons_append, List.mem_cons, List.mem_append, List.append_nil, not_or]
  exact ⟨by decide, hlit, newline_not_mem_of_forall hpiece, hclose⟩

/-- A text that starts with something else than a brace, and has a line that
does too, is no reference. -/
theorem read?_eq_none {content : String} (hhead : content.toList.head? ≠ some '{')
    (hlines : ¬content.toList.IsChain Continues) : ExternalReference.read? content = none := by
  have hfile : (all [.textStart, fileInBraces 1]).find? content = none := by
    rw [Option.eq_none_iff_forall_ne_some]
    intro m hm
    exact hhead (exists_of_fileInBraces (run_of_find?_textStart hm)).1
  have hpath : (all [.textStart, .group 1 (charsLazy1 notNewline), blanks, fileInBraces 2]).find? content = none := by
    rw [Option.eq_none_iff_forall_ne_some]
    intro m hm
    have hstart := run_of_find?_textStart hm
    obtain ⟨piece, rest, hcontent, -, hpiece, hblanks⟩ := exists_of_group_charsLazy1 hstart
    obtain ⟨gap, last, hrest, hgap, hlast⟩ := exists_of_runChars hblanks
    obtain ⟨hbrace, hline⟩ := exists_of_fileInBraces hlast
    dsimp only at hcontent hrest
    rw [hcontent, hrest] at hlines
    exact hlines (isChain_continues (newline_not_mem_of_forall hpiece) hgap hline hbrace)
  rw [ExternalReference.read?, hfile, hpath]
  rfl

/-- The text of an operation starts with two keys of the document, each at the
start of a line. -/
theorem exists_content (document : Json) (o : Operation) :
    ∃ version more, (o.element document).content.toList =
      ("openapi:".toList ++ version ++ "\ninfo:".toList) ++ more := by
  have hkeys : ∀ key ∈ ["openapi", "info"],
      Yaml.scalarText true 0 (.str key) = key ∧ Yaml.isSimpleKey (.str key) = true := by decide
  have hentry : ∀ key ∈ ["openapi", "info"], ∀ (v : Yaml) (rest : List (Yaml × Yaml)), rest ≠ [] →
      Yaml.entriesText 0 ((.str key, v) :: rest) =
        key ++ ":" ++ Yaml.afterKey 0 v ++ "\n" ++ Yaml.entriesText 0 rest := by
    intro key hkey v rest hrest
    obtain ⟨hscalar, hsimple⟩ := hkeys key hkey
    have hline : Yaml.lineAt 0 = "\n" := by decide
    rw [Yaml.entriesText, hscalar, hsimple, if_pos rfl, if_neg (by simpa using hrest), hline]
  have hcontent : ∃ v w rest, rest ≠ [] ∧ (o.element document).content =
      Yaml.entriesText 0 ((.str "openapi", v) :: (.str "info", w) :: rest) ++ "\n" :=
    ⟨_, _, _, List.cons_ne_nil _ _, rfl⟩
  obtain ⟨v, w, rest, hrest, htext⟩ := hcontent
  refine ⟨(Yaml.afterKey 0 v).toList, (Yaml.afterKey 0 w ++ "\n" ++ Yaml.entriesText 0 rest ++ "\n").toList, ?_⟩
  rw [htext, hentry "openapi" (by simp) v _ (List.cons_ne_nil _ _), hentry "info" (by simp) w _ hrest]
  simp

/-- So does the text without the blanks around it. -/
theorem exists_trim_content (document : Json) (o : Operation) :
    ∃ version more, (Text.trim (o.element document).content).toList =
      "openapi:".toList ++ version ++ "\ninfo:".toList ++ more := by
  obtain ⟨version, more, hcontent⟩ := exists_content document o
  have htrimmed : Text.IsTrimmed ("openapi:".toList ++ version ++ "\ninfo:".toList) :=
    { head := by rintro c ⟨⟩; decide
      last := by
        rw [List.getLast?_append_of_ne_nil _ (by decide)]
        rintro c ⟨⟩
        decide }
  refine ⟨version, Text.dropBlanksEnd more, ?_⟩
  rw [Text.trim, String.toList_ofList, hcontent, htrimmed.stripBlanks_append (by simp)]

/-- **The element of an operation is no reference to a file.** -/
theorem read?_element (document : Json) (o : Operation) :
    ExternalReference.read? (Text.trim (o.element document).content) = none := by
  obtain ⟨version, more, htrim⟩ := exists_trim_content document o
  apply read?_eq_none
  · have hfirst : "openapi:".toList = 'o' :: "penapi:".toList := by decide
    rw [htrim, hfirst]
    simp
  · intro hchain
    have hsplit : (Text.trim (o.element document).content).toList =
        ("openapi:".toList ++ version) ++ '\n' :: 'i' :: ("nfo:".toList ++ more) := by
      rw [htrim]
      simp
    have hinfo : Continues '\n' 'i' := List.isChain_iff_forall_rel_of_append_cons_cons.mp hchain hsplit
    rcases hinfo rfl with hblank | hbrace
    · exact absurd hblank (by decide)
    · exact absurd hbrace (by decide)

theorem nonBlank?_element (document : Json) (o : Operation) :
    Text.nonBlank? (o.element document).content = some (Text.trim (o.element document).content) := by
  obtain ⟨version, more, htrim⟩ := exists_trim_content document o
  have hne : Text.trim (o.element document).content ≠ "" := by
    intro hempty
    rw [hempty] at htrim
    simp at htrim
  simp [Text.nonBlank?, hne]

/-! ### The endpoint of an operation -/

/-- The fields are those of the endpoint of an operation. -/
structure IsRecord (o : Operation) (fields : Fields) : Prop where
  distinct : fields.Distinct
  type : fields.get? "type" = some (.str o.method)
  openapi : fields.get? "openapi" = some (.obj [("paths", .obj [(o.path, .obj [(o.method, o.operation)])])])

/-- A record says which operation it is of. -/
theorem IsRecord.place_eq {o p : Operation} {fields : Fields} (ho : IsRecord o fields) (hp : IsRecord p fields) :
    o.place = p.place := by
  have htype := ho.type.symm.trans hp.type
  have hopenapi := ho.openapi.symm.trans hp.openapi
  simp only [Option.some.injEq, Json.str.injEq, Json.obj.injEq, List.cons.injEq, Prod.mk.injEq] at htype hopenapi
  exact Prod.ext hopenapi.1.2.1.1 htype

theorem firstOperation?_single {method : String} (hmethod : method ∈ elementMethods) {operation : Json}
    (htruthy : operation.isTruthy = true) :
    firstOperation? (.obj [(method, operation)]) = some (method, operation) := by
  have hget : ∀ key, (Json.obj [(method, operation)]).getTruthy? key =
      if method = key then some operation else none := by
    intro key
    by_cases hkey : method = key
    · simp [Json.getTruthy?, Json.get?, Fields.get?, hkey, Option.filter, htruthy]
    · simp [Json.getTruthy?, Json.get?, Fields.get?, hkey]
  obtain ⟨earlier, later, hmethods⟩ := List.append_of_mem (List.mem_of_mem_take hmethod : method ∈ httpMethods)
  have hearlier : method ∉ earlier := by
    have hnodup : httpMethods.Nodup := by decide
    rw [hmethods, List.nodup_append] at hnodup
    exact fun hmem => hnodup.2.2 method hmem method List.mem_cons_self rfl
  refine firstOperation?_eq_some_iff.mpr ⟨⟨by simp [hget], earlier, later, hmethods, fun m hm => ?_⟩, by simp [hget]⟩
  rw [hget, if_neg]
  rintro rfl
  exact hearlier hm

/-- **The document with one operation gives the endpoint of this operation.** -/
theorem convertDocument_alone (document : Json) {o : Operation} (hmethod : o.method ∈ elementMethods)
    (htruthy : o.operation.isTruthy = true) :
    ∃ fields, convertDocument (o.alone document) = some (.obj fields) ∧ IsRecord o fields := by
  have hpaths : (o.alone document).getTruthy? "paths" =
      some (.obj [(o.path, .obj [(o.method, o.operation)])]) := rfl
  have hhead : [(o.path, Json.obj [(o.method, o.operation)])].head? = some (o.path, .obj [(o.method, o.operation)]) :=
    rfl
  obtain ⟨fields, hfields, hextends⟩ := exists_convertPaths hhead (firstOperation?_single hmethod htruthy)
    ((o.alone document).get? "components")
  rw [convertDocument, hpaths]
  exact ⟨fields, hfields, hextends.distinct, hextends.get?_eq "type" (by simp [keys_endpointBase]),
    hextends.get?_eq "openapi" (by simp [keys_endpointBase])⟩

end OpenApi
end Docblock
