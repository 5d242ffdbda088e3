/-
# Code files in a block

A code element at the end of a comment is replaced by an example with the text
of its file, whatever stands before it (`Hooks.applyElements_code`). What is read
from the example is the text without its indentation and the blanks at its end,
under the language and the title that are shown (`gives_readElement_filled`), and
it joins the local examples of its block if these can take one more
(`joinReply_example`). A file of nothing but blanks stops the reading instead
(`gives_readElement_blank`).

Key definitions: `Source.exampleTag`, `Source.TakesExample`,
`Source.withExample`, `Source.stoppedAt`.
Key theorems: `Hooks.applyElements_code`, `Source.find?_example`,
`Source.joinReply_example`, `Source.gives_readElement_filled`,
`Source.gives_readElement_blank`, `Source.code_file_outcome`.
-/
import Docblock.Proofs.Block.Insertion
import Docblock.Proofs.Element.Expansion
import Docblock.Proofs.Source.Joining
import Docblock.Proofs.Tag.CodeFile
import Docblock.Proofs.Tag.Registry

namespace Docblock

open Tag

/-- **A code element at the end is replaced by an example.** The hooks that run
before see its name and leave it alone. -/
theorem Hooks.applyElements_code {tree : FileTree} {filename : String} {e : Element} {r : CodeReference} {code : String}
    (hname : e.name = "apicode") (hsaid : r.IsSaidBy e.content)
    (hcode : tree.readText? (Path.beside filename (Text.trim r.file)) = some code) (block : String) (es : List Element) :
    (Hooks.builtin tree).applyElements findElements block filename (es ++ [e]) = (es ++ [r.element code], []) := by
  have hother : ∀ name, name ≠ "apicode" → ∀ x ∈ (es ++ [e]).getLast?, x.name ≠ name := by
    intro name hne x hx
    obtain rfl : e = x := by simpa using hx
    rw [hname]
    exact hne.symm
  have hopenapi := applyEntry_expandLast_of_ne block filename 190 (openApiExpansion tree)
    (hother "openapi" (by decide)) []
  have hschema := applyEntry_expandLast_of_ne block filename 200 (schemaExpansion tree)
    (hother "apischema" (by decide)) []
  have hreplace := applyEntry_expandLast_of_eq block 300 hname (codeExpansion_of_isSaidBy hsaid hcode) es []
  rw [applyElements_eq_foldl, named_builtin, List.foldl_cons, hopenapi, List.foldl_cons, hschema, List.foldl_cons,
    hreplace, List.foldl_nil, List.append_nil]

namespace Source

open Reading Text

variable {tree : FileTree} {file : String} {r : CodeReference} {code : String}

/-! ### The tag of examples -/

/-- The tag that examples of the text of an element are read with. -/
def exampleTag : Tag :=
  pushed "local.examples" fun _ source memory => { result := .ok (readExample source), memory }

theorem find?_example (tree : FileTree) : (Setup.builtin tree).registry.find? "apiexample" = some exampleTag := by
  have hlower : Text.lower "apiExample" = "apiexample" := by decide +kernel
  have hmem : ("apiExample", exampleTag) ∈ Registry.builtinTags tree := by
    have hexample : ("apiExample", exampleTag) ∈ exampleTags := List.mem_cons_self
    simp only [Registry.builtinTags, List.mem_append, hexample, true_or, or_true]
  have hfind := Registry.find?_builtin_of_mem hmem
  rw [hlower] at hfind
  exact hfind

theorem name_exampleElement (r : CodeReference) (code : String) : (r.element code).name = "apiexample" := by
  have hlower : Text.lower "apiExample" = "apiexample" := by decide +kernel
  exact hlower

/-! ### One more example -/

/-- What stands in the place of the local examples counts as absent, or it is an
array. -/
def TakesExample (d : Draft) : Prop :=
  ∀ node, d.block.read .own ["examples"] = some node → node.isFalsy = true ∨ ∃ xs, node = .arr xs

/-- The block with one more local example. -/
def withExample (position : Nat) (d : Draft) (x : Json) : Draft :=
  { d with block := { d.block with
      own := d.block.own.set "examples" (.arr (d.block.elementsIn .own ["examples"] ++ [x]))
      index := position } }

theorem split_examples : Text.split '.' "local.examples" = [Block.Part.own.name, "examples"] := by decide

/-- An example joins the local examples if these can take one more, and nothing
else can happen to it. -/
theorem joinReply_example (memory : Tag.Memory) (d : Draft) {x : Json} (hx : x.isFalsy = false) (position : Nat) :
    (TakesExample d → joinReply (Setup.builtin tree) d exampleTag { result := .ok (some x), memory } position =
      .ok (withExample position d x)) ∧
    (¬ TakesExample d → joinReply (Setup.builtin tree) d exampleTag { result := .ok (some x), memory } position =
      .error (.otherShape "local.examples")) := by
  have hlocal : isShared "local.examples" = false := by decide
  have hpath : (exampleTag.path memory).filter (fun path => !path.isEmpty) = some "local.examples" := by
    simp [exampleTag, pushed, fixed, Option.filter]
  have hjoin : joinReply (Setup.builtin tree) d exampleTag { result := .ok (some x), memory } position =
      d.join exampleTag "local.examples" x position := by
    simp only [joinReply, hx, hpath, Bool.false_eq_true, ↓reduceIte]
    rfl
  rw [hjoin]
  simp only [Draft.join, exampleTag, pushed, hlocal, Bool.false_and, Bool.false_eq_true, ↓reduceIte]
  constructor
  · intro htakes
    rw [Block.attach_push_of_fits split_examples htakes]
    rfl
  · intro htakes
    have hfits : (d.block.attach "local.examples" .push x).2 = false := by
      rw [← Bool.not_eq_true, Block.attach_fits_iff split_examples]
      exact fun h => htakes h.2.1
    rcases hattach : d.block.attach "local.examples" .push x with ⟨after, fits⟩
    rw [hattach] at hfits
    obtain rfl : fits = false := hfits
    rfl

/-! ### The element of a code file -/

/-- The fault that stops the reading at an element. -/
def stoppedAt (file : String) (index : Nat) (e : Element) (cause : Cause) : Fault :=
  ⟨cause, file, index + 1, e.sourceName, e.source⟩

/-- What is read from the element joins the block. -/
theorem gives_readElement_code (index : Nat) (d : Draft) {memory : Tag.Memory}
    (hcategory : leavesOut memory.category "apiexample" = false) :
    gives (readElement (Setup.builtin tree) file index d (r.element code)) memory =
      ((joinReply (Setup.builtin tree) d exampleTag
        { result := .ok (readExample (exampleSource r.shownLanguage r.shownTitle code)), memory } (index + 1)).mapError
          (stoppedAt file index (r.element code)), memory) := by
  have hnoted : noted exampleTag (r.element code) memory = memory := by simp [noted, exampleTag, pushed]
  rw [gives_readElement, name_exampleElement, hcategory, if_neg Bool.false_ne_true, find?_example]
  dsimp only
  rw [hnoted]
  rfl

/-- The example of a file with content is read back from its element. -/
theorem gives_readElement_filled (hfilled : ∃ c ∈ code.toList, isBlank c = false) (index : Nat) (d : Draft)
    {memory : Tag.Memory} (hcategory : leavesOut memory.category "apiexample" = false) :
    gives (readElement (Setup.builtin tree) file index d (r.element code)) memory =
      ((joinReply (Setup.builtin tree) d exampleTag
        { result := .ok (some (exampleOf r.shownLanguage r.shownTitle code)), memory } (index + 1)).mapError
          (stoppedAt file index (r.element code)), memory) := by
  obtain ⟨hne, htrimmed, hline⟩ := r.of_shownTitle
  rw [gives_readElement_code index d hcategory, readExample_of_filled r.isExampleType hne htrimmed hline hfilled]

/-- There is none of a file without content, and this is a fault. -/
theorem gives_readElement_blank (hblank : ∀ c ∈ code.toList, isBlank c = true) (index : Nat) (d : Draft)
    {memory : Tag.Memory} (hcategory : leavesOut memory.category "apiexample" = false) :
    gives (readElement (Setup.builtin tree) file index d (r.element code)) memory =
      (.error (stoppedAt file index (r.element code) .emptyResult), memory) := by
  obtain ⟨hne, htrimmed, hline⟩ := r.of_shownTitle
  rw [gives_readElement_code index d hcategory, readExample_of_blank r.isExampleType hne htrimmed hline hblank]
  rfl

/-- **What becomes of a code file.** With an element that names a file with a
text, the element is replaced by an example, whatever elements stand before it.
If the text has content, and the local examples can take one more, reading the
example adds one to them and changes nothing else: with the language and title
that are shown, and with the text without its indentation and the blanks at its
end. But with a text of nothing but blanks, the empty one included, reading the
example is a fault. -/
theorem code_file_outcome {filename : String} {e : Element} (hname : e.name = "apicode") (hsaid : r.IsSaidBy e.content)
    (hcode : tree.readText? (Path.beside filename (trim r.file)) = some code) :
    (∀ block es, (Hooks.builtin tree).applyElements Hooks.findElements block filename (es ++ [e]) =
      (es ++ [r.element code], [])) ∧
    ∀ index d (memory : Tag.Memory),
      let reading := gives (readElement (Setup.builtin tree) filename index d (r.element code)) memory
      (leavesOut memory.category "apiexample" = true → reading = (.ok d, memory)) ∧
      (leavesOut memory.category "apiexample" = false →
        ((∃ c ∈ code.toList, isBlank c = false) → TakesExample d →
          reading = (.ok (withExample (index + 1) d (exampleOf r.shownLanguage r.shownTitle code)), memory)) ∧
        ((∃ c ∈ code.toList, isBlank c = false) → ¬ TakesExample d →
          reading = (.error (stoppedAt filename index (r.element code) (.otherShape "local.examples")), memory)) ∧
        ((∀ c ∈ code.toList, isBlank c = true) →
          reading = (.error (stoppedAt filename index (r.element code) .emptyResult), memory))) := by
  refine ⟨fun block es => Hooks.applyElements_code hname hsaid hcode block es, fun index d memory => ⟨fun hout => ?_,
    fun hcategory => ⟨fun hfilled htakes => ?_, fun hfilled htakes => ?_, fun hblank => ?_⟩⟩⟩
  · rw [gives_readElement, name_exampleElement, if_pos hout]
  · rw [gives_readElement_filled hfilled index d hcategory, (joinReply_example memory d rfl (index + 1)).1 htakes]
    rfl
  · rw [gives_readElement_filled hfilled index d hcategory, (joinReply_example memory d rfl (index + 1)).2 htakes]
    rfl
  · exact gives_readElement_blank hblank index d hcategory

/-- What the element `@apiCode {file=send.js} Send` says. -/
def sendReference : CodeReference where
  language := none
  file := "send.js"
  title := "Send"
  isLanguage := by simp
  file_ne := by decide
  brace := by decide
  isTrimmed := ⟨by decide, by decide⟩
  newline := by decide

def sendElement : Element := .new "apiCode" "\x7bfile=send.js\x7d Send" "@apiCode \x7bfile=send.js\x7d Send"

/-- A folder with a file of this text. -/
def sendTree (code : String) : FileTree := .ofFiles [("send.js", utf8Bytes code)]

theorem name_sendElement : sendElement.name = "apicode" := by decide +kernel

theorem isSaidBy_sendElement : sendReference.IsSaidBy sendElement.content := by
  refine ⟨[], [' '], by decide, by decide, ?_⟩
  decide +kernel

theorem code_file_outcome_indented :
    (Hooks.builtin (sendTree "  send();\n")).applyElements Hooks.findElements "" "a.js" [sendElement] =
      ([sendReference.element "  send();\n"], []) ∧
    gives (readElement (Setup.builtin (sendTree "  send();\n")) "a.js" 0 {} (sendReference.element "  send();\n")) {} =
      (.ok (withExample 1 {} (.obj [("title", .str "Send"), ("content", .str "send();"), ("type", .str "javascript")])),
        {}) := by
  have hcode : (sendTree "  send();\n").readText? (Path.beside "a.js" (trim sendReference.file)) =
      some "  send();\n" := by decide +kernel
  obtain ⟨hhooks, hread⟩ := code_file_outcome name_sendElement isSaidBy_sendElement hcode
  have hcategory : leavesOut ({} : Tag.Memory).category "apiexample" = false := by decide
  have hfilled : ∃ c ∈ "  send();\n".toList, isBlank c = false := by decide
  have htakes : TakesExample {} := by rintro node ⟨⟩
  have hexample : exampleOf sendReference.shownLanguage sendReference.shownTitle "  send();\n" =
      .obj [("title", .str "Send"), ("content", .str "send();"), ("type", .str "javascript")] := by
    have hlanguage : sendReference.shownLanguage = "javascript" := by decide +kernel
    have htitle : sendReference.shownTitle = "Send" := by decide +kernel
    have hcontent : trimEnd (unindent "  send();\n") = "send();" := by decide +kernel
    rw [exampleOf, hlanguage, htitle, hcontent]
  refine ⟨hhooks "" [], ?_⟩
  rw [((hread 0 {} {}).2 hcategory).1 hfilled htakes, hexample]

/-- The file is readable, but the example with its empty text is not, and the
reading stops. -/
theorem empty_file_stops_reading :
    (sendTree "").readText? (Path.beside "a.js" (trim sendReference.file)) = some "" ∧
    sendReference.IsSaidBy sendElement.content ∧
    (Hooks.builtin (sendTree "")).applyElements Hooks.findElements "" "a.js" [sendElement] =
      ([sendReference.element ""], []) ∧
    ¬ ∃ after, (gives (readElement (Setup.builtin (sendTree "")) "a.js" 0 {} (sendReference.element "")) {}).1 =
      .ok after := by
  have hcode : (sendTree "").readText? (Path.beside "a.js" (trim sendReference.file)) = some "" := by decide +kernel
  refine ⟨hcode, isSaidBy_sendElement,
    Hooks.applyElements_code name_sendElement isSaidBy_sendElement hcode "" [], ?_⟩
  rw [gives_readElement_blank (by simp) 0 {} (by decide)]
  rintro ⟨after, ⟨⟩⟩

end Source
end Docblock
