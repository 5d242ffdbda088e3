/-
# The operations of a document share one block

A comment that refers to a document in a file is replaced by one element for
each operation (`elementsOf_reference`). Elements of one comment belong to one
block, and the tag stores its entries at the top of it. So there is one block
for all operations, in which each operation writes over those before it
(`gives_readText_reference`): every entry is that of the last operation that
has it. An operation has a record of its own if and only if it is the only one
(`operations_share_one_block`).

Key definitions: `Source.RefersTo`, `Source.ReadAlone`, `Source.ReadsBack`.
Key theorems: `Source.elementsOf_reference`,
`Source.gives_foldlM_records`, `Source.gives_readText_reference`,
`Source.operations_share_one_block`.
-/
import Docblock.Proofs.Element.Expansion
import Docblock.Proofs.Json.Same
import Docblock.Proofs.OpenApi.Operation
import Docblock.Proofs.Source.Joining
import Docblock.Proofs.Tag.Registry
import Mathlib.Data.List.Forall2

namespace Docblock
namespace Source

open OpenApi Reading

/-! ### The elements of a reference -/

/-- A comment with one element, which refers to a document in a file. -/
def RefersTo (tree : FileTree) (file comment : String) (document : Json) : Prop :=
  ∃ e r external, Element.cut comment = [e] ∧ e.name = "openapi" ∧
    ExternalReference.read? (Text.trim e.content) = some r ∧ loadExternal tree r file = .ok external ∧
    external.document = document

variable {tree : FileTree} {file comment : String} {document : Json}

theorem name_operationElement (o : Operation) : (o.element document).name = "openapi" := by
  have hlower : Text.lower "openapi" = "openapi" := by decide +kernel
  exact hlower

theorem name_of_mem_operationElements {e : Element} (h : e ∈ operationElements document) : e.name = "openapi" := by
  rw [operationElements_eq] at h
  obtain ⟨o, -, rfl⟩ := List.mem_map.mp h
  exact name_operationElement o

/-- **A reference is replaced by the operations of its document.** -/
theorem elementsOf_reference (h : RefersTo tree file comment document) :
    elementsOf (Setup.builtin tree) file comment = operationElements document := by
  obtain ⟨e, r, external, hcut, hname, hread, hload, rfl⟩ := h
  have hexpand : Tag.openApiExpansion tree file e = some (operationElements external.document, []) := by
    rw [Tag.openApiExpansion, hread, Option.map_some, hload]
  have hopenapi : Hooks.applyEntry comment file ([e], [])
      ⟨190, Tag.expandLast "openapi" (Tag.openApiExpansion tree)⟩ = (operationElements external.document, []) :=
    Hooks.applyEntry_expandLast_of_eq comment 190 hname hexpand [] []
  -- the hooks that run later find operations only
  have hlater : ∀ name, name ≠ "openapi" → ∀ x ∈ (operationElements external.document).getLast?, x.name ≠ name := by
    intro name hne x hx
    rw [name_of_mem_operationElements (List.mem_of_getLast? hx)]
    exact Ne.symm hne
  have hschema := Hooks.applyEntry_expandLast_of_ne comment file 200 (Tag.schemaExpansion tree)
    (hlater "apischema" (by decide)) []
  have hcode := Hooks.applyEntry_expandLast_of_ne comment file 300 (Tag.codeExpansion tree)
    (hlater "apicode" (by decide)) []
  have hhooks : (Setup.builtin tree).hooks = Hooks.builtin tree := rfl
  rw [elementsOf, hhooks, Element.findElements_builtin_eq_foldl, hcut, List.foldl_cons, List.foldl_nil, Element.join,
    List.nil_append, Hooks.applyElements_eq_foldl, Hooks.named_builtin, List.foldl_cons, hopenapi, List.foldl_cons,
    hschema, List.foldl_cons, hcode, List.foldl_nil]

/-! ### One operation -/

/-- What the tag reads from the element of an operation, when it stands alone. -/
def ReadAlone (tree : FileTree) (document : Json) (o : Operation) (fields : Fields) : Prop :=
  ∀ memory, Tag.readOpenApi tree (o.element document).content (o.element document).source memory =
    { result := .ok (some (.obj fields)), memory }

/-- The element of an operation reads back as it was written. -/
def ReadsBack (document : Json) (o : Operation) : Prop :=
  load? (Text.trim (o.element document).content) = some (o.alone document)

/-- Reading back, the tag converts the document with the operation alone. -/
theorem readAlone_of_convertDocument {o : Operation} (hback : ReadsBack document o) {fields : Fields}
    (hconvert : convertDocument (o.alone document) = some (.obj fields)) : ReadAlone tree document o fields := by
  have halone : ∃ entries, o.alone document = .obj entries := ⟨_, rfl⟩
  obtain ⟨entries, halone⟩ := halone
  intro memory
  rw [Tag.readOpenApi, nonBlank?_element]
  dsimp only
  rw [read?_element, hback, halone]
  dsimp only
  rw [← halone, hconvert]

theorem exists_readAlone {o : Operation} (h : o ∈ operations document) (hback : ReadsBack document o) :
    ∃ fields, ReadAlone tree document o fields ∧ IsRecord o fields := by
  obtain ⟨hmethod, htruthy⟩ := of_mem_operations h
  obtain ⟨fields, hconvert, hrecord⟩ := convertDocument_alone document hmethod htruthy
  exact ⟨fields, readAlone_of_convertDocument hback hconvert, hrecord⟩

theorem find?_openapi (tree : FileTree) :
    (Setup.builtin tree).registry.find? "openapi" = some (Tag.inserted "local" (Tag.readOpenApi tree)) := by
  have hlower : Text.lower "openapi" = "openapi" := by decide +kernel
  have hmem : ("openapi", Tag.inserted "local" (Tag.readOpenApi tree)) ∈ Registry.builtinTags tree := by
    have hopenapi : ("openapi", Tag.inserted "local" (Tag.readOpenApi tree)) ∈ Tag.openApiTags tree :=
      List.mem_cons_self
    simp only [Registry.builtinTags, List.mem_append, hopenapi, true_or, or_true]
  have hfind := Registry.find?_builtin_of_mem hmem
  rwa [hlower] at hfind

/-- The block after an operation has joined it. -/
def withRecord (position : Nat) (d : Draft) (fields : Fields) : Draft :=
  { d with block := { d.block with own := d.block.own.setAll fields, index := position } }

theorem attach_record (b : Block) (fields : Fields) :
    b.attach "local" .insert (.obj fields) = ({ b with own := b.own.setAll fields }, true) := by
  have hpath : Text.split '.' "local" = ["local"] := by decide
  rw [Block.attach, hpath]
  rfl

/-- What the tag replies joins the block. -/
theorem joinReply_record (memory : Tag.Memory) (d : Draft) (fields : Fields) (position : Nat) :
    joinReply (Setup.builtin tree) d (Tag.inserted "local" (Tag.readOpenApi tree))
      { result := .ok (some (.obj fields)), memory } position = .ok (withRecord position d fields) := by
  have hlocal : isShared "local" = false := by decide
  have hpath : ((Tag.inserted "local" (Tag.readOpenApi tree)).path memory).filter (fun path => !path.isEmpty) =
      some "local" := by
    simp [Tag.inserted, Tag.fixed, Option.filter]
  have htruthy : (Json.obj fields).isFalsy = false := rfl
  simp only [joinReply, htruthy, hpath, Bool.false_eq_true, ↓reduceIte]
  simp only [Draft.join, Tag.inserted, renderFields, Setup.builtin, attach_record, hlocal, Bool.false_and,
    Bool.false_eq_true, ↓reduceIte]
  rfl

/-- The step: an operation writes its entries over those that are there. -/
theorem gives_readElement_record {o : Operation} {fields : Fields} (h : ReadAlone tree document o fields)
    {memory : Tag.Memory} (hcategory : leavesOut memory.category "openapi" = false) (index : Nat) (d : Draft) :
    gives (readElement (Setup.builtin tree) file index d (o.element document)) memory =
      (.ok (withRecord (index + 1) d fields), memory) := by
  have hread : (Tag.inserted "local" (Tag.readOpenApi tree)).read = Tag.readOpenApi tree := by
    simp only [Tag.inserted]
  have hnoted : noted (Tag.inserted "local" (Tag.readOpenApi tree)) (o.element document) memory = memory := by
    simp [noted, Tag.inserted]
  rw [gives_readElement, name_operationElement, hcategory, if_neg Bool.false_ne_true, find?_openapi]
  dsimp only
  rw [hread, hnoted, h memory, joinReply_record]
  rfl

/-! ### All operations -/

/-- The run: each operation writes over those before it. -/
theorem gives_foldlM_records {os : List Operation} {records : List Fields}
    (h : List.Forall₂ (ReadAlone tree document) os records) {memory : Tag.Memory}
    (hcategory : leavesOut memory.category "openapi" = false) (index : Nat) (d : Draft) :
    gives ((os.map (Operation.element document)).foldlM (readElement (Setup.builtin tree) file index) d) memory =
      (.ok (records.foldl (withRecord (index + 1)) d), memory) := by
  induction h generalizing d with
  | nil => rfl
  | cons hfirst _ ih =>
    rw [List.map_cons, List.foldlM_cons, gives_bind_of_ok (gives_readElement_record hfirst hcategory index d), ih]
    rfl

theorem block_foldl_withRecord (position : Nat) : ∀ (records : List Fields) (d : Draft),
    (records.foldl (withRecord position) d).block = { d.block with
      own := records.foldl Fields.setAll d.block.own
      index := if records.isEmpty then d.block.index else position }
  | [], _ => rfl
  | fields :: records, d => by
    rw [List.foldl_cons, block_foldl_withRecord position records]
    cases records <;> rfl

/-- Comments with operations only are read, if there are any. -/
theorem selectBlocks_operations (tree : FileTree) (document : Json) :
    (selectBlocks (Setup.builtin tree) [operationElements document]).1 =
      if (operationElements document).isEmpty then [] else [(0, operationElements document)] := by
  have hnone : (operationElements document).findSome? (hiding? (Setup.builtin tree) 0) = none := by
    rw [List.findSome?_eq_none_iff]
    intro e he
    have hignore : Text.startsWith "openapi" "apiignore" = false := by decide
    have hprivate : Text.startsWith "openapi" "apiprivate" = false := by decide
    simp [hiding?, name_of_mem_operationElements he, hignore, hprivate]
  have hwanted : isWanted (Setup.builtin tree) (operationElements document) =
      !(operationElements document).isEmpty := by
    have hopenapi : documentsSomething "openapi" = true := by decide
    cases helements : operationElements document with
    | nil => rfl
    | cons e es =>
      have hmem : e ∈ operationElements document := by
        rw [helements]
        exact List.mem_cons_self
      have hname := name_of_mem_operationElements hmem
      simp [isWanted, Setup.builtin, hname, hopenapi]
  cases hempty : (operationElements document).isEmpty with
  | true => simp [selectBlocks, verdict, hnone, hwanted, hempty]
  | false => simp [selectBlocks, verdict, hnone, hwanted, hempty]

/-- **One block holds the operations,** each over those before it. -/
theorem gives_readText_reference {text : String} (hcomments : commentsOf (Setup.builtin tree) file text = [comment])
    (h : RefersTo tree file comment document) {records : List Fields}
    (hrecords : List.Forall₂ (ReadAlone tree document) (operations document) records) {memory : Tag.Memory}
    (hcategory : leavesOut memory.category "openapi" = false) :
    (gives (readText (Setup.builtin tree) file text) memory).1 =
      .ok (if records.isEmpty then none else some [{ own := records.foldl Fields.setAll [], index := 1 }]) := by
  have hcategory' : leavesOut { memory with filename := file }.category "openapi" = false := hcategory
  have hempty : (operationElements document).isEmpty = records.isEmpty := by
    rw [operationElements_eq, List.isEmpty_map]
    rw [Bool.eq_iff_iff, List.isEmpty_iff_length_eq_zero, List.isEmpty_iff_length_eq_zero, hrecords.length_eq]
  rw [gives_readText, hcomments, List.map_singleton, elementsOf_reference h]
  dsimp only
  rw [readElements, selectBlocks_operations, hempty, operationElements_eq]
  cases records with
  | nil => rfl
  | cons fields records =>
    simp only [List.isEmpty_cons, Bool.false_eq_true, ↓reduceIte, Bool.or_self, readBlocks]
    have hblock : gives (readBlock (Setup.builtin tree) file 0 ((operations document).map (Operation.element document)))
        { memory with filename := file } =
        (.ok { own := (fields :: records).foldl Fields.setAll [], index := 1 }, { memory with filename := file }) := by
      rw [readBlock, gives_bind_of_ok (gives_foldlM_records hrecords hcategory' 0 {}), gives_pure,
        block_foldl_withRecord]
      rfl
    rw [gives_bind_of_ok hblock]
    rfl

/-! ### Which operations keep a record -/

theorem exists_records {os : List Operation} (hmem : ∀ o ∈ os, o ∈ operations document)
    (hback : ∀ o ∈ os, ReadsBack document o) :
    ∃ records, List.Forall₂ (fun o fields => ReadAlone tree document o fields ∧ IsRecord o fields) os records := by
  induction os with
  | nil => exact ⟨[], .nil⟩
  | cons o os ih =>
    rw [List.forall_mem_cons] at hmem hback
    obtain ⟨fields, hfields⟩ : ∃ fields, ReadAlone tree document o fields ∧ IsRecord o fields :=
      exists_readAlone hmem.1 hback.1
    obtain ⟨records, hrecords⟩ := ih hmem.2 hback.2
    exact ⟨fields :: records, .cons hfields hrecords⟩

/-- An entry is that of the last record that has it. -/
theorem get?_foldl_setAll (key : String) : ∀ {records : List Fields} (own : Fields), (∀ r ∈ records, r.Distinct) →
    (records.foldl Fields.setAll own).get? key = (records.reverse.findSome? (Fields.get? key)).or (own.get? key)
  | [], _, _ => rfl
  | fields :: records, own, hd => by
    rw [List.forall_mem_cons] at hd
    rw [List.foldl_cons, get?_foldl_setAll key _ hd.2, Fields.get?_setAll key own hd.1, List.reverse_cons,
      List.findSome?_append, Option.or_assoc]
    cases hkey : Fields.get? key fields <;> simp [hkey]

theorem distinct_of_isRecord {os : List Operation} {records : List Fields} (h : List.Forall₂ IsRecord os records) :
    ∀ fields ∈ records, fields.Distinct := by
  induction h with
  | nil => simp
  | cons hfirst _ ih => exact List.forall_mem_cons.mpr ⟨hfirst.distinct, ih⟩

/-- Records of different operations cannot all be the same. -/
theorem length_le_one_of_all_eq {os : List Operation} {records : List Fields} (h : List.Forall₂ IsRecord os records)
    (hplaces : os.Pairwise fun o p => o.place ≠ p.place) {own : Fields} (hown : ∀ fields ∈ records, own = fields) :
    os.length ≤ 1 := by
  cases h with
  | nil => exact Nat.zero_le 1
  | cons hfirst hrest =>
    cases hrest with
    | nil => exact le_refl 1
    | cons hsecond _ =>
      rw [List.forall_mem_cons, List.forall_mem_cons] at hown
      rw [← hown.1] at hfirst
      rw [← hown.2.1] at hsecond
      exact absurd (hfirst.place_eq hsecond) (List.rel_of_pairwise_cons hplaces List.mem_cons_self)

/-- **The operations of a document share one block.** A comment with a reference
to a document in a file gives one block, if there are any operations. Each of
its entries is that of the last operation that has it. So an operation has a
record of its own if and only if there is no other. -/
theorem operations_share_one_block {text : String}
    (hcomments : commentsOf (Setup.builtin tree) file text = [comment]) (hrefers : RefersTo tree file comment document)
    (hpaths : ∀ paths, document.get? "paths" = some (.obj paths) → Fields.Distinct paths)
    (hback : ∀ o ∈ operations document, ReadsBack document o) {memory : Tag.Memory}
    (hcategory : leavesOut memory.category "openapi" = false) :
    ∃ records blocks, List.Forall₂ (ReadAlone tree document) (operations document) records ∧
      (gives (readText (Setup.builtin tree) file text) memory).1 = .ok (if blocks = [] then none else some blocks) ∧
      blocks.length = min 1 (operations document).length ∧
      (∀ b ∈ blocks, ∀ key, b.own.get? key = records.reverse.findSome? (Fields.get? key)) ∧
      ((∀ fields ∈ records, ∃ b ∈ blocks, b.own = fields) ↔ (operations document).length ≤ 1) := by
  have hrecords : ∃ records, List.Forall₂ (fun o fields => ReadAlone tree document o fields ∧ IsRecord o fields)
      (operations document) records := exists_records (fun _ ho => ho) hback
  obtain ⟨records, hrecords⟩ := hrecords
  have hread : List.Forall₂ (ReadAlone tree document) (operations document) records := hrecords.imp fun _ _ h => h.1
  have hisRecord : List.Forall₂ IsRecord (operations document) records := hrecords.imp fun _ _ h => h.2
  have hdistinct := distinct_of_isRecord hisRecord
  have hgives := gives_readText_reference hcomments hrefers hread hcategory
  cases records with
  | nil =>
    have hnone : operations document = [] := List.forall₂_nil_right_iff.mp hread
    exact ⟨[], [], hread, hgives, by simp [hnone], by simp, by simp [hnone]⟩
  | cons fields others =>
    have hlength := hread.length_eq
    rw [List.length_cons] at hlength
    refine ⟨fields :: others, [{ own := (fields :: others).foldl Fields.setAll [], index := 1 }], hread, hgives, ?_, ?_,
      fun hown => ?_, fun hone => ?_⟩
    · rw [List.length_singleton]
      omega
    · intro b hb key
      obtain rfl := List.mem_singleton.mp hb
      rw [get?_foldl_setAll key [] hdistinct]
      exact Option.or_none
    · have hall : ∀ x ∈ fields :: others, (fields :: others).foldl Fields.setAll [] = x := by
        intro x hx
        obtain ⟨b, hb, hx⟩ := hown x hx
        obtain rfl := List.mem_singleton.mp hb
        exact hx
      exact length_le_one_of_all_eq hisRecord (pairwise_place hpaths) hall
    · -- a single record is stored as it is
      have hsingle : others = [] := List.length_eq_zero_iff.mp (by omega)
      subst hsingle
      intro x hx
      obtain rfl := List.mem_singleton.mp hx
      refine ⟨_, List.mem_singleton_self _, ?_⟩
      exact Fields.setAll_eq_append (hdistinct x List.mem_cons_self) (by simp [Fields.keys])

/-! ### Two operations -/

deriving instance DecidableEq for External, ExternalReference, Operation

theorem eq_ok_of_toOption {ε α : Type} {x : Except ε α} {a : α} (h : x.toOption = some a) : x = .ok a := by
  cases x with
  | error e => cases h
  | ok b => rw [Option.some.inj h]

/-- A document with two operations, of which the first has a tag. -/
def petDocument : Json := .obj [("openapi", .str "3"), ("info", .obj []), ("paths", .obj [("/a", .obj [
  ("get", .obj [("tags", .arr [.str "t"])]), ("put", .obj [])])]), ("components", .obj [])]

def petTree : FileTree := .ofFiles [("spec.json", Text.utf8Bytes petDocument.compact)]

/-- A comment that refers to it. -/
def petText : String := "/**@openapi \x7bopenapi=spec.json\x7d*/"

theorem commentsOf_pets :
    commentsOf (Setup.builtin petTree) "a.js" petText = ["@openapi \x7bopenapi=spec.json\x7d"] := by
  decide +kernel

theorem refersTo_pets : RefersTo petTree "a.js" "@openapi \x7bopenapi=spec.json\x7d" petDocument := by
  have hcut : Element.cut "@openapi \x7bopenapi=spec.json\x7d" =
      [.new "openapi" "\x7bopenapi=spec.json\x7d" "@openapi \x7bopenapi=spec.json\x7d"] := by decide +kernel
  have hname : Element.name (.new "openapi" "\x7bopenapi=spec.json\x7d" "@openapi \x7bopenapi=spec.json\x7d") =
      "openapi" := by decide +kernel
  have hread : ExternalReference.read? (Text.trim "\x7bopenapi=spec.json\x7d") = some ⟨"", "spec.json"⟩ := by
    decide +kernel
  have hload : (loadExternal petTree ⟨"", "spec.json"⟩ "a.js").toOption =
      some ⟨petDocument, "spec.json", "full-spec"⟩ := by decide +kernel
  exact ⟨_, _, _, hcut, hname, hread, eq_ok_of_toOption hload, rfl⟩

theorem operations_pets : operations petDocument =
    [⟨"/a", "get", .obj [("tags", .arr [.str "t"])]⟩, ⟨"/a", "put", .obj []⟩] := by
  decide +kernel

theorem readsBack_pets : ∀ o ∈ operations petDocument, ReadsBack petDocument o := by
  have hback : ∀ o ∈ operations petDocument,
      load? (Text.trim (o.element petDocument).content) = some (o.alone petDocument) := by decide +kernel
  exact hback

theorem operations_share_one_block_pets :
    ∃ records blocks, List.Forall₂ (ReadAlone petTree petDocument) (operations petDocument) records ∧
      (gives (readText (Setup.builtin petTree) "a.js" petText) {}).1 = .ok (if blocks = [] then none else some blocks) ∧
      blocks.length = 1 ∧ ¬∀ fields ∈ records, ∃ b ∈ blocks, b.own = fields := by
  have hpaths : ∀ paths, petDocument.get? "paths" = some (.obj paths) → Fields.Distinct paths := by
    rintro paths ⟨⟩
    exact List.nodup_singleton _
  have hcategory : leavesOut ({} : Tag.Memory).category "openapi" = false := by decide
  obtain ⟨records, blocks, hrecords, hgives, hlength, -, hown⟩ :=
    operations_share_one_block commentsOf_pets refersTo_pets hpaths readsBack_pets hcategory
  rw [operations_pets] at hlength hown
  exact ⟨records, blocks, hrecords, hgives, hlength, by rw [hown]; decide⟩

/-- What both operations have in their records. -/
def petRecord (method title name : String) (operation : Json) : Fields := [("type", .str method), ("url", .str "/a"),
  ("title", .str title), ("name", .str name), ("description", .str ""), ("version", .str "4.0.0"),
  ("openapi", .obj [("paths", .obj [("/a", .obj [(method, operation)])])])]

def getPetRecord : Fields :=
  petRecord "get" "GET /a" "getA" (.obj [("tags", .arr [.str "t"])]) ++ [("group", .str "t")]

def putPetRecord : Fields := petRecord "put" "PUT /a" "putA" (.obj [])

/-- The only block is the record of neither operation: it is that of the second
one, with the group of the first. -/
theorem block_of_no_operation :
    List.Forall₂ (ReadAlone petTree petDocument) (operations petDocument) [getPetRecord, putPetRecord] ∧
      (gives (readText (Setup.builtin petTree) "a.js" petText) {}).1 =
        .ok (some [{ own := putPetRecord ++ [("group", .str "t")], index := 1 }]) ∧
      putPetRecord ++ [("group", .str "t")] ∉ [getPetRecord, putPetRecord] := by
  have hread : List.Forall₂ (ReadAlone petTree petDocument) (operations petDocument) [getPetRecord, putPetRecord] := by
    have hback := readsBack_pets
    rw [operations_pets] at hback ⊢
    rw [List.forall_mem_cons, List.forall_mem_singleton] at hback
    exact .cons (readAlone_of_convertDocument hback.1 (by decide +kernel))
      (.cons (readAlone_of_convertDocument hback.2 (by decide +kernel)) .nil)
  have hcategory : leavesOut ({} : Tag.Memory).category "openapi" = false := by decide
  exact ⟨hread, gives_readText_reference commentsOf_pets refersTo_pets hread hcategory, by decide +kernel⟩

end Source
end Docblock
