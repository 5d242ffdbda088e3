/-
# One definition a block

A block shares data through its definition alone: every other tag that comes
with the program joins the data of the endpoint (`Tag.Place`). So while a block
is read, the number of shared values that were counted is the number of keys
that the block shares, and this is the number of its definitions, which is at
most one (`Draft.Shares`). The guard against other shared data compares the two
numbers, and hence never holds: a definition can refer to others.

Key definitions: `Source.definesIn`, `Source.Draft.Shares`.
Key theorems: `Source.Draft.Shares.readElements`,
`Source.one_definition_per_block`.
-/
import Docblock.Proofs.Source.Grouping
import Docblock.Proofs.Tag.Reply
import Docblock.Proofs.Text.Cut

namespace Docblock

/-! ### Shared paths -/

/-- A path of the endpoint does not lead to shared data. -/
theorem Source.isShared_of_split_local {path : String} {keys : List String}
    (h : Text.split '.' path = "local" :: keys) : isShared path = false := by
  rw [isShared, Bool.or_eq_false_iff]
  constructor
  · rw [beq_eq_false_iff_ne]
    rintro rfl
    have hwhole : Text.split '.' "global" = ["global"] := by decide
    rw [hwhole] at h
    exact absurd (List.cons.inj h).1 (by decide)
  · rw [Bool.eq_false_iff]
    intro hstarts
    obtain ⟨rest, hrest⟩ := Option.isSome_iff_exists.mp hstarts
    have hpath : path = "global" ++ String.singleton '.' ++ String.ofList rest := by
      apply String.toList_injective
      simp [Text.eq_append_of_dropPrefix? hrest]
    rw [hpath, Text.split_append _ (by decide)] at h
    exact absurd (List.cons.inj h).1 (by decide)

namespace Source

open Fields Reading Tag

/-! ### What stops an element -/

/-- What stops an element: a fault of a tag is what the tag replied, and the
guard against other shared data holds where more is shared than was counted. -/
theorem cause_of_joinReply {s : Setup} {d : Draft} {tag : Tag} {reply : Reply} {position : Nat} {cause : Cause}
    (h : joinReply s d tag reply position = .error cause) :
    (∀ fault, cause = .tag fault → reply.result = .error fault) ∧
      (cause = .onlyOneUsage → d.sharedCount < d.block.shared.length) := by
  unfold joinReply at h
  split at h
  · next own hresult =>
    cases h
    exact ⟨fun fault heq => Cause.tag.inj heq ▸ hresult, by simp⟩
  · cases h
    simp
  · split at h
    · cases h
      simp
    · split at h
      · cases h
        simp
      · unfold Draft.join at h
        split at h
        · next hguard =>
          cases h
          refine ⟨by simp, fun _ => ?_⟩
          simpa using (Bool.and_eq_true_iff.mp hguard).2
        · split at h
          · cases h
            simp
          · dsimp only at h
            split at h
            · cases h
              simp
            · cases h

/-- The wording of the guard is its own: only a usage that a tag words itself
could read the same. -/
theorem Cause.eq_of_message_eq {cause : Cause} (h : cause.message = Cause.onlyOneUsage.message) :
    cause = .onlyOneUsage ∨ ∃ message tag form sample, cause = .tag (.usage message tag form sample) := by
  have hfirst := congrArg (fun text : String => text.toList.head?) h
  cases cause with
  | onlyOneUsage => exact .inl rfl
  | tag fault =>
    cases fault with
    | usage message tag form sample => exact .inr ⟨message, tag, form, sample, rfl⟩
    | _ =>
      dsimp only [message, Fault.usage?, Fault.message] at hfirst
      simp at hfirst
  -- this one starts like the wording of the guard
  | onlyOneDefinition => exact absurd h (by decide +kernel)
  | _ =>
    dsimp only [message] at hfirst
    simp at hfirst

/-! ### Definitions -/

/-- The tag of the data that a block shares. -/
def definitionTag : Tag :=
  { inserted "global.define" (.checked readDefinition) with markdownFields := ["description"] }

/-- Whether an element opens a definition where the tags of a category are
read. -/
def definesIn (category : Option String) (e : Element) : Bool :=
  e.name == "apidefine" && !leavesOut category e.name

theorem find?_apidefine (tree : FileTree) : (Registry.builtin tree).find? "apidefine" = some definitionTag := by
  have hmem : ("apiDefine", definitionTag) ∈ Registry.builtinTags tree := by
    have hendpoint : ("apiDefine", definitionTag) ∈ endpointTags := .tail _ (.head _)
    simp only [Registry.builtinTags, List.mem_append, hendpoint, true_or]
  have hname : Text.lower "apiDefine" = "apidefine" := by decide +kernel
  rw [← hname]
  exact Registry.find?_builtin_of_mem hmem

/-- What a block shares while it is read: nothing, or one definition; and as
many values are counted. -/
structure Draft.Shares (d : Draft) (definitions : Nat) : Prop where
  atMostOne : definitions ≤ 1
  keys : Fields.keys d.block.shared = List.replicate definitions "define"
  count : d.sharedCount = definitions

theorem Draft.shares_empty : ({} : Draft).Shares 0 := ⟨Nat.zero_le 1, rfl, rfl⟩

namespace Draft.Shares

variable {tree : FileTree} {s : Setup} {file : String} {index n : Nat} {d after : Draft} {e : Element}
  {memory final : Memory} {tag : Tag} {value : Json}

theorem length_shared (hd : d.Shares n) : d.block.shared.length = d.sharedCount := by
  have hlength := congrArg List.length hd.keys
  rw [List.length_replicate, Fields.keys, List.length_map] at hlength
  rw [hlength, hd.count]

/-- The definition joins a block that shares nothing, and is counted. -/
theorem joinDefinition (hd : d.Shares n)
    (h : d.join definitionTag "global.define" value (index + 1) = .ok after) : after.Shares (n + 1) := by
  obtain ⟨hfree, start, block, -, hstart, hattach, rfl⟩ := exists_attach_of_join h
  have hempty : d.block.shared = [] := hfree (by decide) (by decide)
  have hn : n = 0 := by
    have hlength := hd.length_shared
    rw [hempty, hd.count] at hlength
    exact hlength.symm
  have hshared : ∃ v, block.shared = [("define", v)] := by
    have hsplit : Text.split '.' "global.define" = ["global", "define"] := by decide
    simp only [Block.attach, hsplit, Fields.attach, Prod.mk.injEq] at hattach
    obtain ⟨rfl, -⟩ := hattach
    obtain ⟨v, hv⟩ := exists_attachAt_eq_set definitionTag.method value "define" [] start.shared
    refine ⟨v, ?_⟩
    rw [hv, hstart, hempty]
    rfl
  obtain ⟨v, hv⟩ := hshared
  subst hn
  have hcount : isShared "global.define" = true := by decide
  refine ⟨Nat.le_refl 1, ?_, ?_⟩
  · simp [hv, Fields.keys]
  · simp [hcount, hd.count]

/-- **What an element shares.** An element that opens a definition adds it; all
other elements share nothing, and none changes the category. -/
theorem readElement (hs : s.registry = .builtin tree) (hd : d.Shares n)
    (h : gives (readElement s file index d e) memory = (.ok after, final)) :
    final.category = memory.category ∧ after.Shares (n + if definesIn memory.category e then 1 else 0) := by
  rcases exists_join_of_readElement h with
    ⟨⟨rfl, rfl⟩, hskip⟩ | ⟨hin, tag, value, path, hfind, hread, hpath, hjoin, rfl⟩
  · have hnone : definesIn final.category e = false := by
      rw [definesIn, Bool.and_eq_false_iff]
      rcases hskip with hout | hnone
      · exact .inr (by rw [hout, Bool.not_true])
      · refine .inl (beq_eq_false_iff_ne.mpr fun hname => ?_)
        rw [hs, hname, find?_apidefine] at hnone
        cases hnone
    rw [hnone]
    exact ⟨rfl, hd⟩
  · rw [hs] at hfind
    obtain ⟨written, hmem, -⟩ := Registry.exists_mem_builtinTags hfind
    refine ⟨?_, ?_⟩
    · rw [(isModest_of_mem_builtinTags hmem).category, noted]
      split <;> rfl
    · by_cases hname : e.name = "apidefine"
      · have hdefines : definesIn memory.category e = true := by
          rw [definesIn, hin, hname, beq_self_eq_true, Bool.not_false, Bool.and_self]
        rw [hname, find?_apidefine, Option.some.injEq] at hfind
        subst hfind
        obtain rfl : "global.define" = path := Option.some.inj hpath
        rw [hdefines]
        exact hd.joinDefinition hjoin
      · have hnone : definesIn memory.category e = false := by
          rw [definesIn, beq_eq_false_iff_ne.mpr hname, Bool.false_and]
        rw [hnone]
        have hjoins : Joins s e memory tag d after value path :=
          ⟨by rw [hs, hfind], hread, hpath, attached_of_join hjoin⟩
        obtain ⟨_, hplace, -⟩ := exists_place hs hjoins.found hname
        obtain ⟨keys, hsplit⟩ := hjoins.exists_split_local hplace
        obtain ⟨-, start, block, -, -, -, hafter⟩ := exists_attach_of_join hjoin
        refine ⟨hd.atMostOne, ?_, ?_⟩
        · rw [hjoins.shared_eq hplace]
          exact hd.keys
        · rw [hafter, isShared_of_split_local hsplit]
          exact hd.count

/-- No element is stopped by the guard against other shared data. -/
theorem message_ne (hs : s.registry = .builtin tree) (hd : d.Shares n) {fault : Source.Fault}
    (h : gives (Source.readElement s file index d e) memory = (.error fault, final)) :
    fault.cause.message ≠ Cause.onlyOneUsage.message := by
  intro hmessage
  obtain ⟨tag, hfind, hreply⟩ := exists_reply_of_readElement h
  obtain ⟨htag, hguard⟩ := cause_of_joinReply hreply
  rcases Cause.eq_of_message_eq hmessage with hcause | ⟨message, name, form, sample, hcause⟩
  · have hlt := hguard hcause
    rw [hd.length_shared] at hlt
    exact Nat.lt_irrefl _ hlt
  · rw [hs] at hfind
    obtain ⟨written, hmem, -⟩ := Registry.exists_mem_builtinTags hfind
    exact (isModest_of_mem_builtinTags hmem).fault _ _ _ _ _ _ _ (htag _ hcause)

/-- **What the elements of a block share.** After all of them there are as many
definitions as elements that open one; if the reading stops before, it is not
for the guard against other shared data. -/
theorem readElements (hs : s.registry = .builtin tree) (file : String) (index : Nat) :
    ∀ (es : List Element) (memory : Memory) {d : Draft} {n : Nat}, d.Shares n →
    match gives (es.foldlM (Source.readElement s file index) d) memory with
    | (.ok after, _) => after.Shares (n + es.countP (definesIn memory.category))
    | (.error fault, _) => fault.cause.message ≠ Cause.onlyOneUsage.message
  | [], _, _, _, hd => hd
  | e :: es, memory, d, n, hd => by
    rw [List.foldlM_cons, gives_bind]
    rcases hfirst : gives (Source.readElement s file index d e) memory with ⟨fault | first, between⟩
    · exact hd.message_ne hs hfirst
    · obtain ⟨hcategory, hshares⟩ := hd.readElement hs hfirst
      have hrest := readElements hs file index es between hshares
      rw [hcategory, Nat.add_assoc, Nat.add_comm (ite _ _ _), ← List.countP_cons] at hrest
      exact hrest

end Draft.Shares

/-- **One definition a block.** A block that is read has at most one element that
opens a definition, shares nothing but this definition, and shares nothing
without it. No block is refused by the guard against other shared data, for the
guard makes no difference wherever a reading of elements can lead: what stands
beside a definition joins as if its tag could stand there anyway. -/
theorem one_definition_per_block {tree : FileTree} {s : Setup} (hs : s.registry = .builtin tree) (file : String)
    (index : Nat) (es : List Element) (memory : Memory) :
    (∀ block final, gives (readBlock s file index es) memory = (.ok block, final) →
      es.countP (definesIn memory.category) ≤ 1 ∧ (∀ key ∈ keys block.shared, key = "define") ∧
        (block.shared = [] ↔ ∀ e ∈ es, definesIn memory.category e = false)) ∧
    (∀ fault final, gives (readBlock s file index es) memory = (.error fault, final) →
      fault.cause.message ≠ "Only one definition or usage is allowed in the same block.") ∧
    (∀ d final, gives (es.foldlM (readElement s file index) {}) memory = (.ok d, final) →
      ∀ tag path value position,
        d.join tag path value position = d.join { tag with preventGlobal := false } path value position) := by
  have hrun := Draft.Shares.readElements hs file index es memory Draft.shares_empty
  rw [Nat.zero_add] at hrun
  rcases hread : gives (es.foldlM (readElement s file index) {}) memory with ⟨fault | d, after⟩
  · rw [hread] at hrun
    have hblock : gives (readBlock s file index es) memory = (.error fault, after) := by
      rw [readBlock, gives_bind, hread]
    rw [hblock]
    refine ⟨by rintro _ _ ⟨⟩, fun _ _ h => ?_, by rintro _ _ ⟨⟩⟩
    cases h
    exact hrun
  · rw [hread] at hrun
    have hblock : gives (readBlock s file index es) memory = (.ok d.block, after) := by
      rw [readBlock, gives_bind_of_ok hread, gives_pure]
    rw [hblock]
    refine ⟨fun _ _ h => ?shares, by rintro _ _ ⟨⟩, fun _ _ h tag path value position => ?guard⟩
    case shares =>
      cases h
      refine ⟨hrun.atMostOne, fun key hkey => ?_, ?_⟩
      · rw [hrun.keys] at hkey
        exact List.eq_of_mem_replicate hkey
      · have hlength := hrun.length_shared
        rw [hrun.count] at hlength
        rw [← List.length_eq_zero_iff, hlength, List.countP_eq_zero]
        simp only [Bool.not_eq_true]
    case guard =>
      cases h
      have hequal := hrun.length_shared
      simp only [Draft.join, hequal, Nat.lt_irrefl, decide_false, Bool.and_false]
      rfl

theorem one_definition_per_block_used :
    let s := Setup.builtin ⟨[]⟩
    let define (name : String) := Element.new "apiDefine" name ("@apiDefine " ++ name)
    let use := Element.new "apiUse" "B" "@apiUse B"
    (∃ block final, gives (readBlock s "a.js" 0 [define "A", use]) {} = (.ok block, final) ∧
      keys block.own = ["use"] ∧
      [define "A", use].countP (definesIn none) ≤ 1 ∧ (∀ key ∈ keys block.shared, key = "define") ∧
      block.shared ≠ []) ∧
    ∃ fault final, gives (readBlock s "a.js" 0 [define "A", define "B"]) {} = (.error fault, final) ∧
      fault.cause.message ≠ "Only one definition or usage is allowed in the same block." := by
  intro s define use
  have hdefine : ∀ name, s.registry.find? (define name).name = some definitionTag := by
    intro name
    have hname : (define name).name = "apidefine" := by
      change Text.lower "apiDefine" = "apidefine"
      decide +kernel
    rw [hname]
    exact find?_apidefine ⟨[]⟩
  have huse : s.registry.find? use.name = some (reference "local.use") := by
    have hendpoint : ("apiUse", reference "local.use") ∈ endpointTags := .tail _ (.tail _ (.head _))
    refine Registry.find?_builtin_of_mem ?_
    simp only [Registry.builtinTags, List.mem_append, hendpoint, true_or]
  constructor
  · have hused : (gives (readBlock s "a.js" 0 [define "A", use]) {}).1.toOption.map (fun b => keys b.own) =
        some ["use"] := by
      simp only [readBlock, List.foldlM_cons, List.foldlM_nil, gives_bind, gives_readElement, hdefine, huse,
        gives_pure]
      decide +kernel
    obtain ⟨block, final, h, hown⟩ := exists_gives_of_toOption hused
    obtain ⟨hone, hkeys, hnone⟩ :=
      (one_definition_per_block (s := s) rfl "a.js" 0 [define "A", use] {}).1 block final h
    refine ⟨block, final, h, hown, hone, hkeys, fun hempty => ?_⟩
    have hdefines : definesIn none (define "A") = true := by decide +kernel
    rw [hnone.mp hempty (define "A") List.mem_cons_self] at hdefines
    cases hdefines
  · have hrefused : (gives (readBlock s "a.js" 0 [define "A", define "B"]) {}).1.isOk = false := by
      simp only [readBlock, List.foldlM_cons, List.foldlM_nil, gives_bind, gives_readElement, hdefine, gives_pure]
      decide +kernel
    rcases h : gives (readBlock s "a.js" 0 [define "A", define "B"]) {} with ⟨fault | block, final⟩
    · exact ⟨fault, final, rfl,
        (one_definition_per_block (s := s) rfl "a.js" 0 [define "A", define "B"] {}).2.1 fault final h⟩
    · rw [h] at hrefused
      cases hrefused

end Source
end Docblock
