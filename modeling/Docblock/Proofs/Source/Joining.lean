/-
# What an element does to its block

An element is skipped, stops the reading, or joins the block: its tag reads a
value, the Markdown in it is rendered, and it is attached at the path that the
tag gives after reading (`gives_readElement`, `readElement_cases`). Of an element
that joins it is known what was attached where and what was counted
(`exists_attach_of_join`), and of one that stops the reading that its tag replied
(`exists_reply_of_readElement`). What every element of a block keeps holds of the
block that is read (`readBlock_keeps`), and each block of a text is read from the
elements of one of its comments (`exists_comment_of_readText`).

Key definitions: `Source.noted`, `Source.joinReply`, `Source.Joins`.
Key theorems: `Source.gives_readElement`, `Source.exists_join_of_readElement`,
`Source.readElement_cases`, `Source.readBlock_keeps`, `Source.exists_comment_of_readText`.
-/
import Docblock.Proofs.Source.Reading

namespace Docblock
namespace Source

open Reading

/-! ### One element -/

/-- The memory after the use of a tag has been noted. -/
def noted (tag : Tag) (e : Element) (memory : Tag.Memory) : Tag.Memory :=
  if tag.deprecated then (countDeprecated e.sourceName memory).1 else memory

/-- The block after a tag has replied, or why it cannot go on. -/
def joinReply (s : Setup) (d : Draft) (tag : Tag) (reply : Tag.Reply) (position : Nat) : Except Cause Draft :=
  match reply.result with
  | .error fault => .error (.tag fault)
  | .ok none => .error .emptyResult
  | .ok (some value) =>
    if value.isFalsy then .error .emptyResult
    else match (tag.path reply.memory).filter fun path => !path.isEmpty with
      | none => .error .noPath
      | some path => d.join tag path (renderFields s tag value) position

theorem gives_memory (memory : Tag.Memory) :
    gives (Reading.memory : Reading Fault Tag.Memory) memory = (.ok memory, memory) := rfl

theorem gives_noteDeprecated (tag : Tag) (e : Element) (index : Nat) (file : String) (memory : Tag.Memory) :
    gives (noteDeprecated tag e index file) memory = (.ok (), noted tag e memory) := by
  unfold noteDeprecated noted
  by_cases h : tag.deprecated = true
  · rw [if_pos h, if_pos h, gives_bind_of_ok (gives_memory memory)]
    rfl
  · rw [if_neg h, if_neg h, gives_pure]

theorem gives_readValue (tag : Tag) (e : Element) (memory : Tag.Memory) :
    gives (readValue tag e) memory =
      (.ok (match (tag.read e.content e.source memory).result with
        | .ok (some value) => if value.isFalsy then .error .emptyResult else .ok value
        | .ok none => .error .emptyResult
        | .error fault => .error (.tag fault)), (tag.read e.content e.source memory).memory) := rfl

/-- Whether something is said before a reading does not matter to it. -/
theorem gives_if_say {α : Type} (c : Bool) (level : Log.Level) (message : String) (r : Reading Fault α)
    (memory : Tag.Memory) :
    gives (if c then (do say level message; r) else r) memory = gives r memory := by
  cases c <;> rfl

/-- **Reading an element.** It is skipped, or its tag replies and the reply
joins the block. -/
theorem gives_readElement (s : Setup) (file : String) (index : Nat) (d : Draft) (e : Element)
    (memory : Tag.Memory) :
    gives (readElement s file index d e) memory =
      if leavesOut memory.category e.name then (.ok d, memory)
      else match s.registry.find? e.name with
        | none => (.ok d, memory)
        | some tag =>
          let reply := tag.read e.content e.source (noted tag e memory)
          ((joinReply s d tag reply (index + 1)).mapError fun cause =>
            ⟨cause, file, index + 1, e.sourceName, e.source⟩, reply.memory) := by
  unfold readElement
  rw [gives_bind_of_ok (gives_memory memory)]
  by_cases hout : leavesOut memory.category e.name = true
  · rw [if_pos hout, if_pos hout]
    rfl
  · rw [if_neg hout, if_neg hout]
    cases s.registry.find? e.name with
    | none => rfl
    | some tag =>
      dsimp only
      rw [gives_if_say, gives_bind_of_ok (gives_say _ _ memory),
        gives_bind_of_ok (gives_noteDeprecated tag e index file memory),
        gives_bind_of_ok (gives_readValue tag e _)]
      generalize tag.read e.content e.source (noted tag e memory) = reply
      obtain ⟨result, after, remarks⟩ := reply
      unfold joinReply
      cases result with
      | error fault => rfl
      | ok value =>
        cases value with
        | none => rfl
        | some value =>
          by_cases hfalsy : value.isFalsy = true
          · simp only [hfalsy, ↓reduceIte]
            rfl
          · simp only [hfalsy, Bool.false_eq_true, ↓reduceIte]
            rw [gives_bind_of_ok (gives_memory after)]
            cases (tag.path after).filter fun path => !path.isEmpty with
            | none => rfl
            | some path =>
              dsimp only
              cases d.join tag path (renderFields s tag value) (index + 1) <;> rfl

/-- An element joins a block: what its tag reads, and where it is attached. -/
structure Joins (s : Setup) (e : Element) (memory : Tag.Memory) (tag : Tag) (d after : Draft) (value : Json)
    (path : String) : Prop where
  found : s.registry.find? e.name = some tag
  read : (tag.read e.content e.source (noted tag e memory)).result = .ok (some value)
  leads : tag.path (tag.read e.content e.source (noted tag e memory)).memory = some path
  attached : ∃ start block : Block, start.own = d.block.own ∧ start.shared = d.block.shared ∧
    start.attach path tag.method (renderFields s tag value) = (block, true) ∧
    after.block.own = block.own ∧ after.block.shared = block.shared

theorem own_extendRoot (b : Block) (value : Json) :
    (b.extendRoot value).own = b.own ∧ (b.extendRoot value).shared = b.shared := by
  cases value <;> exact ⟨rfl, rfl⟩

/-- A value that joins a block is attached, and is counted if it is shared; only
a tag that may repeat shares it beside others. -/
theorem exists_attach_of_join {d after : Draft} {tag : Tag} {path : String} {value : Json} {position : Nat}
    (h : d.join tag path value position = .ok after) :
    (isShared path = true → tag.allowMultiple = false → d.block.shared = []) ∧
    ∃ start block : Block, start.own = d.block.own ∧ start.shared = d.block.shared ∧
      start.attach path tag.method value = (block, true) ∧
      after = ⟨{ block with index := position }, if isShared path then d.sharedCount + 1 else d.sharedCount⟩ := by
  unfold Draft.join at h
  split at h
  · cases h
  · split at h
    · cases h
    · next hfree =>
      dsimp only at h
      generalize hstart : (if tag.extendRoot then d.block.extendRoot value else d.block) = start at h
      have hroot : start.own = d.block.own ∧ start.shared = d.block.shared := by
        rw [← hstart]
        split
        · exact own_extendRoot d.block value
        · exact ⟨rfl, rfl⟩
      rcases hattach : start.attach path tag.method value with ⟨block, fits⟩
      rw [hattach] at h
      cases fits with
      | false => cases h
      | true =>
        injection h with h
        subst h
        refine ⟨fun hshared hmultiple => ?_, start, block, hroot.1, hroot.2, hattach, rfl⟩
        simpa [hshared, hmultiple] using hfree

theorem attached_of_join {d after : Draft} {tag : Tag} {path : String} {value : Json} {position : Nat}
    (h : d.join tag path value position = .ok after) :
    ∃ start block : Block, start.own = d.block.own ∧ start.shared = d.block.shared ∧
      start.attach path tag.method value = (block, true) ∧
      after.block.own = block.own ∧ after.block.shared = block.shared := by
  obtain ⟨-, start, block, hown, hshared, hattach, rfl⟩ := exists_attach_of_join h
  exact ⟨start, block, hown, hshared, hattach, rfl, rfl⟩

/-- An element that is read without a fault leaves everything as it is, since it
is left out or has no tag, or its tag gives a value that joins the block. -/
theorem exists_join_of_readElement {s : Setup} {file : String} {index : Nat} {d after : Draft} {e : Element}
    {memory final : Tag.Memory}
    (h : gives (readElement s file index d e) memory = (.ok after, final)) :
    ((after = d ∧ final = memory) ∧
        (leavesOut memory.category e.name = true ∨ s.registry.find? e.name = none)) ∨
      leavesOut memory.category e.name = false ∧ ∃ tag value path, s.registry.find? e.name = some tag ∧
        (tag.read e.content e.source (noted tag e memory)).result = .ok (some value) ∧
        tag.path (tag.read e.content e.source (noted tag e memory)).memory = some path ∧
        d.join tag path (renderFields s tag value) (index + 1) = .ok after ∧
        final = (tag.read e.content e.source (noted tag e memory)).memory := by
  rw [gives_readElement] at h
  by_cases hout : leavesOut memory.category e.name = true
  · rw [if_pos hout] at h
    cases h
    exact .inl ⟨⟨rfl, rfl⟩, .inl hout⟩
  · rw [if_neg hout] at h
    cases hfind : s.registry.find? e.name with
    | none =>
      rw [hfind] at h
      cases h
      exact .inl ⟨⟨rfl, rfl⟩, .inr rfl⟩
    | some tag =>
      rw [hfind] at h
      dsimp only at h
      rw [Prod.mk.injEq] at h
      obtain ⟨h, rfl⟩ := h
      cases hjoin : joinReply s d tag (tag.read e.content e.source (noted tag e memory)) (index + 1) with
      | error cause =>
        rw [hjoin] at h
        cases h
      | ok joined =>
        rw [hjoin] at h
        injection h with h
        subst h
        unfold joinReply at hjoin
        split at hjoin
        · cases hjoin
        · cases hjoin
        · next value hread =>
          split at hjoin
          · cases hjoin
          · split at hjoin
            · cases hjoin
            · next path hpath =>
              have hsome := (Option.filter_eq_some_iff.mp hpath).1
              exact .inr ⟨Bool.eq_false_iff.mpr hout, tag, value, path, rfl, hread, hsome, hjoin, rfl⟩

/-- An element stops the reading only with what its tag replied. -/
theorem exists_reply_of_readElement {s : Setup} {file : String} {index : Nat} {d : Draft} {e : Element}
    {memory final : Tag.Memory} {fault : Fault}
    (h : gives (readElement s file index d e) memory = (.error fault, final)) :
    ∃ tag, s.registry.find? e.name = some tag ∧
      joinReply s d tag (tag.read e.content e.source (noted tag e memory)) (index + 1) = .error fault.cause := by
  rw [gives_readElement] at h
  split at h
  · cases h
  · split at h
    · cases h
    · next tag hfind =>
      dsimp only at h
      rw [Prod.mk.injEq] at h
      refine ⟨tag, hfind, ?_⟩
      cases hjoin : joinReply s d tag (tag.read e.content e.source (noted tag e memory)) (index + 1) with
      | ok joined =>
        rw [hjoin] at h
        cases h.1
      | error cause =>
        rw [hjoin] at h
        cases h.1
        rfl

/-- **What an element can do.** Without a fault the block stays as it is, since
the category of the folder leaves out the tag or there is no such tag, or the
element joins it. -/
theorem readElement_cases {s : Setup} {file : String} {index : Nat} {d after : Draft} {e : Element}
    {memory final : Tag.Memory}
    (h : gives (readElement s file index d e) memory = (.ok after, final)) :
    (after = d ∧ (leavesOut memory.category e.name = true ∨ s.registry.find? e.name = none)) ∨
      ∃ tag value path, Joins s e memory tag d after value path := by
  rcases exists_join_of_readElement h with ⟨⟨hafter, -⟩, hskip⟩ | ⟨-, tag, value, path, hfind, hread, hpath, hjoin, -⟩
  · exact .inl ⟨hafter, hskip⟩
  · exact .inr ⟨tag, value, path, ⟨hfind, hread, hpath, attached_of_join hjoin⟩⟩

/-! ### Blocks -/

variable {s : Setup} {file : String}

/-- What every element keeps holds after all of them. -/
theorem readBlock_keeps {P : Draft → Prop} {index : Nat} : ∀ {es : List Element} {d after : Draft}
    {memory final : Tag.Memory},
    (∀ e ∈ es, ∀ d memory after final, P d →
      gives (readElement s file index d e) memory = (.ok after, final) → P after) →
    gives (es.foldlM (readElement s file index) d) memory = (.ok after, final) → P d → P after
  | [], d, after, memory, final, _, h, hd => by
    cases h
    exact hd
  | e :: es, d, after, memory, final, hstep, h, hd => by
    rw [List.foldlM_cons, gives_bind] at h
    rcases hfirst : gives (readElement s file index d e) memory with ⟨result, between⟩
    rw [hfirst] at h
    cases result with
    | error fault => cases h
    | ok first =>
      have hkept : P first := hstep e List.mem_cons_self d memory first between hd hfirst
      exact readBlock_keeps (fun e he => hstep e (List.mem_cons_of_mem _ he)) h hkept

/-- Each block that is read comes from the elements of one that was chosen. -/
theorem exists_of_readBlocks : ∀ {chosen : List (Nat × List Element)} {blocks : List Block}
    {memory final : Tag.Memory}, gives (readBlocks s file chosen) memory = (.ok blocks, final) →
    ∀ b ∈ blocks, ∃ index es memory final d, (index, es) ∈ chosen ∧
      gives (es.foldlM (readElement s file index) {}) memory = (.ok d, final) ∧ d.block = b
  | [], blocks, memory, final, h, b, hb => by
    cases h
    cases hb
  | (index, es) :: rest, blocks, memory, final, h, b, hb => by
    rw [readBlocks] at h
    rcases hes : gives (es.foldlM (readElement s file index) {}) memory with ⟨result, between⟩
    cases result with
    | error fault =>
      have hblock : gives (readBlock s file index es) memory = (.error fault, between) := by
        rw [readBlock, gives_bind, hes]
      rw [gives_bind, hblock] at h
      cases h
    | ok d =>
      have hblock : gives (readBlock s file index es) memory = (.ok d.block, between) := by
        rw [readBlock, gives_bind_of_ok hes, gives_pure]
      rw [gives_bind_of_ok hblock] at h
      rcases hrest : gives (readBlocks s file rest) between with ⟨result, last⟩
      cases result with
      | error fault =>
        rw [gives_bind, hrest] at h
        cases h
      | ok others =>
        rw [gives_bind_of_ok hrest, gives_pure, Prod.mk.injEq, Except.ok.injEq] at h
        obtain ⟨rfl, -⟩ := h
        have hb : b = d.block ∨ b ∈ others := by
          split at hb
          · exact .inr hb
          · exact List.mem_cons.mp hb
        rcases hb with rfl | hb
        · exact ⟨index, es, memory, between, d, List.mem_cons_self, hes, rfl⟩
        · obtain ⟨i, elements, m, f, draft, hmem, hread, hblock⟩ := exists_of_readBlocks hrest b hb
          exact ⟨i, elements, m, f, draft, List.mem_cons_of_mem _ hmem, hread, hblock⟩

theorem mem_of_mem_selectBlocks {blocks : List (List Element)} {index : Nat} {es : List Element}
    (h : (index, es) ∈ (selectBlocks s blocks).1) : es ∈ blocks := by
  simp only [selectBlocks, List.mem_filterMap, List.mem_mapIdx] at h
  obtain ⟨_, ⟨i, hi, rfl⟩, hchosen⟩ := h
  split at hchosen
  · cases hchosen
    exact List.getElem_mem hi
  · cases hchosen

/-- **Each block of a text is read from the elements of one of its comments.** -/
theorem exists_comment_of_readText {text : String} {blocks : List Block} {memory final : Tag.Memory}
    (h : gives (readText s file text) memory = (.ok (some blocks), final)) :
    ∀ b ∈ blocks, ∃ comment ∈ commentsOf s file text, ∃ index memory final d,
      gives ((elementsOf s file comment).foldlM (readElement s file index) {}) memory = (.ok d, final) ∧
        d.block = b := by
  intro b hb
  rw [gives_readText] at h
  dsimp only at h
  split at h
  · cases h
  · rcases hread : gives (readElements s file ((commentsOf s file text).map (elementsOf s file)))
      { memory with filename := file } with ⟨result, after⟩
    rw [hread] at h
    cases result with
    | error fault => cases h
    | ok read =>
      have hblocks : read = blocks := by
        rw [Prod.mk.injEq, Except.ok.injEq] at h
        have := h.1
        split at this <;> simp_all
      subst hblocks
      obtain ⟨index, es, m, f, d, hmem, hes, hd⟩ := exists_of_readBlocks hread b hb
      obtain ⟨comment, hcomment, rfl⟩ := List.mem_map.mp (mem_of_mem_selectBlocks hmem)
      exact ⟨comment, hcomment, index, m, f, d, hes, hd⟩

/-- A text with one comment of one element that counts is read by this element
alone. -/
theorem gives_readText_of_single {text : String} {e : Element} {memory : Tag.Memory}
    (hcut : (commentsOf s file text).map (elementsOf s file) = [[e]])
    (hchosen : (selectBlocks s [[e]]).1 = [(0, [e])]) :
    gives (readText s file text) memory =
      match gives (readElement s file 0 {} e) { memory with filename := file } with
      | (.ok d, after) => (.ok (if d.block.index == 0 then none else some [d.block]), after)
      | (.error fault, after) => (.error fault, after) := by
  rw [gives_readText, hcut]
  simp only [hchosen, List.isEmpty_cons, Bool.or_self, Bool.false_eq_true, ↓reduceIte, readElements, readBlocks,
    readBlock, List.foldlM_cons, List.foldlM_nil, gives_bind, gives_pure]
  rcases gives (readElement s file 0 {} e) { memory with filename := file } with ⟨result, after⟩
  cases result with
  | error fault => rfl
  | ok d =>
    simp only
    by_cases hindex : (d.block.index == 0) = true
    · simp only [hindex, ↓reduceIte, List.isEmpty_nil]
    · simp only [hindex, Bool.false_eq_true, ↓reduceIte, List.isEmpty_cons]

end Source
end Docblock
