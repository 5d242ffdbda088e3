/-
# What an action can do to a block

An action changes nothing of a block but its own data
(`Action.apply_eq`), and there it can do little to the keys: the keys that
come up are of the action itself (`Action.adds`) or of a definition
(`Action.mem_keys_of_apply`), those that go are its own
(`Action.removes`, `Action.mem_keys_apply`), and a block without data of its
own stays without (`Action.apply_of_own_nil`). References that were followed
to their end are gone (`mergeReferences_get?_target`). What an action makes of
the data it makes in three kinds of steps: it writes a value under one of its
keys, takes such a key away, or merges a definition (`Action.own_induction`).

Key definitions: `Resolve.Action.adds`, `Resolve.Action.removes`,
`Resolve.Action.writes`.
Key theorems: `Resolve.Action.apply_eq`, `Resolve.Action.mem_keys_of_apply`,
`Resolve.Action.own_induction`,
`Resolve.Action.mem_keys_apply`, `Resolve.Action.apply_of_own_nil`,
`Resolve.mergeReferences_get?_target`.
-/
import Docblock.Proofs.Resolve.Merge
import Docblock.Proofs.Resolve.Table
import Docblock.Resolve.Stage

namespace Docblock
namespace Resolve

open Fields

namespace Action

/-- The keys that an action may add to the data of a block. -/
def adds : Action → List String
  | .sampleRequests => ["sampleRequest"]
  | .name => ["name"]
  | .group => ["group", "groupTitle", "groupDescription"]
  | _ => []

/-- The keys that an action may take away. -/
def removes : Action → List String
  | .sampleRequests => ["sampleRequest"]
  | .merge target => [target]
  | _ => []

/-- The keys under which an action may write, be they there or not. -/
def writes : Action → List String
  | .titles target => [target]
  | .permissions => ["permission"]
  | a => a.adds

end Action

variable {c : Context} {b : Block} {key : String}

/-! ### Results of a part that can fail -/

theorem withOwn_eq (b : Block) (own : Except Cause Fields) :
    (withOwn b own).1 = { b with own := (withOwn b own).1.own } := by
  cases own <;> rfl

/-- The data afterwards are those before, or those that the part gives. -/
theorem withOwn_own (b : Block) (own : Except Cause Fields) :
    (withOwn b own).1.own = b.own ∨ own = .ok (withOwn b own).1.own := by
  cases own with
  | error cause => exact .inl rfl
  | ok new => exact .inr rfl

/-- A part that fails changes nothing. -/
theorem withOwn_of_fault {own : Except Cause Fields} (h : (withOwn b own).2 ≠ none) : (withOwn b own).1 = b := by
  cases own with
  | error cause => rfl
  | ok new => exact absurd rfl h

theorem bind_eq_ok {x : Except Cause α} {f : α → Except Cause β} {y : β} (h : (x >>= f) = .ok y) :
    ∃ a, x = .ok a ∧ f a = .ok y := by
  cases x with
  | error cause => cases h
  | ok a => exact ⟨a, rfl, h⟩

/-! ### Writing a key that is there -/

/-- A part that can fail, and gives a new value for a key that is there. -/
theorem rewritten_withOwn {b : Block} {target : String} {old : Json} (h : b.own.get? target = some old)
    (part : Except Cause α) (value : α → Json) :
    Rewritten target b.own (withOwn b (part >>= fun a => .ok (b.own.set target (value a)))).1.own := by
  refine (withOwn_own b _).imp_right fun hnew => ?_
  obtain ⟨a, -, hnew⟩ := bind_eq_ok hnew
  exact ⟨value a, mem_keys_of_get? h, (Except.ok.inj hnew).symm⟩

theorem rewritten_titles (c : Context) (target : String) (b : Block) :
    Rewritten target b.own (titles c target b).1.own := by
  unfold titles
  split
  · rename_i fields h
    exact rewritten_withOwn h _ _
  · rename_i part h
    split
    · exact .inl rfl
    · exact rewritten_withOwn h _ fun groups => .obj (Fields.set "fields" (.obj groups) part)
  · exact .inl rfl

theorem rewritten_permissions (c : Context) (b : Block) :
    Rewritten "permission" b.own (permissions c b).1.own := by
  unfold permissions
  split
  · rename_i ps h
    exact rewritten_withOwn h _ _
  · exact .inl rfl

/-! ### Sample requests, names and groups -/

theorem sampleRequests_own (c : Context) (b : Block) :
    (sampleRequests c b).1.own = b.own ∨ (sampleRequests c b).1.own = b.own.swapErase "sampleRequest" ∨
      ∃ v, (sampleRequests c b).1.own = b.own.set "sampleRequest" v := by
  unfold sampleRequests
  split
  · refine (withOwn_own b _).imp_right fun hnew => ?_
    obtain ⟨kept, -, hnew⟩ := bind_eq_ok hnew
    split at hnew
    · exact .inl (Except.ok.inj hnew).symm
    · exact .inr ⟨_, (Except.ok.inj hnew).symm⟩
  · dsimp only
    split_ifs
    · exact .inr (.inr ⟨_, rfl⟩)
    · exact .inl rfl

theorem defaultName_own (b : Block) :
    (defaultName b).own = b.own ∨ ∃ v, (defaultName b).own = b.own.set "name" v := by
  unfold defaultName
  split_ifs
  · exact .inl rfl
  · dsimp only
    split
    · exact .inl rfl
    · exact .inr ⟨_, rfl⟩

theorem group_own (c : Context) (filename : String) (b : Block) :
    (group c filename b).1.own = b.own ∨ ∃ name title description, (group c filename b).1.own =
      ((b.own.set "group" name).set "groupTitle" title).set? "groupDescription" description := by
  unfold group
  split_ifs
  · exact .inl rfl
  · refine (withOwn_own b _).imp_right fun hnew => ?_
    obtain ⟨d, -, hnew⟩ := bind_eq_ok hnew
    exact ⟨_, _, _, (Except.ok.inj hnew).symm⟩

/-! ### References -/

section
variable {target : String} {motive : Fields → Prop}

theorem mergeLevel_keeps
    (hmerge : ∀ own name d, c.definitions.Has name d → motive own → motive (mergeFields own d.own)) :
    ∀ (names : List String) (own : Fields), motive own → motive (mergeLevel c b own names).1
  | [], _, h => h
  | name :: names, own, h => by
    rw [mergeLevel]
    split
    · exact h
    · exact h
    · rename_i d hd
      exact mergeLevel_keeps hmerge names _ (hmerge own name d (Context.has_of_find hd) h)

/-- What taking the target away keeps, and merging a definition of the table,
following references keeps, however it ends. -/
theorem mergeLevels_keeps (herase : ∀ own, motive own → motive (own.swapErase target))
    (hmerge : ∀ own name d, c.definitions.Has name d → motive own → motive (mergeFields own d.own)) :
    ∀ (n : Nat) (own : Fields), motive own → motive (mergeLevels c b target n own).1
  | n, own, h => by
    unfold mergeLevels
    split
    · exact h
    · rename_i references _
      have hlevel : motive (mergeLevel c b (own.swapErase target) (referenceNames references)).1 :=
        mergeLevel_keeps hmerge _ _ (herase own h)
      cases n with
      | zero => exact h
      | succ n =>
        dsimp only
        split
        · rename_i after cause heq
          rwa [heq] at hlevel
        · rename_i after heq
          rw [heq] at hlevel
          exact mergeLevels_keeps herase hmerge n after hlevel

/-- Following references to their end leaves none. -/
theorem mergeLevels_get?_target : ∀ (n : Nat) (own : Fields),
    (mergeLevels c b target n own).2 = none → (mergeLevels c b target n own).1.get? target = none
  | n, own, h => by
    unfold mergeLevels at h ⊢
    split at h
    · rename_i hv
      exact hv
    · cases n with
      | zero => cases h
      | succ n =>
        dsimp only at h ⊢
        split at h
        · cases h
        · exact mergeLevels_get?_target n _ h

end

theorem mergeReferences_get?_target {target : String} (h : (mergeReferences c target b).2 = none) :
    (mergeReferences c target b).1.own.get? target = none :=
  mergeLevels_get?_target maxLevels b.own h

/-- References bring in keys of definitions only. -/
theorem mem_keys_of_mergeReferences {target : String}
    (h : key ∈ keys (mergeReferences c target b).1.own) :
    key ∈ keys b.own ∨ ∃ name d, c.definitions.Has name d ∧ key ∈ keys d.own := by
  refine mergeLevels_keeps (motive := fun own => key ∈ keys own →
    key ∈ keys b.own ∨ ∃ name d, c.definitions.Has name d ∧ key ∈ keys d.own) ?_ ?_ maxLevels b.own .inl h
  · exact fun own ih h => ih (mem_keys_of_swapErase h)
  · intro own name d hd ih h
    rcases (mem_keys_mergeFields key _ _).mp h with h | h
    · exact ih h
    · exact .inr ⟨name, d, hd, h⟩

/-! ### All actions -/

namespace Action

/-- An action changes the data of the endpoint and nothing else. -/
theorem apply_eq (a : Action) (c : Context) (filename : String) (b : Block) :
    (a.apply c filename b).1 = { b with own := (a.apply c filename b).1.own } := by
  cases a with
  | titles target =>
    simp only [apply, Resolve.titles]
    split
    · exact withOwn_eq b _
    · split
      · rfl
      · exact withOwn_eq b _
    · rfl
  | permissions =>
    simp only [apply, Resolve.permissions]
    split
    · exact withOwn_eq b _
    · rfl
  | sampleRequests =>
    simp only [apply, Resolve.sampleRequests]
    split
    · exact withOwn_eq b _
    · split <;> rfl
  | merge target => rfl
  | name =>
    simp only [apply, defaultName]
    split
    · rfl
    · split <;> rfl
  | group =>
    simp only [apply, Resolve.group]
    split
    · rfl
    · exact withOwn_eq b _

/-- A key that comes up is of the action or of a definition. -/
theorem mem_keys_of_apply {a : Action} {filename : String}
    (h : key ∈ keys (a.apply c filename b).1.own) :
    key ∈ keys b.own ∨ key ∈ a.adds ∨ ∃ name d, c.definitions.Has name d ∧ key ∈ keys d.own := by
  cases a with
  | titles target => exact .inl ((rewritten_titles c target b).mem_keys_iff.mp h)
  | permissions => exact .inl ((rewritten_permissions c b).mem_keys_iff.mp h)
  | sampleRequests =>
    rcases sampleRequests_own c b with heq | heq | ⟨v, heq⟩
    · exact .inl (heq ▸ h)
    · exact .inl (mem_keys_of_swapErase (heq ▸ h))
    · exact ((mem_keys_set _ _ _ _).mp (heq ▸ h)).symm.imp_right fun h => .inl (by simp [adds, h])
  | merge target => exact (mem_keys_of_mergeReferences h).imp_right .inr
  | name =>
    rcases defaultName_own b with heq | ⟨v, heq⟩
    · exact .inl (heq ▸ h)
    · exact ((mem_keys_set _ _ _ _).mp (heq ▸ h)).symm.imp_right fun h => .inl (by simp [adds, h])
  | group =>
    rcases group_own c filename b with heq | ⟨name, title, description, heq⟩
    · exact .inl (heq ▸ h)
    · change key ∈ keys (Resolve.group c filename b).1.own at h
      rw [heq, mem_keys_set?, mem_keys_set, mem_keys_set] at h
      simp only [adds, List.mem_cons, List.not_mem_nil, or_false]
      tauto

/-- **What an action keeps.** A property of the data holds after an action if it
holds before, and is kept when a value is written under a key of the action,
when a key that the action may take away is erased, and, should the action
follow references, when a definition of the table is merged. -/
theorem own_induction {motive : Fields → Prop} (a : Action) {filename : String}
    (hset : ∀ key ∈ a.writes, ∀ own v, motive own → motive (own.set key v))
    (herase : ∀ key ∈ a.removes, ∀ own, motive own → motive (own.swapErase key))
    (hmerge : ∀ target, a = .merge target → ∀ own name d, c.definitions.Has name d →
      motive own → motive (mergeFields own d.own))
    (h : motive b.own) : motive (a.apply c filename b).1.own := by
  have hrewritten : ∀ {key own'}, key ∈ a.writes → Rewritten key b.own own' → motive own' := by
    rintro key own' hkey (rfl | ⟨v, -, rfl⟩)
    · exact h
    · exact hset key hkey b.own v h
  cases a with
  | titles target => exact hrewritten List.mem_cons_self (rewritten_titles c target b)
  | permissions => exact hrewritten List.mem_cons_self (rewritten_permissions c b)
  | sampleRequests =>
    rcases sampleRequests_own c b with heq | heq | ⟨v, heq⟩
    · exact heq ▸ h
    · exact heq ▸ herase _ List.mem_cons_self b.own h
    · exact heq ▸ hset _ List.mem_cons_self b.own v h
  | merge target =>
    exact mergeLevels_keeps (herase target List.mem_cons_self) (hmerge target rfl) maxLevels b.own h
  | name =>
    rcases defaultName_own b with heq | ⟨v, heq⟩
    · exact heq ▸ h
    · exact heq ▸ hset _ List.mem_cons_self b.own v h
  | group =>
    rcases group_own c filename b with heq | ⟨name, title, description, heq⟩
    · exact heq ▸ h
    · have hgroup := hset "group" (by simp [writes, adds]) b.own name h
      have htitle := hset "groupTitle" (by simp [writes, adds]) _ title hgroup
      change motive (Resolve.group c filename b).1.own
      rw [heq]
      cases description with
      | none => exact htitle
      | some description => exact hset "groupDescription" (by simp [writes, adds]) _ description htitle

/-- An action takes away nothing but its own keys. -/
theorem mem_keys_apply {a : Action} {filename : String} (h : key ∈ keys b.own) (hr : key ∉ a.removes) :
    key ∈ keys (a.apply c filename b).1.own := by
  refine a.own_induction (motive := fun own => key ∈ keys own)
    (fun other _ own v hown => (mem_keys_set _ _ _ _).mpr (.inr hown))
    (fun other hother own hown => (mem_keys_swapErase ?_ own).mpr hown)
    (fun target _ own name d _ hown => (mem_keys_mergeFields key _ _).mpr (.inl hown)) h
  rintro rfl
  exact hr hother

/-- A block without data of its own stays without. -/
theorem apply_of_own_nil (a : Action) (c : Context) (filename : String) (h : b.own = []) :
    (a.apply c filename b).1 = b := by
  cases a with
  | titles target => simp [apply, Resolve.titles, h, get?]
  | permissions => simp [apply, Resolve.permissions, h, get?]
  | sampleRequests => simp [apply, Resolve.sampleRequests, h, get?]
  | merge target =>
    have hnone : b.own.get? target = none := by rw [h]; rfl
    simp only [apply, mergeReferences, mergeLevels_of_get?_none hnone]
  | name => simp [apply, defaultName, Block.isEndpoint, h]
  | group => simp [apply, Resolve.group, Block.isEndpoint, h]

end Action
end Resolve
end Docblock
