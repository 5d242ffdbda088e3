/-
# Actions see definitions through look-ups only

Two contexts agree on a block if they lead it to the same definitions, and
fail for the same names; the causes of the failures may differ. An action
then succeeds in both or in none, with the same result (`Agree.apply`).

Key definitions: `Resolve.finished`, `Resolve.Agree`.
Key theorems: `Resolve.Agree.mergeLevels`, `Resolve.Agree.apply`.
-/
import Docblock.Resolve.Stage

namespace Docblock
namespace Resolve

/-- What came of a part that nothing stopped. -/
def finished : α × Option β → Option α
  | (a, none) => some a
  | (_, some _) => none

/-- The contexts lead the block to the same definitions. -/
structure Agree (c c' : Context) (b : Block) : Prop where
  sampleUrl : c.sampleUrl = c'.sampleUrl
  find : ∀ name, (c.find b name).toOption = (c'.find b name).toOption

/-! ### Parts that can fail -/

theorem snd_eq_none_iff (r : α × Option β) : r.2 = none ↔ (finished r).isSome := by
  rcases r with ⟨a, _ | b⟩ <;> simp [finished]

theorem finished_eq_some {r : α × Option β} (h : r.2 = none) : finished r = some r.1 := by
  rcases r with ⟨a, _ | b⟩
  · rfl
  · cases h

theorem toOption_bind (x : Except ε α) (f : α → Except ε β) :
    (x >>= f).toOption = x.toOption.bind fun a => (f a).toOption := by
  cases x <;> rfl

theorem toOption_mapM {f g : α → Except ε β} (h : ∀ a, (f a).toOption = (g a).toOption) :
    ∀ as : List α, (as.mapM f).toOption = (as.mapM g).toOption
  | [] => rfl
  | a :: as => by
    simp only [List.mapM_cons, toOption_bind, h a, toOption_mapM h as]

theorem toOption_foldlM {f g : β → α → Except ε β} (h : ∀ b a, (f b a).toOption = (g b a).toOption) :
    ∀ (as : List α) (b : β), (as.foldlM f b).toOption = (as.foldlM g b).toOption
  | [], _ => rfl
  | a :: as, b => by
    simp only [List.foldlM_cons, toOption_bind, h b a]
    cases (g b a).toOption with
    | none => rfl
    | some b => exact toOption_foldlM h as b

theorem finished_withOwn (b : Block) (own : Except Cause Fields) :
    finished (withOwn b own) = own.toOption.map fun own => { b with own } := by
  cases own <;> rfl

variable {c c' : Context} {b : Block}

/-! ### Fields, permissions and groups -/

theorem Agree.titleOf (h : Agree c c' b) (group : String) :
    (Resolve.titleOf c b group).toOption = (Resolve.titleOf c' b group).toOption := by
  unfold Resolve.titleOf
  rw [toOption_bind, toOption_bind, h.find]

theorem Agree.titledField (h : Agree c c' b) (field : Json) :
    (Resolve.titledField c b field).toOption = (Resolve.titledField c' b field).toOption := by
  unfold Resolve.titledField
  rw [toOption_bind, toOption_bind, h.find]

theorem Agree.regroup (h : Agree c c' b) (fields : List Json) :
    (Resolve.regroup c b fields).toOption = (Resolve.regroup c' b fields).toOption := by
  refine toOption_foldlM (fun groups field => ?_) fields []
  rw [toOption_bind, toOption_bind, h.titleOf]

theorem Agree.permission (h : Agree c c' b) (p : Json) :
    (Resolve.permission c b p).toOption = (Resolve.permission c' b p).toOption := by
  unfold Resolve.permission
  rw [toOption_bind, toOption_bind, h.find]

theorem Agree.titles (h : Agree c c' b) (target : String) :
    finished (Resolve.titles c target b) = finished (Resolve.titles c' target b) := by
  unfold Resolve.titles
  split
  · rw [finished_withOwn, finished_withOwn, toOption_bind, toOption_bind, toOption_mapM h.titledField]
  · split
    · rfl
    · rw [finished_withOwn, finished_withOwn, toOption_bind, toOption_bind, h.regroup]
  · rfl

theorem Agree.permissions (h : Agree c c' b) :
    finished (Resolve.permissions c b) = finished (Resolve.permissions c' b) := by
  unfold Resolve.permissions
  split
  · rw [finished_withOwn, finished_withOwn, toOption_bind, toOption_bind, toOption_mapM h.permission]
  · rfl

theorem Agree.group (h : Agree c c' b) (filename : String) :
    finished (Resolve.group c filename b) = finished (Resolve.group c' filename b) := by
  unfold Resolve.group
  split
  · rfl
  · dsimp only
    rw [finished_withOwn, finished_withOwn, toOption_bind, toOption_bind, h.find]

/-! ### References -/

theorem Agree.mergeLevel (h : Agree c c' b) : ∀ (names : List String) (own : Fields),
    finished (Resolve.mergeLevel c b own names) = finished (Resolve.mergeLevel c' b own names)
  | [], _ => rfl
  | name :: names, own => by
    have hname := h.find name
    rw [Resolve.mergeLevel, Resolve.mergeLevel]
    cases hc : c.find b name with
    | error cause =>
      cases hc' : c'.find b name with
      | error cause' => rfl
      | ok d => simp [hc, hc', Except.toOption] at hname
    | ok d =>
      cases hc' : c'.find b name with
      | error cause' => simp [hc, hc', Except.toOption] at hname
      | ok d' =>
        simp only [hc, hc', Except.toOption, Option.some.injEq] at hname
        subst hname
        cases d with
        | none => rfl
        | some d => exact h.mergeLevel names _

theorem finished_mergeLevels_succ (c : Context) (b : Block) {target : String} {own : Fields} {v : Json}
    (hv : own.get? target = some v) (n : Nat) : finished (mergeLevels c b target (n + 1) own) =
      (finished (mergeLevel c b (own.swapErase target) (referenceNames v))).bind
        fun own => finished (mergeLevels c b target n own) := by
  rw [mergeLevels, hv]
  dsimp only
  rcases mergeLevel c b (own.swapErase target) (referenceNames v) with ⟨after, _ | cause⟩ <;> rfl

theorem Agree.mergeLevels (h : Agree c c' b) (target : String) : ∀ (n : Nat) (own : Fields),
    finished (Resolve.mergeLevels c b target n own) = finished (Resolve.mergeLevels c' b target n own)
  | n, own => by
    cases hv : own.get? target with
    | none => rw [Resolve.mergeLevels, Resolve.mergeLevels, hv]
    | some v =>
      cases n with
      | zero => rw [Resolve.mergeLevels, Resolve.mergeLevels, hv]
      | succ n =>
        rw [finished_mergeLevels_succ c b hv, finished_mergeLevels_succ c' b hv, h.mergeLevel]
        exact congrArg _ (funext fun own => h.mergeLevels target n own)

theorem finished_mergeReferences (c : Context) (target : String) (b : Block) :
    finished (mergeReferences c target b) =
      (finished (mergeLevels c b target maxLevels b.own)).map fun own => { b with own } := by
  unfold mergeReferences
  rcases mergeLevels c b target maxLevels b.own with ⟨own, _ | cause⟩ <;> rfl

/-! ### All actions -/

/-- An action does the same in contexts that agree, unless both stop it. -/
theorem Agree.apply (h : Agree c c' b) (a : Action) (filename : String) :
    finished (a.apply c filename b) = finished (a.apply c' filename b) := by
  cases a with
  | titles target => exact h.titles target
  | permissions => exact h.permissions
  | sampleRequests => simp only [Action.apply, sampleRequests, h.sampleUrl]
  | merge target =>
    simp only [Action.apply, finished_mergeReferences, h.mergeLevels target maxLevels b.own]
  | name => rfl
  | group => exact h.group filename

end Resolve
end Docblock
