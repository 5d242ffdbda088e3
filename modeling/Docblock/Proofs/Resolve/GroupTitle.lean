/-
# The title of the group of an endpoint

The group of an endpoint is a name like any other: if it is defined, its title
and description are those of the definition that the name means for the
endpoint (`Context.Means`), and if it is not, the name is its own title. But a
name that is defined may mean nothing for an endpoint, since each of its
definitions is of another version and above that of the endpoint or below the
default version (`Context.OutOfReach`). Then the look-up fails
(`Context.find_of_outOfReach`), and in no other case
(`Context.exists_find_of_not_outOfReach`). So an endpoint with such a group
stops the run (`passes_group_iff`), although the group may be no more than the
name of its file, which then has the name of a definition by accident; every
other one has its title (`group_title`).

Key definitions: `Resolve.Context.OutOfReach`, `Resolve.Context.Means`.
Key theorems: `Resolve.Context.find_of_outOfReach`,
`Resolve.Context.exists_find_of_not_outOfReach`, `Resolve.group_title`,
`Resolve.passes_group_iff`.
-/
import Docblock.Proofs.Resolve.Monotone
import Docblock.Proofs.Resolve.NormalForm
import Docblock.Proofs.Resolve.Regroup

namespace Docblock
namespace Resolve

open Definitions Fields

/-! ### The nearest version, whatever the versions are -/

theorem nearest_of_not_inRange {version : String} {best : Option Definition} :
    ∀ {ds : List Definition} {floor : String}, (∀ d ∈ ds, ¬ InRange version floor d) →
      nearest version floor best ds = best
  | [], _, _ => rfl
  | e :: ds, floor, h => by
    rw [List.forall_mem_cons] at h
    have hskip : (Version.atLeast version e.version && Version.atLeast e.version floor) = false := by
      simpa [InRange] using h.1
    rw [nearest, hskip]
    exact nearest_of_not_inRange h.2

/-- If a definition is in range, the scan ends with one that is not above the
version asked for. -/
theorem exists_nearest {version : String} {d : Definition} :
    ∀ {ds : List Definition} {floor : String} (best : Option Definition), d ∈ ds → InRange version floor d →
      ∃ found ∈ ds, nearest version floor best ds = some found ∧ Version.atLeast version found.version = true
  | e :: ds, floor, best, hd, hrange => by
    rw [nearest]
    split_ifs with h
    · have hbelow : Version.atLeast version e.version = true := (Bool.and_eq_true_iff.mp h).1
      -- what comes behind is in the range that this one leaves, or it is the last
      by_cases hlater : ∃ x ∈ ds, InRange version e.version x
      · obtain ⟨x, hx, hxrange⟩ := hlater
        obtain ⟨found, hmem, hfound, hle⟩ := exists_nearest (some e) hx hxrange
        exact ⟨found, List.mem_cons_of_mem _ hmem, hfound, hle⟩
      · refine ⟨e, List.mem_cons_self, nearest_of_not_inRange fun x hx hxrange => ?_, hbelow⟩
        exact hlater ⟨x, hx, hxrange⟩
    · have hne : d ≠ e := by
        rintro rfl
        exact h (Bool.and_eq_true_iff.mpr hrange)
      obtain ⟨found, hmem, hfound, hle⟩ := exists_nearest best ((List.mem_cons.mp hd).resolve_left hne) hrange
      exact ⟨found, List.mem_cons_of_mem _ hmem, hfound, hle⟩

/-! ### What a name means -/

namespace Context

variable {c : Context} {b : Block} {name : String}

/-- The name is defined, and no definition is in the reach of the block. -/
def OutOfReach (c : Context) (b : Block) (name : String) : Prop :=
  c.definitions.versions? name ≠ none ∧ ∀ d ∈ c.defined name, ¬ c.Reaches b d

/-- What a name means for a block: a definition that is not above its version,
and of these the nearest if all versions are valid. -/
structure Means (c : Context) (b : Block) (name : String) (d : Definition) : Prop where
  mem : d ∈ c.defined name
  notAbove : Version.atLeast (c.versionOf b) d.version = true
  nearest : Version.isValid c.defaultVersion → (∀ e ∈ c.defined name, Version.isValid e.version) →
    ∀ e ∈ c.defined name, Version.atLeast (c.versionOf b) e.version = true →
      Version.atLeast d.version e.version = true

/-- **A name out of reach cannot be looked up.** -/
theorem find_of_outOfReach (h : c.OutOfReach b name) :
    c.find b name = .error (.noVersion name (c.versionOf b) ((c.defined name).map Definition.version)) := by
  obtain ⟨hknown, hout⟩ := h
  unfold find lookup
  unfold defined at hout ⊢
  cases hversions : c.definitions.versions? name with
  | none => exact absurd hversions hknown
  | some versions =>
    rw [hversions, Option.getD_some] at hout
    have hexact : versions.find? (fun d => d.version == c.versionOf b) = none :=
      List.find?_eq_none.mpr fun d hd heq => hout d hd (.inl (eq_of_beq heq))
    have hnearest : nearest (c.versionOf b) c.defaultVersion none versions = none :=
      nearest_of_not_inRange fun d hd hrange => hout d hd (.inr hrange)
    dsimp only [Option.getD_some]
    rw [hexact, hnearest]

/-- **Any other name can be looked up.** It has a meaning if it is defined. -/
theorem exists_find_of_not_outOfReach (h : ¬ c.OutOfReach b name) :
    ∃ d?, c.find b name = .ok d? ∧ (d? = none ↔ c.definitions.versions? name = none) ∧
      ∀ d, d? = some d → c.Means b name d := by
  cases hversions : c.definitions.versions? name with
  | none => exact ⟨none, by rw [find, lookup, hversions], by simp, by simp⟩
  | some versions =>
    have hdefined : c.defined name = versions := by rw [defined, hversions, Option.getD_some]
    have hfound : ∃ d ∈ versions, c.find b name = .ok (some d) ∧
        Version.atLeast (c.versionOf b) d.version = true := by
      cases hexact : versions.find? fun d => d.version == c.versionOf b with
      | some d =>
        have hversion : d.version = c.versionOf b := by simpa using List.find?_some hexact
        refine ⟨d, List.mem_of_find?_eq_some hexact, ?_, hversion ▸ Version.atLeast_refl _⟩
        simp only [find, lookup, hversions, hexact]
      | none =>
        obtain ⟨d, hd, hreaches⟩ : ∃ d ∈ versions, c.Reaches b d := by
          by_contra hnone
          refine h ⟨by simp [hversions], fun d hd hreaches => hnone ⟨d, hdefined ▸ hd, hreaches⟩⟩
        have hrange : InRange (c.versionOf b) c.defaultVersion d := by
          refine hreaches.resolve_left fun heq => ?_
          exact List.find?_eq_none.mp hexact d hd (beq_iff_eq.mpr heq)
        obtain ⟨found, hmem, hnearest, hle⟩ := exists_nearest none hd hrange
        refine ⟨found, hmem, ?_, hle⟩
        simp only [find, lookup, hversions, hexact, hnearest]
    obtain ⟨d, hd, hfind, hle⟩ := hfound
    refine ⟨some d, hfind, by simp, ?_⟩
    rintro _ ⟨⟩
    exact ⟨hdefined ▸ hd, hle, fun hfloor hvalid e he hbelow => atLeast_of_find hfloor hvalid he hbelow hfind⟩

end Context

/-! ### The title of a group -/

variable {c : Context} {filename : String} {b : Block}

theorem group_fault_eq_none_iff (c : Context) (filename : String) (b : Block) :
    (group c filename b).2 = none ↔ (b.isEndpoint = true → ¬ c.OutOfReach b (groupName filename b.own)) := by
  constructor
  · intro hnone hb hout
    rw [group_of_find_error hb (Context.find_of_outOfReach hout)] at hnone
    cases hnone
  · intro h
    by_cases hb : b.isEndpoint = true
    · obtain ⟨d?, hfind, -⟩ := Context.exists_find_of_not_outOfReach (h hb)
      exact (group_of_find hb hfind).1
    · simp [group, hb]

/-- **The stage that sets groups stops a run for one reason only:** an endpoint
whose group is defined, but out of its reach. -/
theorem passes_group_iff {p : Package} {named : List (BlockFile × String)} {s : Stage} (hs : s.action = .group) :
    s.Passes p named ↔ ∀ x ∈ named, ∀ b ∈ x.1, b.isEndpoint = true →
      ¬ (contextOf p (named.map Prod.fst)).OutOfReach b (groupName x.2 b.own) := by
  unfold Stage.Passes
  refine forall₂_congr fun x _ => forall₂_congr fun b _ => ?_
  rw [Stage.apply, hs, Option.map_eq_none_iff]
  exact group_fault_eq_none_iff _ x.2 b

/-- **The title of the group of an endpoint.** If the name of the group is
defined, but out of the reach of the endpoint, it stops the run. Otherwise it
does not; the endpoint has the group, and the title is what the name is shown
as: the title of the definition that it means, or the name itself if it is not
defined or the definition has no title. -/
theorem group_title (hb : b.isEndpoint = true) :
    let name := groupName filename b.own
    (c.OutOfReach b name → group c filename b =
      (b, some (.noVersion name (c.versionOf b) ((c.defined name).map Definition.version)))) ∧
    (¬ c.OutOfReach b name → (group c filename b).2 = none ∧
      (group c filename b).1.own.get? "group" = some (.str name) ∧
      ∃ d? title, (group c filename b).1.own.get? "groupTitle" = some (.str title) ∧ Shown name d? title ∧
        (d? = none ↔ c.definitions.versions? name = none) ∧ ∀ d, d? = some d → c.Means b name d) := by
  intro name
  refine ⟨fun hout => group_of_find_error hb (Context.find_of_outOfReach hout), fun hin => ?_⟩
  obtain ⟨d?, hfind, hunknown, hmeans⟩ := Context.exists_find_of_not_outOfReach hin
  obtain ⟨hok, hgroup, htitle⟩ := group_of_find hb hfind
  refine ⟨hok, hgroup, d?, _, htitle, ?_, hunknown, hmeans⟩
  cases d? with
  | none => exact .undefined
  | some d => exact shown_title name d

/-- An endpoint of a group, at a version. -/
def endpointIn (group version : String) : Block where
  own := [("type", .str "get"), ("url", .str "/a"), ("group", .str group)]
  root := [("version", .str version)]

theorem group_title_account :
    (endpointIn "Login" "1.5.0").isEndpoint = true ∧
      (group accountContext "a.js" (endpointIn "Login" "1.5.0")).2 = none ∧
      ∃ d title, (group accountContext "a.js" (endpointIn "Login" "1.5.0")).1.own.get? "groupTitle" =
          some (.str title) ∧
        accountContext.Means (endpointIn "Login" "1.5.0") "Login" d ∧ Shown "Login" (some d) title ∧
        title = "Account" := by
  have hin : ¬ accountContext.OutOfReach (endpointIn "Login" "1.5.0") "Login" := fun hout =>
    hout.2 _ List.mem_cons_self (.inr ⟨by decide, by decide⟩)
  have hknown : accountContext.definitions.versions? "Login" ≠ none := nofun
  obtain ⟨hok, -, d?, title, htitle, hshown, hunknown, hmeans⟩ :=
    (@group_title accountContext "a.js" (endpointIn "Login" "1.5.0") rfl).2 hin
  have haccount : (group accountContext "a.js" (endpointIn "Login" "1.5.0")).1.own.get? "groupTitle" =
      some (.str "Account") := rfl
  cases d? with
  | none => exact absurd (hunknown.mp rfl) hknown
  | some d =>
    refine ⟨rfl, hok, d, title, htitle, hmeans d rfl, hshown, ?_⟩
    rw [htitle] at haccount
    exact Json.str.inj (Option.some.inj haccount)

/-- An endpoint without a group, at an early version. -/
def earlyEndpoint : Block where
  own := [("type", .str "get"), ("url", .str "/a"), ("name", .str "A")]
  root := [("version", .str "0.9.0")]

/-- This endpoint, and a definition at a later version. -/
def accidentFiles : List BlockFile := [[
  { shared := [("define", .obj [("name", .str "auth"), ("title", .str "Auth data")])]
    root := [("version", .str "1.0.0")] },
  earlyEndpoint]]

/-- The file of the endpoint has the name of the definition, so this is its
group: it has no title, and the run stops. -/
theorem group_stops_run_by_accident :
    let c := contextOf {} accidentFiles
    earlyEndpoint.isEndpoint = true ∧ groupName "auth.js" earlyEndpoint.own = "auth" ∧
      (c.defined "auth").map Definition.version = ["1.0.0"] ∧
      (group c "auth.js" earlyEndpoint).2 = some (.noVersion "auth" "0.9.0" ["1.0.0"]) ∧
      (group c "auth.js" earlyEndpoint).1.own.get? "groupTitle" = none ∧
      (process {} accidentFiles ["auth.js"]).fault.map Fault.cause = some (.noVersion "auth" "0.9.0" ["1.0.0"]) :=
  ⟨rfl, rfl, rfl, rfl, rfl, rfl⟩

end Resolve
end Docblock
