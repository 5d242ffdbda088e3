/-
# Later versions find later definitions

The same name is looked up for two blocks, one of them at a later version. What
a block finds is never below a definition that is not above the block
(`atLeast_of_find`), so what the later block finds is never below what the other
one finds. Whether it finds anything is another matter: the version of the block
itself counts wherever it lies, but any other version counts only from the
default version of the package up (`Context.exists_find_iff`). A definition that
is not below the default version stays in reach of all later blocks; one that is
below it is found by the blocks at its own version, and later ones need another.

Key definitions: `Resolve.Context.defined`, `Resolve.Context.Reaches`.
Key theorems: `Resolve.Context.find_cases`, `Resolve.Context.exists_find_iff`,
`Resolve.atLeast_of_find`, `Resolve.find_monotone`.
-/
import Docblock.Proofs.Resolve.Lookup

namespace Docblock
namespace Resolve

open Definitions

variable {c : Context} {a b : Block} {name : String} {d e : Definition}

namespace Context

/-- The definitions of a name in the table. -/
def defined (c : Context) (name : String) : List Definition := (c.definitions.versions? name).getD []

/-- The definition is at exactly the version of the block, or its version is in
the range from the default version up to that of the block. -/
def Reaches (c : Context) (b : Block) (d : Definition) : Prop :=
  d.version = c.versionOf b ∨ InRange (c.versionOf b) c.defaultVersion d

/-- **What a block finds.** It is a definition at exactly its version; or there
is none, and it is one of the highest version in range; or there is no such
definition either, and the block finds nothing. -/
theorem find_cases (b : Block) (hfloor : Version.isValid c.defaultVersion)
    (hvalid : ∀ d ∈ c.defined name, Version.isValid d.version) :
    (∃ d ∈ c.defined name, d.version = c.versionOf b ∧ c.find b name = .ok (some d)) ∨
    (∃ d, IsNearest (c.versionOf b) c.defaultVersion (c.defined name) d ∧ c.find b name = .ok (some d)) ∨
    ((∀ d ∈ c.defined name, ¬ c.Reaches b d) ∧
      c.find b name = if (c.definitions.versions? name).isNone then .ok none
        else .error (.noVersion name (c.versionOf b) ((c.defined name).map Definition.version))) := by
  unfold find lookup
  unfold defined at hvalid ⊢
  cases hversions : c.definitions.versions? name with
  | none => exact .inr (.inr ⟨by simp, rfl⟩)
  | some versions =>
    rw [hversions, Option.getD_some] at hvalid
    dsimp only [Option.getD_some]
    cases hexact : versions.find? fun d => d.version == c.versionOf b with
    | some d =>
      have hversion : d.version = c.versionOf b := by simpa using List.find?_some hexact
      exact .inl ⟨d, List.mem_of_find?_eq_some hexact, hversion, rfl⟩
    | none =>
      have hother : ∀ d ∈ versions, d.version ≠ c.versionOf b := by simpa using hexact
      dsimp only
      rcases @nearest_cases (c.versionOf b) _ _ none hfloor hvalid with ⟨hnone, hrange⟩ | ⟨d, hsome, hnearest⟩
      · rw [hnone]
        exact .inr (.inr ⟨fun d hd => not_or.mpr ⟨hother d hd, hrange d hd⟩, rfl⟩)
      · rw [hsome]
        exact .inr (.inl ⟨d, hnearest, rfl⟩)

/-- What a block finds is in its reach, and not above its version. -/
theorem reaches_of_find (hfloor : Version.isValid c.defaultVersion)
    (hvalid : ∀ d ∈ c.defined name, Version.isValid d.version) (h : c.find b name = .ok (some d)) :
    d ∈ c.defined name ∧ c.Reaches b d ∧ Version.atLeast (c.versionOf b) d.version = true := by
  rcases find_cases b hfloor hvalid with ⟨x, hx, hversion, hfind⟩ | ⟨x, hnearest, hfind⟩ | ⟨-, hfind⟩
  · obtain rfl : x = d := by simpa [hfind] using h
    exact ⟨hx, .inl hversion, hversion ▸ Version.atLeast_refl _⟩
  · obtain rfl : x = d := by simpa [hfind] using h
    exact ⟨hnearest.1, .inr hnearest.2.1, hnearest.2.1.1⟩
  · rw [hfind] at h
    split at h <;> cases h

/-- A block finds a definition if one is in its reach, and only then. -/
theorem exists_find_iff (hfloor : Version.isValid c.defaultVersion)
    (hvalid : ∀ d ∈ c.defined name, Version.isValid d.version) :
    (∃ d, c.find b name = .ok (some d)) ↔ ∃ d ∈ c.defined name, c.Reaches b d := by
  constructor
  · rintro ⟨d, hfind⟩
    obtain ⟨hd, hreaches, -⟩ := reaches_of_find hfloor hvalid hfind
    exact ⟨d, hd, hreaches⟩
  · rintro ⟨d, hd, hreaches⟩
    rcases find_cases b hfloor hvalid with ⟨x, -, -, hfind⟩ | ⟨x, -, hfind⟩ | ⟨hnone, -⟩
    · exact ⟨x, hfind⟩
    · exact ⟨x, hfind⟩
    · exact absurd hreaches (hnone d hd)

end Context

/-- What a block finds is at least every definition that is not above the
block, in its reach or not. -/
theorem atLeast_of_find (hfloor : Version.isValid c.defaultVersion)
    (hvalid : ∀ d ∈ c.defined name, Version.isValid d.version) (hd : d ∈ c.defined name)
    (hle : Version.atLeast (c.versionOf b) d.version = true) (h : c.find b name = .ok (some e)) :
    Version.atLeast e.version d.version = true := by
  rcases Context.find_cases b hfloor hvalid with ⟨x, -, hversion, hfind⟩ | ⟨x, hnearest, hfind⟩ | ⟨-, hfind⟩
  · obtain rfl : x = e := by simpa [hfind] using h
    rwa [hversion]
  · obtain rfl : x = e := by simpa [hfind] using h
    obtain ⟨hmem, hrange, hmax⟩ := hnearest
    rcases Version.atLeast_total c.defaultVersion d.version with hbelow | habove
    · -- the definition is not above the default version, and what was found is not below it
      exact Version.atLeast_trans (hvalid x hmem) hfloor (hvalid d hd) hrange.2 hbelow
    · exact hmax d hd ⟨hle, habove⟩
  · rw [hfind] at h
    split at h <;> cases h

/-- **Later versions find later definitions, from the default version up.** If a
name leads to a definition for one block, then whatever it leads to for a block
at a later version is at least that definition. It does lead to one if the first
definition is not below the default version; in general, if and only if there is
a definition at exactly the later version, or one from the default version up to
it. -/
theorem find_monotone (hfloor : Version.isValid c.defaultVersion)
    (hvalid : ∀ d ∈ c.defined name, Version.isValid d.version)
    (ha : Version.isValid (c.versionOf a)) (hb : Version.isValid (c.versionOf b))
    (hab : Version.atLeast (c.versionOf b) (c.versionOf a) = true) (h : c.find a name = .ok (some d)) :
    (∀ e, c.find b name = .ok (some e) → Version.atLeast e.version d.version = true) ∧
    (Version.atLeast d.version c.defaultVersion = true → ∃ e, c.find b name = .ok (some e)) ∧
    ((∃ e, c.find b name = .ok (some e)) ↔
      ∃ e ∈ c.defined name, e.version = c.versionOf b ∨ InRange (c.versionOf b) c.defaultVersion e) ∧
    ((∀ e, c.find b name ≠ .ok (some e)) →
      c.find b name = .error (.noVersion name (c.versionOf b) ((c.defined name).map Definition.version))) := by
  obtain ⟨hd, -, had⟩ := Context.reaches_of_find hfloor hvalid h
  have hbd : Version.atLeast (c.versionOf b) d.version = true :=
    Version.atLeast_trans hb ha (hvalid d hd) hab had
  refine ⟨fun e => atLeast_of_find hfloor hvalid hd hbd, fun habove => ?_,
    Context.exists_find_iff hfloor hvalid, fun hnone => ?_⟩
  · exact (Context.exists_find_iff hfloor hvalid).mpr ⟨d, hd, .inr ⟨hbd, habove⟩⟩
  · have hknown : (c.definitions.versions? name).isNone = false := by
      cases hversions : c.definitions.versions? name with
      | none => simp [Context.defined, hversions] at hd
      | some versions => rfl
    rcases Context.find_cases b hfloor hvalid with ⟨x, -, -, hfind⟩ | ⟨x, -, hfind⟩ | ⟨-, hfind⟩
    · exact absurd hfind (hnone x)
    · exact absurd hfind (hnone x)
    · rw [hfind, hknown]
      rfl

/-- A block at a version that shares nothing. -/
def blockAt (version : String) : Block := { root := [("version", .str version)] }

/-- A package with a default version, and a table in which `Auth` is defined at
some versions. -/
def authContext (defaultVersion : String) (versions : List String) : Context where
  definitions := ⟨[("Auth", versions.map fun version => ⟨version, .null, []⟩)]⟩
  defaultVersion := defaultVersion
  sampleUrl := none

theorem find_monotone_auth :
    let c := authContext "1.0.0" ["2.0.0", "1.5.0", "0.9.0", "1.2.0"]
    ∃ d e, c.find (blockAt "1.3.0") "Auth" = .ok (some d) ∧ c.find (blockAt "1.9.0") "Auth" = .ok (some e) ∧
      d.version = "1.2.0" ∧ Version.atLeast e.version d.version = true := by
  intro c
  have hfirst : (c.find (blockAt "1.3.0") "Auth").toOption.map (Option.map Definition.version) =
      some (some "1.2.0") := by decide
  rcases hfind : c.find (blockAt "1.3.0") "Auth" with fault | _ | d
  · rw [hfind] at hfirst
    cases hfirst
  · rw [hfind] at hfirst
    cases hfirst
  · rw [hfind] at hfirst
    have hversion : d.version = "1.2.0" := by simpa [Except.toOption] using hfirst
    obtain ⟨hle, hsome, -⟩ := find_monotone (a := blockAt "1.3.0") (b := blockAt "1.9.0") (by decide) (by decide)
      (by decide) (by decide) (by decide) hfind
    obtain ⟨e, he⟩ := hsome (by rw [hversion]; decide)
    exact ⟨d, e, rfl, he, hversion, hle e he⟩

/-- `Auth` is defined at `1.0.0` alone, below the default version: a block at
this version finds it, and a later one finds nothing. -/
theorem find_not_monotone :
    let c := authContext "2.0.0" ["1.0.0"]
    Version.isValid c.defaultVersion ∧ (∀ d ∈ c.defined "Auth", Version.isValid d.version) ∧
      Version.isValid (c.versionOf (blockAt "1.0.0")) ∧ Version.isValid (c.versionOf (blockAt "1.5.0")) ∧
      Version.atLeast (c.versionOf (blockAt "1.5.0")) (c.versionOf (blockAt "1.0.0")) = true ∧
      (∃ d, c.find (blockAt "1.0.0") "Auth" = .ok (some d)) ∧
      c.find (blockAt "1.5.0") "Auth" = .error (.noVersion "Auth" "1.5.0" ["1.0.0"]) :=
  ⟨by decide, by decide, by decide, by decide, by decide, ⟨_, rfl⟩, rfl⟩

end Resolve
end Docblock
