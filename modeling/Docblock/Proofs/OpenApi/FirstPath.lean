/-
# The endpoint of the first path

Paths become the endpoint of the first operation of their first entry. What is
added to it for parameters, body, responses and group leaves its type, its url
and its names as they are (`exists_convertPaths`).

A document without `paths` is taken for the paths themselves if any of its keys
starts with a slash, but its endpoint is made from its first entry all the same.
So the first path of such a document gives the endpoint if and only if no other
key precedes it (`bare_paths_converted_iff`): of a key without a slash comes
another url (`head?_route`), or nothing at all.

Key definitions: `OpenApi.Extends`, `OpenApi.firstPath?`,
`OpenApi.IsFirstMethod`.
Key theorems: `OpenApi.exists_convertPaths`, `OpenApi.head?_route`,
`OpenApi.bare_paths_converted_iff`.
-/
import Docblock.OpenApi.Endpoint
import Docblock.Proofs.Json.Fields
import Docblock.Proofs.Pattern.Replace

namespace Docblock
namespace OpenApi

open Pattern

/-! ### The fields of an endpoint -/

/-- Entries with others added to them: no key comes twice, and each entry that was
there has its value. -/
structure Extends (base fields : Fields) : Prop where
  distinct : fields.Distinct
  get?_eq : ∀ key ∈ base.keys, fields.get? key = base.get? key

theorem Extends.set? {base fields : Fields} (h : Extends base fields) {key : String} (hkey : key ∉ base.keys)
    (v : Option Json) : Extends base (fields.set? key v) := by
  cases v with
  | none => exact h
  | some v =>
    refine ⟨h.distinct.set key v, fun other hother => ?_⟩
    have hne : other ≠ key := fun heq => hkey (heq ▸ hother)
    exact (Fields.get?_set_of_ne v hne fields).trans (h.get?_eq other hother)

/-- The endpoint of an operation with the part of the document that it is in. -/
def endpointBase (operation : Json) (method path : String) (item : Json) : Fields :=
  endpointFields operation method path ++ [("openapi", Json.obj [("paths", .obj [(path, item)])])]

theorem keys_endpointBase (operation : Json) (method path : String) (item : Json) :
    (endpointBase operation method path item).keys =
      ["type", "url", "title", "name", "description", "version", "openapi"] := rfl

/-- **The first entry of the paths gives the endpoint** of its first operation. -/
theorem exists_convertPaths {paths : Fields} {path method : String} {item operation : Json}
    (hhead : paths.head? = some (path, item)) (hfirst : firstOperation? item = some (method, operation))
    (components : Option Json) :
    ∃ fields, convertPaths components (.obj paths) = some (.obj fields) ∧
      Extends (endpointBase operation method path item) fields := by
  have hstart : Extends (endpointBase operation method path item) (endpointBase operation method path item) := by
    refine ⟨?_, fun _ _ => rfl⟩
    rw [Fields.Distinct, keys_endpointBase]
    decide
  have hadd : ∀ {fields : Fields} {key : String}, Extends (endpointBase operation method path item) fields →
      key ∈ ["parameter", "body", "success", "error", "group"] → ∀ v,
      Extends (endpointBase operation method path item) (fields.set? key v) := by
    intro fields key hfields hkey v
    refine hfields.set? ?_ v
    rw [keys_endpointBase]
    revert key
    decide
  simp only [convertPaths, Json.obj?, Option.bind_some, hhead, hfirst, Option.bind_eq_bind, Option.pure_def]
  refine ⟨_, rfl, hadd ?_ (by simp) _⟩
  split
  · exact hadd (hadd hstart (by simp) _) (by simp) _
  · exact hadd (hadd (hadd (hadd hstart (by simp) _) (by simp) _) (by simp) _) (by simp) _

section Endpoint

variable {operation item : Json} {method path : String} {fields : Fields}

theorem Extends.getStr?_type (h : Extends (endpointBase operation method path item) fields) :
    (Json.obj fields).getStr? "type" = some method := by
  have htype : Fields.get? "type" fields = some (.str method) :=
    h.get?_eq "type" (by simp [keys_endpointBase])
  simp [Json.getStr?, Json.get?, htype, Json.str?]

theorem Extends.getStr?_url (h : Extends (endpointBase operation method path item) fields) :
    (Json.obj fields).getStr? "url" = some (route path) := by
  have hurl : Fields.get? "url" fields = some (.str (route path)) :=
    h.get?_eq "url" (by simp [keys_endpointBase])
  simp [Json.getStr?, Json.get?, hurl, Json.str?]

end Endpoint

/-- Without an operation in the first entry there is no endpoint. -/
theorem convertPaths_eq_none {paths : Fields} {entry : String × Json} (hhead : paths.head? = some entry)
    (hnone : firstOperation? entry.2 = none) (components : Option Json) :
    convertPaths components (.obj paths) = none := by
  simp only [convertPaths, Json.obj?, Option.bind_some, hhead, hnone, Option.bind_eq_bind, Option.bind_none]

/-! ### The first operation -/

/-- The method has an operation, and none of those before it has one. -/
structure IsFirstMethod (item : Json) (method : String) : Prop where
  isSome : (item.getTruthy? method).isSome
  first : ∃ earlier later, httpMethods = earlier ++ method :: later ∧ ∀ m ∈ earlier, item.getTruthy? m = none

theorem firstOperation?_eq_some_iff {item operation : Json} {method : String} :
    firstOperation? item = some (method, operation) ↔
      IsFirstMethod item method ∧ item.getTruthy? method = some operation := by
  rw [firstOperation?, List.findSome?_eq_some_iff]
  constructor
  · rintro ⟨earlier, m, later, hmethods, hop, hnone⟩
    obtain ⟨op, hget, heq⟩ := Option.map_eq_some_iff.mp hop
    cases heq
    exact ⟨⟨by rw [hget]; rfl, earlier, later, hmethods, fun m hm => by simpa using hnone m hm⟩, hget⟩
  · rintro ⟨⟨-, earlier, later, hmethods, hnone⟩, hget⟩
    exact ⟨earlier, method, later, hmethods, by rw [hget]; rfl, fun m hm => by simp [hnone m hm]⟩

/-- A method with an operation is the first one, or another one is. -/
theorem exists_firstOperation? {item : Json} (h : ∃ method ∈ httpMethods, (item.getTruthy? method).isSome) :
    ∃ method operation, firstOperation? item = some (method, operation) := by
  obtain ⟨method, hmem, hsome⟩ := h
  obtain ⟨operation, hop⟩ := Option.isSome_iff_exists.mp hsome
  have hfound : (firstOperation? item).isSome := by
    rw [firstOperation?, List.findSome?_isSome_iff]
    exact ⟨method, hmem, by rw [hop]; rfl⟩
  obtain ⟨first, hfirst⟩ := Option.isSome_iff_exists.mp hfound
  exact ⟨first.1, first.2, hfirst⟩

/-! ### Routes -/

/-- A name in braces, which becomes a name behind a colon. -/
def namePlace : Pattern := all [lit "\x7b", .group 1 (chars1 (· != '}')), lit "\x7d"]

/-- **A route starts with a slash if its path does.** -/
theorem head?_route (path : String) : (route path).toList.head? = some '/' ↔ path.toList.head? = some '/' := by
  have htakes : TakesSomething namePlace := takesSomething_of_one (a := (· == '{'))
    (q := all [.group 1 (chars1 (· != '}')), lit "\x7d"]) fun _ => rfl
  refine replaceAll_induction (p := namePlace) htakes (fun m => ":" ++ m.group 1)
    (motive := fun here out => out.head? = some '/' ↔ here.rest.head? = some '/') (fun here _ => Iff.rfl)
    (fun here m front out hsearch hrest _ => ?_) path
  cases front with
  | nil =>
    -- a name is put where a brace stood
    obtain ⟨before, back, -, hmatch, -⟩ := exists_of_search hsearch
    obtain ⟨more, -, hbrace, -⟩ := exists_of_lit hmatch
    rw [(start_of_matchAt? hmatch).1, hbrace] at hrest
    simp [hrest]
  | cons c front => simp [hrest]

theorem startsWith_slash_iff (s : String) : Text.startsWith s "/" = true ↔ s.toList.head? = some '/' := by
  have hslash : "/".toList = ['/'] := by decide
  rw [Text.startsWith, hslash]
  cases s.toList with
  | nil => decide
  | cons c cs =>
    rw [Text.dropPrefix?, List.head?_cons, Option.some_inj]
    split
    · rename_i hc
      exact iff_of_true rfl (beq_iff_eq.mp hc).symm
    · rename_i hc
      exact iff_of_false (by simp) fun heq => hc (by simp [heq])

/-! ### Documents that are their own paths -/

/-- The first entry of a document whose key is a path. -/
def firstPath? (document : Fields) : Option (String × Json) :=
  document.find? fun entry => Text.startsWith entry.1 "/"

theorem of_firstPath? {document : Fields} {entry : String × Json} (h : firstPath? document = some entry) :
    entry ∈ document ∧ Text.startsWith entry.1 "/" = true := by
  rw [firstPath?] at h
  have hslash := List.find?_some h
  exact ⟨List.mem_of_find?_eq_some h, hslash⟩

/-- A document with a path is converted as the paths themselves. -/
theorem convertDocument_of_firstPath? {document : Fields} {entry : String × Json}
    (hpaths : (Json.obj document).getTruthy? "paths" = none) (hpath : firstPath? document = some entry) :
    convertDocument (.obj document) =
      convertPaths ((Json.obj document).get? "components") (.obj document) := by
  have hany : (document.any fun entry => Text.startsWith entry.1 "/") = true :=
    List.any_eq_true.mpr ⟨entry, of_firstPath? hpath⟩
  rw [convertDocument, hpaths]
  simp only [Json.obj?, Option.getD_some, hany, ↓reduceIte]

/-- **The first path of a document gives its endpoint if and only if no other key
precedes it.** The endpoint has the route of this path as its url and the first
method with an operation there as its type. -/
theorem bare_paths_converted_iff {document : Fields} {path : String} {item : Json}
    (hpaths : (Json.obj document).getTruthy? "paths" = none) (hpath : firstPath? document = some (path, item))
    (hmethod : ∃ method ∈ httpMethods, (item.getTruthy? method).isSome) :
    (∃ method endpoint, IsFirstMethod item method ∧ convertDocument (.obj document) = some endpoint ∧
        endpoint.getStr? "type" = some method ∧ endpoint.getStr? "url" = some (route path)) ↔
      document.head? = some (path, item) := by
  rw [convertDocument_of_firstPath? hpaths hpath]
  obtain ⟨hmem, hslash⟩ := of_firstPath? hpath
  constructor
  · rintro ⟨method, endpoint, -, hconvert, -, hurl⟩
    obtain ⟨entry, rest, rfl⟩ := List.exists_cons_of_ne_nil (List.ne_nil_of_mem hmem)
    -- the first entry has an operation, and the url is the route of its key
    cases hfirst : firstOperation? entry.2 with
    | none =>
      rw [convertPaths_eq_none rfl hfirst] at hconvert
      cases hconvert
    | some found =>
      obtain ⟨fields, hfields, hextends⟩ := exists_convertPaths (List.head?_cons (l := rest)) hfirst
        ((Json.obj (entry :: rest)).get? "components")
      rw [hfields] at hconvert
      cases hconvert
      rw [hextends.getStr?_url, Option.some_inj] at hurl
      rw [startsWith_slash_iff, ← head?_route, ← hurl, head?_route, ← startsWith_slash_iff] at hslash
      rw [firstPath?, List.find?_cons, hslash] at hpath
      exact hpath
  · intro hhead
    obtain ⟨method, operation, hfirst⟩ := exists_firstOperation? hmethod
    obtain ⟨fields, hfields, hextends⟩ := exists_convertPaths hhead hfirst ((Json.obj document).get? "components")
    exact ⟨method, .obj fields, (firstOperation?_eq_some_iff.mp hfirst).1, hfields, hextends.getStr?_type,
      hextends.getStr?_url⟩

/-- A path in front of the components gives its first operation. -/
theorem bare_paths_converted_iff_users :
    let item := Json.obj [("parameters", .arr []), ("get", .null), ("post", .obj [("responses", .obj [])])]
    let document : Fields := [("/users/\x7bid\x7d", item), ("components", .obj [])]
    (Json.obj document).getTruthy? "paths" = none ∧ firstPath? document = some ("/users/\x7bid\x7d", item) ∧
      (∃ method ∈ httpMethods, (item.getTruthy? method).isSome) ∧
      ∃ method endpoint, IsFirstMethod item method ∧ convertDocument (.obj document) = some endpoint ∧
        endpoint.getStr? "type" = some method ∧
        endpoint.getStr? "url" = some (route "/users/\x7bid\x7d") := by
  intro item document
  have hslash : Text.startsWith "/users/\x7bid\x7d" "/" = true := by decide
  have hpath : firstPath? document = some ("/users/\x7bid\x7d", item) := by
    rw [firstPath?, List.find?_cons, hslash]
  have hmethod : ∃ method ∈ httpMethods, (item.getTruthy? method).isSome := ⟨"post", by decide, rfl⟩
  exact ⟨rfl, hpath, hmethod, (bare_paths_converted_iff rfl hpath hmethod).mpr rfl⟩

/-- A path behind the components gives no endpoint. -/
theorem components_hide_first_path :
    let item := Json.obj [("get", .obj [("responses", .obj [])])]
    let document : Fields := [("components", .obj []), ("/a", item)]
    (Json.obj document).getTruthy? "paths" = none ∧ firstPath? document = some ("/a", item) ∧
      IsFirstMethod item "get" ∧ convertDocument (.obj document) = none :=
  ⟨rfl, rfl, ⟨rfl, [], _, rfl, by simp⟩, rfl⟩

end OpenApi
end Docblock
