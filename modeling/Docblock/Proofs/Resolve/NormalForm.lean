/-
# The normal form of endpoints

Before any stage, each endpoint gets a type, an address, a version and the name
of its file with slashes. The stages then write, take away and merge, with
values from whatever definitions there are, but none of them writes or takes
away a default, and a merge keeps a text that is there. So the defaults stay
(`Action.keepsTexts_apply`). The last stage makes the name of the group safe and
gives it a title (`group_settles`). What a resolution that succeeds leaves of an
endpoint is therefore in a normal form, whatever was merged into it
(`process_normal_form`).

Key definitions: `Resolve.KeepsTexts`, `Resolve.HasDefaults`,
`Resolve.NormalForm`.
Key theorems: `Resolve.Action.keepsTexts_apply`, `Resolve.group_settles`,
`Resolve.process_normal_form`.
-/
import Docblock.Proofs.Resolve.Run

namespace Docblock

/-- A character that is replaced by another one is gone. -/
theorem Text.not_mem_replaceChar {old new : Char} (hne : new ≠ old) (s : String) :
    old ∉ (replaceChar old new s).toList := by
  rw [replaceChar, String.toList_ofList, List.mem_map]
  rintro ⟨c, -, hc⟩
  split at hc
  · exact hne hc
  · next hother => exact hother (beq_iff_eq.mpr hc)

namespace Resolve

open Fields

/-! ### Defaults that stay -/

/-- The keys that each endpoint has by default. -/
def defaultKeys : List String := ["type", "url", "version", "filename"]

/-- What stands under the keys of the defaults stays there, and if it is a text,
it stays this text. -/
def KeepsTexts (own own' : Fields) : Prop :=
  Distinct own → Distinct own' ∧
    ∀ key ∈ defaultKeys, ∀ v ∈ own.get? key, ∃ w ∈ own'.get? key, w.str? = v.str?

theorem KeepsTexts.refl (own : Fields) : KeepsTexts own own := fun hd => ⟨hd, fun _ _ v hv => ⟨v, hv, rfl⟩⟩

theorem KeepsTexts.trans {own own' own'' : Fields} (h : KeepsTexts own own') (h' : KeepsTexts own' own'') :
    KeepsTexts own own'' := by
  intro hd
  obtain ⟨hd', hkept⟩ := h hd
  obtain ⟨hd'', hkept'⟩ := h' hd'
  refine ⟨hd'', fun key hkey v hv => ?_⟩
  obtain ⟨w, hw, hwv⟩ := hkept key hkey v hv
  obtain ⟨x, hx, hxw⟩ := hkept' key hkey w hw
  exact ⟨x, hx, hxw.trans hwv⟩

theorem keepsTexts_of_get? {own own' : Fields} (hd : Distinct own → Distinct own')
    (hget : Distinct own → ∀ key ∈ defaultKeys, own'.get? key = own.get? key) : KeepsTexts own own' :=
  fun h => ⟨hd h, fun key hkey v hv => ⟨v, by rwa [hget h key hkey], rfl⟩⟩

theorem keepsTexts_set {key : String} (hkey : key ∉ defaultKeys) (v : Json) (own : Fields) :
    KeepsTexts own (own.set key v) := by
  refine keepsTexts_of_get? (fun hd => hd.set key v) fun _ other hother => ?_
  rw [get?_set, if_neg]
  rintro rfl
  exact hkey hother

theorem keepsTexts_swapErase {key : String} (hkey : key ∉ defaultKeys) (own : Fields) :
    KeepsTexts own (own.swapErase key) := by
  refine keepsTexts_of_get? (fun hd => hd.swapErase key) fun hd other hother => ?_
  rw [get?_swapErase key other hd, if_neg]
  rintro rfl
  exact hkey hother

/-- A merge keeps a text, and makes none of anything else. -/
theorem str?_mergeValue (old new : Json) : (mergeValue old new).str? = old.str? := by
  cases new <;> cases old <;> simp [mergeValue, Json.str?]

/-- A merge keeps the texts that are there under any key. -/
theorem exists_get?_mergeFields {key : String} : ∀ (more : Fields) {own : Fields} {v : Json},
    own.get? key = some v → ∃ w, get? key (mergeFields own more) = some w ∧ w.str? = v.str?
  | [], own, v, hv => ⟨v, by rwa [mergeFields], rfl⟩
  | (k, new) :: rest, own, v, hv => by
    rw [mergeFields_cons]
    by_cases hk : key = k
    · subst hk
      rw [hv]
      obtain ⟨w, hw, hstr⟩ := exists_get?_mergeFields rest (get?_set_self key (mergeValue v new) own)
      exact ⟨w, hw, hstr.trans (str?_mergeValue v new)⟩
    · exact exists_get?_mergeFields rest (by rw [get?_set, if_neg hk, hv])

theorem keepsTexts_mergeFields (own more : Fields) : KeepsTexts own (mergeFields own more) :=
  fun hd => ⟨distinct_mergeFields hd, fun _ _ _ hv => exists_get?_mergeFields more hv⟩

/-- **No action loses a default,** whatever the definitions are, unless the
default is one of its own keys. -/
theorem Action.keepsTexts_apply {a : Action} (ha : ∀ key ∈ defaultKeys, key ∉ a.writes ∧ key ∉ a.removes)
    (c : Context) (filename : String) (b : Block) : KeepsTexts b.own (a.apply c filename b).1.own :=
  a.own_induction
    (fun key hkey own v h => h.trans (keepsTexts_set (fun hdefault => (ha key hdefault).1 hkey) v own))
    (fun key hkey own h => h.trans (keepsTexts_swapErase (fun hdefault => (ha key hdefault).2 hkey) own))
    (fun _ _ own _ d _ h => h.trans (keepsTexts_mergeFields own d.own)) (.refl b.own)

/-! ### Endpoints with their defaults -/

/-- The data of an endpoint with its defaults: the name of its file has slashes
only. -/
structure HasDefaults (own : Fields) : Prop where
  distinct : Distinct own
  present : ∀ key ∈ defaultKeys, key ∈ keys own
  slashes : ∀ name, own.get? "filename" = some (.str name) → '\\' ∉ name.toList

theorem HasDefaults.of_keepsTexts {own own' : Fields} (h : HasDefaults own) (hkeeps : KeepsTexts own own') :
    HasDefaults own' := by
  obtain ⟨hdistinct, hkept⟩ := hkeeps h.distinct
  have hstays : ∀ key ∈ defaultKeys, ∃ v w, own.get? key = some v ∧ own'.get? key = some w ∧ w.str? = v.str? := by
    intro key hkey
    obtain ⟨v, hv⟩ := Option.isSome_iff_exists.mp ((mem_keys_iff key own).mp (h.present key hkey))
    obtain ⟨w, hw, hstr⟩ := hkept key hkey v hv
    exact ⟨v, w, hv, hw, hstr⟩
  refine ⟨hdistinct, fun key hkey => ?_, fun name hname => ?_⟩
  · obtain ⟨_, w, -, hw, -⟩ := hstays key hkey
    exact mem_keys_of_get? hw
  · obtain ⟨v, w, hv, hw, hstr⟩ := hstays "filename" (by decide)
    obtain rfl : w = .str name := Option.some.inj (hw.symm.trans hname)
    -- the text was there before
    cases v with
    | str s =>
      obtain rfl : name = s := Option.some.inj hstr
      exact h.slashes name hv
    | _ => cases hstr

theorem distinct_fillIn {key text : String} {own : Fields} (hd : Distinct own) : Distinct (fillIn key text own) := by
  unfold fillIn
  split
  · exact hd.set _ _
  · exact hd

theorem distinct_slashFilename {own : Fields} (hd : Distinct own) : Distinct (slashFilename own) := by
  unfold slashFilename
  split
  · exact hd.set _ _
  · exact hd

/-- A file name has slashes in place of backslashes. -/
theorem not_mem_of_slashFilename {own : Fields} {name : String}
    (h : (slashFilename own).get? "filename" = some (.str name)) : '\\' ∉ name.toList := by
  unfold slashFilename at h
  split at h
  · rw [get?_set_self] at h
    cases h
    exact Text.not_mem_replaceChar (by decide) _
  · next hnone =>
    rw [h] at hnone
    cases hnone

/-- The defaults are there to begin with. -/
theorem hasDefaults_withDefaults (defaultVersion filename : String) {b : Block} (hd : Distinct b.own)
    (hb : b.isEndpoint = true) : HasDefaults (withDefaults defaultVersion filename b).own := by
  rw [withDefaults, if_pos hb]
  refine ⟨distinct_slashFilename (distinct_fillIn (distinct_fillIn (distinct_fillIn (distinct_fillIn hd)))),
    fun key hkey => mem_keys_slashFilename ?_, fun name hname => not_mem_of_slashFilename hname⟩
  simp only [defaultKeys, List.mem_cons, List.not_mem_nil, or_false] at hkey
  rcases hkey with rfl | rfl | rfl | rfl
  · exact mem_keys_fillIn (mem_keys_fillIn (mem_keys_fillIn (mem_keys_fillIn_self _ _ _)))
  · exact mem_keys_fillIn (mem_keys_fillIn (mem_keys_fillIn_self _ _ _))
  · exact mem_keys_fillIn (mem_keys_fillIn_self _ _ _)
  · exact mem_keys_fillIn_self _ _ _

/-! ### Groups -/

/-- A safe name has letters, digits and underscores only. -/
theorem isAsciiWord_of_mem_safeName {s : String} {c : Char} (h : c ∈ (safeName s).toList) :
    Text.isAsciiWord c = true := by
  rw [safeName, String.toList_ofList, List.mem_map] at h
  obtain ⟨d, -, rfl⟩ := h
  split
  · assumption
  · decide

/-- A definition has a title if its fallback is one. -/
theorem Definition.title_ne_empty (d : Definition) {fallback : String} (h : fallback ≠ "") :
    d.title fallback ≠ "" := by
  unfold title
  cases htitle : (d.define.getStr? "title").filter fun title => !title.isEmpty with
  | none => exact h
  | some title =>
    have hkept := (Option.filter_eq_some_iff.mp htitle).2
    rintro rfl
    simp at hkept

theorem get?_set?_of_ne {key other : String} (hne : other ≠ key) (v : Option Json) (own : Fields) :
    (own.set? key v).get? other = own.get? other := by
  cases v with
  | none => rfl
  | some v => exact get?_set_of_ne v hne own

/-- An endpoint whose group can be looked up gets this group and its title. -/
theorem group_of_find {c : Context} {filename : String} {b : Block} (hb : b.isEndpoint = true)
    {d? : Option Definition} (h : c.find b (groupName filename b.own) = .ok d?) :
    let name := groupName filename b.own
    (group c filename b).2 = none ∧ (group c filename b).1.own.get? "group" = some (.str name) ∧
      (group c filename b).1.own.get? "groupTitle" = some (.str ((d?.map fun d => d.title name).getD name)) := by
  intro name
  have hown : (group c filename b).1.own = ((b.own.set "group" (.str name)).set "groupTitle"
      (.str ((d?.map fun d => d.title name).getD name))).set? "groupDescription"
        (d?.bind Definition.description?) := by
    simp only [group, hb, h]
    rfl
  refine ⟨by simp only [group, hb, h]; rfl, ?_, ?_⟩
  · rw [hown, get?_set?_of_ne (by decide), get?_set_of_ne _ (by decide), get?_set_self]
  · rw [hown, get?_set?_of_ne (by decide), get?_set_self]

theorem group_of_find_error {c : Context} {filename : String} {b : Block} {cause : Cause} (hb : b.isEndpoint = true)
    (h : c.find b (groupName filename b.own) = .error cause) : group c filename b = (b, some cause) := by
  simp only [group, hb, h]
  rfl

/-- **The group of an endpoint is settled:** its name is safe, and it has a title
if it has a name. -/
theorem group_settles {c : Context} {filename : String} {b : Block} (hb : b.isEndpoint = true)
    (hok : (group c filename b).2 = none) :
    ∃ name title, (group c filename b).1.own.get? "group" = some (.str name) ∧
      (∀ ch ∈ name.toList, Text.isAsciiWord ch = true) ∧
      (group c filename b).1.own.get? "groupTitle" = some (.str title) ∧ (name ≠ "" → title ≠ "") := by
  cases hfind : c.find b (groupName filename b.own) with
  | error cause =>
    rw [group_of_find_error hb hfind] at hok
    cases hok
  | ok d =>
    obtain ⟨-, hname, htitle⟩ := group_of_find hb hfind
    refine ⟨_, _, hname, fun ch hch => isAsciiWord_of_mem_safeName hch, htitle, fun hne => ?_⟩
    cases d with
    | none => exact hne
    | some d => exact d.title_ne_empty hne

/-! ### The run -/

/-- The normal form of the data of an endpoint. -/
structure NormalForm (own : Fields) : Prop where
  type : "type" ∈ keys own
  url : "url" ∈ keys own
  version : "version" ∈ keys own
  filename : "filename" ∈ keys own
  slashes : ∀ name, own.get? "filename" = some (.str name) → '\\' ∉ name.toList
  group : ∃ name title, own.get? "group" = some (.str name) ∧
    (∀ ch ∈ name.toList, ch.isAlphanum = true ∨ ch = '_') ∧
    own.get? "groupTitle" = some (.str title) ∧ (name ≠ "" → title ≠ "")

/-- Blocks that are alike but for the data of endpoints describe endpoints alike. -/
theorem isEndpoint_of_untouched {a b : Block} (h : untouched a = untouched b) (ha : a.isEndpoint = true) :
    b.isEndpoint = true :=
  (congrArg (fun parts : Fields × Fields × Nat × Bool => parts.2.2.2) h).symm.trans ha

variable {p : Package} {s : Stage}

/-- A stage keeps the defaults of each endpoint, and makes none of other blocks. -/
theorem Stage.hasDefaults_block (hs : ∀ key ∈ defaultKeys, key ∉ s.action.writes ∧ key ∉ s.action.removes)
    (files : List BlockFile) (filename : String) {b : Block} (hb : b.isEndpoint = true → HasDefaults b.own)
    (hend : (s.block p files filename b).isEndpoint = true) :
    b.isEndpoint = true ∧ HasDefaults (s.block p files filename b).own := by
  have hsettled : Settled b := fun h => (hb h).present "type" (by decide)
  have hsame := (settled_apply (hs "type" (by decide)).2 (contextOf p files) filename hsettled).2
  have hstays : b.isEndpoint = true := isEndpoint_of_untouched hsame hend
  exact ⟨hstays, (hb hstays).of_keepsTexts (s.action.keepsTexts_apply hs (contextOf p files) filename b)⟩

/-- **A run that ends with the groups leaves endpoints in normal form,** if they
have their defaults to begin with and no stage writes these. -/
theorem normalForm_runNamed : ∀ {ss : List Stage} {named : List (BlockFile × String)},
    (∀ s ∈ ss, ∀ key ∈ defaultKeys, key ∉ s.action.writes ∧ key ∉ s.action.removes) →
    ss.getLast?.map Stage.action = some .group →
    (∀ x ∈ named, ∀ b ∈ x.1, b.isEndpoint = true → HasDefaults b.own) →
    (runNamed p ss named).fault = none →
    ∀ file ∈ (runNamed p ss named).files, ∀ b ∈ file, b.isEndpoint = true → NormalForm b.own
  | [], _, _, hlast, _, _ => by cases hlast
  | s :: ss, named, hspare, hlast, hall, hok => by
    have hpasses := passes_of_runNamed_cons hok
    obtain ⟨hfiles, hfault⟩ := runNamed_cons_of_passes hpasses ss
    have hstep : ∀ filename b, (b.isEndpoint = true → HasDefaults b.own) →
        (s.block p (named.map Prod.fst) filename b).isEndpoint = true →
        b.isEndpoint = true ∧ HasDefaults (s.block p (named.map Prod.fst) filename b).own := fun filename b =>
      s.hasDefaults_block (hspare s List.mem_cons_self) (named.map Prod.fst) filename
    rw [hfiles]
    cases ss with
    | nil =>
      intro file hfile b hb hend
      rw [runNamed, runStages, Stage.after, map_fst_mapNamed] at hfile
      obtain ⟨x, hx, rfl⟩ := List.mem_map.mp hfile
      obtain ⟨b, hbx, rfl⟩ := List.mem_map.mp hb
      obtain ⟨hbefore, hdefaults⟩ := hstep x.2 b (hall x hx b hbx) hend
      have hgroup : s.action = .group := Option.some.inj hlast
      have hcause : (group (contextOf p (named.map Prod.fst)) x.2 b).2 = none := by
        have hpass := hpasses x hx b hbx
        rwa [Stage.apply, hgroup, Option.map_eq_none_iff] at hpass
      obtain ⟨name, title, hname, hsafe, htitle, hne⟩ := group_settles hbefore hcause
      have hown : (s.block p (named.map Prod.fst) x.2 b).own =
          (group (contextOf p (named.map Prod.fst)) x.2 b).1.own := by
        rw [Stage.block, Stage.apply, hgroup]
        rfl
      have hpresent := hdefaults.present
      refine ⟨hpresent _ (by decide), hpresent _ (by decide), hpresent _ (by decide), hpresent _ (by decide),
        hdefaults.slashes, name, title, ?_, fun ch hch => ?_, ?_, hne⟩
      · rw [hown, hname]
      · simpa [Text.isAsciiWord] using hsafe ch hch
      · rw [hown, htitle]
    | cons t ss =>
      rw [hfault] at hok
      refine normalForm_runNamed (fun s hs => hspare s (List.mem_cons_of_mem _ hs)) ?_ ?_ hok
      · rw [← hlast, List.getLast?_cons_cons]
      · intro y hy b hb hend
        obtain ⟨x, hx, rfl⟩ := List.mem_map.mp hy
        obtain ⟨b, hbx, rfl⟩ := List.mem_map.mp hb
        exact (hstep x.2 b (hall x hx b hbx) hend).2

/-- **Resolved endpoints are in normal form.** If each file has a name and the
resolution succeeds, each block that describes an endpoint has a type, an
address, a version and a file, without backslashes in the name of the file; and
it has a group of letters, digits and underscores, with a title unless the name
of the group is empty. Nothing is asked of the values that are there before, in
endpoints or in definitions. -/
theorem process_normal_form (p : Package) (files : List BlockFile) (filenames : List String)
    (hlen : files.length = filenames.length) (hdistinct : ∀ file ∈ files, ∀ b ∈ file, Distinct b.own)
    (hok : (process p files filenames).fault = none) :
    ∀ file ∈ (process p files filenames).files, ∀ b ∈ file, b.isEndpoint = true → NormalForm b.own := by
  obtain ⟨hfiles, hfault⟩ := process_zip p hlen
  rw [hfiles]
  rw [hfault] at hok
  have hspare : ∀ s ∈ stages, ∀ key ∈ defaultKeys, key ∉ s.action.writes ∧ key ∉ s.action.removes := by decide
  refine normalForm_runNamed hspare (by decide) ?_ hok
  intro y hy b hb hend
  obtain ⟨x, hx, rfl⟩ := List.mem_map.mp hy
  obtain ⟨b, hbx, rfl⟩ := List.mem_map.mp hb
  have hbefore : b.isEndpoint = true := isEndpoint_of_untouched (settled_withDefaults _ _ b).2 hend
  exact hasDefaults_withDefaults p.defaultVersion x.2 (hdistinct x.1 (List.of_mem_zip hx).1 b hbx) hbefore

/-- An endpoint that takes over a file with backslashes and an empty title. -/
def untidyFiles : List BlockFile := [
  [{ own := [("url", .str "/user/:id"), ("group", .str "My users"), ("use", .arr [.obj [("name", .str "Common")]])],
      index := 1 },
    mixedDefinition "Common" [("filename", .str "old\\place.js"), ("groupTitle", .str "")]]]

theorem process_normal_form_untidy :
    untidyFiles.length = ["src\\a.js"].length ∧ (∀ file ∈ untidyFiles, ∀ b ∈ file, Distinct b.own) ∧
      (process {} untidyFiles ["src\\a.js"]).fault = none ∧
      (process {} untidyFiles ["src\\a.js"]).files.map (List.map Block.isEndpoint) = [[true, false]] ∧
      ∀ file ∈ (process {} untidyFiles ["src\\a.js"]).files, ∀ b ∈ file, b.isEndpoint = true →
        NormalForm b.own := by
  have hdistinct : ∀ file ∈ untidyFiles, ∀ b ∈ file, Distinct b.own := by
    simp [untidyFiles, mixedDefinition, Distinct, keys]
  have hok : (process {} untidyFiles ["src\\a.js"]).fault = none := by rfl
  exact ⟨rfl, hdistinct, hok, by rfl, process_normal_form {} untidyFiles ["src\\a.js"] rfl hdistinct hok⟩

end Resolve
end Docblock
