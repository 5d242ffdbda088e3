/-
# A fault is reported once

Work leaves many entries in the log, but no part of it leaves an error: tags
and hooks remark, readings warn at most (`noErrors_readElement`), stages say
which of them runs (`noErrors_runStages`). A fault stops all work and is handed
up, and only the end of a run turns it into a record. So a run that fails has
exactly one error in its log, the last entry, and any other run has none
(`failed_iff_one_error`).

What a reading leaves in the log is what its parts leave, one after the other
(`Reading.NoErrors.bind`); loops follow from what one round leaves.

A run in which the program breaks off reports nothing. This happens in two
places only: a sample request has no place for its address, or more than twenty
endpoints have versions that do not compare (`broken_recordsOf`).

Key definitions: `Log.errors`, `Log.NoErrors`, `Source.Reading.NoErrors`.
Key theorems: `Source.noErrors_readElement`, `Source.noErrors_readText`,
`Resolve.noErrors_process`, `Documentation.broken_recordsOf`,
`Documentation.noErrors_run`, `Documentation.failed_iff_one_error`.
-/
import Docblock.Documentation
import Docblock.Proofs.Record.Order

namespace Docblock

/-! ### Logs -/

namespace Log

/-- The errors of a log. -/
def errors (log : List Entry) : List Record := (records log).filter fun r => r.level == .error

/-- No entry of the log is an error. -/
def NoErrors (log : List Entry) : Prop := ∀ entry ∈ log, entry.level ≠ .error

theorem noErrors_nil : NoErrors [] := by simp [NoErrors]

theorem noErrors_cons {entry : Entry} {log : List Entry} :
    NoErrors (entry :: log) ↔ entry.level ≠ .error ∧ NoErrors log := by simp [NoErrors]

theorem NoErrors.append {log more : List Entry} (h : NoErrors log) (hmore : NoErrors more) :
    NoErrors (log ++ more) := fun entry hmem =>
  (List.mem_append.mp hmem).elim (h entry) (hmore entry)

theorem noErrors_map_remark (remarks : List String) : NoErrors (remarks.map Entry.remark) := by
  intro entry hmem
  obtain ⟨message, -, rfl⟩ := List.mem_map.mp hmem
  simp [Entry.level]

theorem NoErrors.errors_eq_nil {log : List Entry} (h : NoErrors log) : errors log = [] := by
  rw [errors, List.filter_eq_nil_iff]
  intro r hr
  obtain ⟨entry, hentry, hrecord⟩ := List.mem_filterMap.mp hr
  cases entry with
  | remark message => cases hrecord
  | record r' =>
    cases hrecord
    simpa [Entry.level] using h _ hentry

theorem errors_append (log more : List Entry) : errors (log ++ more) = errors log ++ errors more := by
  simp [errors, records]

end Log

namespace Source

open Log

/-! ### Readings -/

namespace Reading

variable {ε ε' α β : Type}

/-- A reading leaves no error in the log, whatever the memory. -/
def NoErrors (r : Reading ε α) : Prop := ∀ memory, Log.NoErrors (r memory).log

theorem noErrors_pure (a : α) : NoErrors (pure a : Reading ε α) := fun _ => Log.noErrors_nil

theorem noErrors_memory : NoErrors (Reading.memory : Reading ε Tag.Memory) := fun _ => Log.noErrors_nil

theorem noErrors_remember (f : Tag.Memory → Tag.Memory) : NoErrors (remember f : Reading ε Unit) :=
  fun _ => Log.noErrors_nil

theorem noErrors_fail (fault : ε) : NoErrors (fail fault : Reading ε α) := fun _ => Log.noErrors_nil

theorem noErrors_ofExcept (result : Except ε α) : NoErrors (ofExcept result) := fun _ => Log.noErrors_nil

theorem noErrors_note {entry : Entry} (h : entry.level ≠ .error) : NoErrors (note entry : Reading ε Unit) :=
  fun _ => Log.noErrors_cons.mpr ⟨h, Log.noErrors_nil⟩

theorem noErrors_say {level : Level} (h : level ≠ .error) (message : String) :
    NoErrors (say level message : Reading ε Unit) := noErrors_note h

theorem NoErrors.mapFault {r : Reading ε α} (h : NoErrors r) (f : ε → ε') : NoErrors (r.mapFault f) :=
  fun memory => h memory

/-- One reading after the other leaves what the two leave. -/
theorem NoErrors.bind {r : Reading ε α} {f : α → Reading ε β} (hr : NoErrors r) (hf : ∀ a, NoErrors (f a)) :
    NoErrors (r >>= f) := by
  intro memory
  have hlog := hr memory
  change Log.NoErrors (andThen r f memory).log
  unfold andThen
  generalize r memory = outcome at hlog ⊢
  obtain ⟨fault | a, after, log⟩ := outcome
  · exact hlog
  · exact hlog.append (hf a after)

/-- Something may be said before a reading. -/
theorem NoErrors.if_say {r : Reading ε α} (h : NoErrors r) (c : Bool) {level : Level} (hlevel : level ≠ .error)
    (message : String) : NoErrors (if c then (do say level message; r) else r) := by
  cases c with
  | false => exact h
  | true => exact (noErrors_say hlevel message).bind fun _ => h

theorem noErrors_forM {f : α → Reading ε PUnit} : ∀ {xs : List α}, (∀ x ∈ xs, NoErrors (f x)) →
    NoErrors (xs.forM f)
  | [], _ => noErrors_pure _
  | _ :: _, h => (h _ List.mem_cons_self).bind fun _ => noErrors_forM fun x hx => h x (List.mem_cons_of_mem _ hx)

theorem noErrors_foldlM {f : β → α → Reading ε β} (h : ∀ b a, NoErrors (f b a)) :
    ∀ (xs : List α) (b : β), NoErrors (xs.foldlM f b)
  | [], b => noErrors_pure b
  | x :: xs, b => by
    rw [List.foldlM_cons]
    exact (h b x).bind fun b => noErrors_foldlM h xs b

end Reading

open Reading

/-! ### Reading a text -/

theorem noErrors_noteDeprecated (tag : Tag) (e : Element) (index : Nat) (file : String) :
    Reading.NoErrors (noteDeprecated tag e index file) := by
  unfold noteDeprecated
  split
  · refine noErrors_memory.bind fun memory => (noErrors_remember _).bind fun _ => ?_
    refine (noErrors_say ?_ _).bind fun _ => noErrors_say (by decide) _
    split <;> decide
  · exact noErrors_pure _

theorem noErrors_readValue (tag : Tag) (e : Element) : Reading.NoErrors (readValue tag e) := fun _ =>
  noErrors_map_remark _

/-- An element is skipped with a word in the log, or read with remarks and
warnings. -/
theorem noErrors_readElement (s : Setup) (file : String) (index : Nat) (d : Draft) (e : Element) :
    Reading.NoErrors (readElement s file index d e) := by
  unfold readElement
  refine noErrors_memory.bind fun memory => ?_
  dsimp only
  split
  · exact (noErrors_say (by decide) _).bind fun _ => noErrors_pure d
  cases s.registry.find? e.name with
  | none => exact (noErrors_say (by decide) _).bind fun _ => noErrors_pure d
  | some tag =>
    refine NoErrors.if_say ?_ _ (by decide) _
    refine (noErrors_say (by decide) _).bind fun _ => (noErrors_noteDeprecated tag e index file).bind fun _ =>
      (noErrors_readValue tag e).bind fun result => ?_
    cases result with
    | error cause => exact noErrors_fail _
    | ok value =>
      refine noErrors_memory.bind fun after => ?_
      cases (tag.path after).filter fun path => !path.isEmpty with
      | none => exact noErrors_fail _
      | some path =>
        dsimp only
        cases d.join tag path (renderFields s tag value) (index + 1) with
        | error cause => exact noErrors_fail _
        | ok after => exact noErrors_pure after

theorem noErrors_readBlock (s : Setup) (file : String) (index : Nat) (es : List Element) :
    Reading.NoErrors (readBlock s file index es) :=
  (noErrors_foldlM (noErrors_readElement s file index) es {}).bind fun _ => noErrors_pure _

theorem noErrors_readBlocks (s : Setup) (file : String) : ∀ blocks : List (Nat × List Element),
    Reading.NoErrors (readBlocks s file blocks)
  | [] => noErrors_pure _
  | (index, es) :: rest =>
    (noErrors_readBlock s file index es).bind fun _ => (noErrors_readBlocks s file rest).bind fun _ => noErrors_pure _

theorem noErrors_cutBlocks (s : Setup) (file : String) : ∀ (index : Nat) (comments : List String),
    Reading.NoErrors (cutBlocks s file index comments)
  | _, [] => noErrors_pure _
  | index, comment :: comments => by
    unfold cutBlocks
    refine (noErrors_forM fun r _ => noErrors_note (by simp [Entry.level])).bind fun _ => ?_
    exact (noErrors_say (by decide) _).bind fun _ =>
      (noErrors_cutBlocks s file (index + 1) comments).bind fun _ => noErrors_pure _

theorem noErrors_verdict (s : Setup) (index : Nat) (es : List Element) : Log.NoErrors (verdict s index es).2 := by
  unfold verdict
  split
  · exact Log.noErrors_cons.mpr ⟨by simp [Log.say, Entry.level], Log.noErrors_nil⟩
  · split
    · exact Log.noErrors_cons.mpr ⟨by simp [Log.say, Entry.level], Log.noErrors_nil⟩
    · exact Log.noErrors_nil

theorem noErrors_selectBlocks (s : Setup) (blocks : List (List Element)) :
    Log.NoErrors (selectBlocks s blocks).2 := by
  intro entry hmem
  obtain ⟨judged, hjudged, hentry⟩ := List.mem_flatMap.mp hmem
  obtain ⟨i, hi, rfl⟩ := List.mem_mapIdx.mp hjudged
  exact noErrors_verdict s i _ entry hentry

/-- Reading a text leaves no error, also if it stops at a fault. -/
theorem noErrors_readText (s : Setup) (file text : String) : Reading.NoErrors (readText s file text) := by
  unfold readText
  refine (noErrors_say (by decide) _).bind fun _ => (noErrors_remember _).bind fun _ => ?_
  dsimp only
  split
  · exact noErrors_pure _
  refine (noErrors_say (by decide) _).bind fun _ => (noErrors_cutBlocks s file 0 _).bind fun blocks => ?_
  have hlog := noErrors_selectBlocks s blocks
  rcases hselect : selectBlocks s blocks with ⟨chosen, log⟩
  rw [hselect] at hlog
  refine (noErrors_forM fun entry hentry => noErrors_note (hlog entry hentry)).bind fun _ => ?_
  split
  · exact noErrors_pure _
  refine (noErrors_readBlocks s file chosen).bind fun read => ?_
  split
  · exact noErrors_pure _
  exact (noErrors_forM fun remark _ => noErrors_say (by decide) remark).bind fun _ => noErrors_pure _

/-! ### Reading folders -/

theorem noErrors_readFile (s : Setup) (tree : FileTree) (encoding : Encoding) (file : String) :
    Reading.NoErrors (readFile s tree encoding file) := by
  unfold readFile
  refine (noErrors_say (by decide) _).bind fun _ => noErrors_memory.bind fun memory => ?_
  split
  · exact (noErrors_say (by decide) _).bind fun _ => noErrors_pure _
  · split
    · exact noErrors_fail _
    · exact (noErrors_readText s file _).mapFault _

theorem noErrors_readFiles (s : Setup) (tree : FileTree) (encoding : Encoding) (root : String) :
    ∀ files : List String, Reading.NoErrors (readFiles s tree encoding root files)
  | [] => noErrors_pure _
  | file :: files => by
    have ih := noErrors_readFiles s tree encoding root files
    unfold readFiles
    refine (noErrors_readFile s tree encoding _).bind fun blocks? => ?_
    cases blocks? with
    | none => exact ih
    | some blocks => exact (noErrors_say (by decide) _).bind fun _ => ih.bind fun _ => noErrors_pure _

theorem noErrors_readFolder (s : Setup) (tree : FileTree) (filter : FileFilter) (encoding : Encoding)
    (input : Input) : Reading.NoErrors (readFolder s tree filter encoding input) := by
  have hrest : Reading.NoErrors (do
      let files ← Reading.ofExcept ((filter.search tree input.path).mapError .files)
      readFiles s tree encoding input.path files) :=
    (noErrors_ofExcept _).bind fun files => noErrors_readFiles s tree encoding input.path files
  unfold readFolder
  refine (noErrors_remember _).bind fun _ => ?_
  split
  · exact (noErrors_say (by decide) _).bind fun _ => hrest
  · exact hrest

end Source

/-! ### Resolving -/

namespace Resolve

open Log

theorem noErrors_runStages (p : Package) (filenames : List String) : ∀ (todo : List Stage) (files : List BlockFile),
    NoErrors (runStages p filenames todo files).log
  | [], _ => noErrors_nil
  | s :: todo, files => by
    unfold runStages
    have hentry : (Log.say .verbose ("worker postProcess: " ++ s.name)).level ≠ .error := by
      simp [Log.say, Entry.level]
    split
    · exact noErrors_cons.mpr ⟨hentry, noErrors_nil⟩
    · exact noErrors_cons.mpr ⟨hentry, noErrors_runStages p filenames todo _⟩

theorem noErrors_process (p : Package) (files : List BlockFile) (filenames : List String) :
    NoErrors (process p files filenames).log := by
  unfold process
  exact NoErrors.append (by simp [NoErrors, Log.say, Entry.level]) (noErrors_runStages p filenames stages _)

end Resolve

/-! ### A run -/

namespace Documentation

open Log Source

theorem noErrors_readInputs (s : Setup) (o : Options) (tree : FileTree) (filter : FileFilter) :
    ∀ inputs : List Input, Reading.NoErrors (readInputs s o tree filter inputs)
  | [] => Reading.noErrors_pure _
  | input :: inputs => by
    have hfolder (chooser : FileFilter) : Reading.NoErrors (do
        let files ← (Source.readFolder s tree chooser o.encoding input).mapFault Fault.ofFolder
        return files ++ (← readInputs s o tree filter inputs)) :=
      ((noErrors_readFolder s tree chooser o.encoding input).mapFault _).bind fun _ =>
        (noErrors_readInputs s o tree filter inputs).bind fun _ => Reading.noErrors_pure _
    unfold readInputs
    split
    · exact (Reading.noErrors_say (by decide) _).bind fun _ => (Reading.noErrors_ofExcept _).bind hfolder
    · exact hfolder filter

theorem noErrors_publishable {log : List Entry} (o : Options) (sorted : List Fields) (hlog : NoErrors log) :
    NoErrors (publishable o sorted log).2 := by
  have hverbose (message : String) : NoErrors [Log.say .verbose message] := by simp [NoErrors, Log.say, Entry.level]
  have hmode (kept : List Fields) : NoErrors (if o.mqttOnly then [Log.say .verbose
      ("MQTT-only mode: filtered to " ++ toString kept.length ++ " MQTT endpoints")] else []) := by
    split
    · exact hverbose _
    · exact noErrors_nil
  unfold publishable
  dsimp only
  split
  · split
    · exact hlog.append (hmode _)
    · exact (hlog.append (hmode _)).append (hverbose _)
  · exact hlog.append (hmode _)

theorem noErrors_recordsOf (o : Options) (p : Package) (files : List (String × BlockFile)) :
    NoErrors (recordsOf o p files).2 := by
  have hprocess : NoErrors (Log.say .verbose "run worker" ::
      (Resolve.process p (files.map Prod.snd) (files.map Prod.fst)).log) :=
    noErrors_cons.mpr ⟨by simp [Log.say, Entry.level], Resolve.noErrors_process _ _ _⟩
  have hdedup : NoErrors (Log.say .verbose "run filter" :: Record.dedupLog) := by
    simp [NoErrors, Record.dedupLog, Record.fieldParts, Log.say, Entry.level]
  unfold recordsOf
  split
  · exact noErrors_nil
  dsimp only
  split
  · exact hprocess
  split
  · exact hprocess.append hdedup
  · exact noErrors_publishable o _ (hprocess.append hdedup)

/-- Where the records of blocks are not made because the program breaks off. -/
theorem broken_recordsOf {o : Options} {p : Package} {files : List (String × BlockFile)} {message : String}
    (h : (recordsOf o p files).1 = .error (.broken message)) :
    let resolved := Resolve.process p (files.map Prod.snd) (files.map Prod.fst)
    (∃ fault, resolved.fault = some fault ∧ fault.breaksOff = true ∧ message = fault.message) ∨
      resolved.fault = none ∧ message = noOrder ∧ Sorting.insertionLength < (Record.ofFiles resolved.files).length ∧
        ¬ Record.Comparable (Record.ofFiles resolved.files) := by
  intro resolved
  unfold recordsOf at h
  split at h
  · cases h
  dsimp only at h
  split at h
  · rename_i fault hfault
    rw [Except.error.injEq, Stop.ofResolve] at h
    split at h
    · rename_i hbreaks
      exact .inl ⟨fault, hfault, hbreaks, (Stop.broken.inj h).symm⟩
    · cases h
  rename_i hfault
  split at h
  · rename_i hsort
    refine .inr ⟨hfault, (Stop.broken.inj (Except.error.inj h)).symm, ?_, fun hordered => ?_⟩
    · by_contra hshort
      obtain ⟨sorted, hsorted⟩ := Record.exists_of_short (Nat.not_lt.mp hshort)
      cases hsort.symm.trans hsorted
    · obtain ⟨sorted, hsorted, -⟩ := Record.sort_of_comparable hordered
      cases hsort.symm.trans hsorted
  · -- what is wrong with a schema is reported
    unfold publishable at h
    dsimp only at h
    split at h
    · split at h <;> cases h
    · cases h

/-- A run leaves no error of its own: it hands its fault up. -/
theorem noErrors_run (o : Options) (p : Package) (render : Markdown.Renderer) (tree : FileTree) (time : String) :
    NoErrors (run o p render tree time).2 := by
  unfold run
  split
  · exact noErrors_nil
  rename_i filter _
  have hread := noErrors_readInputs (setupFor o render tree) o tree filter o.inputs {}
  have hlog : NoErrors (Log.say .verbose "run parser" ::
      (readInputs (setupFor o render tree) o tree filter o.inputs {}).log) :=
    noErrors_cons.mpr ⟨by simp [Log.say, Entry.level], hread⟩
  dsimp only
  split
  · exact hlog
  rename_i files _
  have hrecords := noErrors_recordsOf o p files
  rcases hresult : recordsOf o p files with ⟨fault | records, more⟩ <;> rw [hresult] at hrecords
  · exact hlog.append hrecords
  · dsimp only
    split
    · exact hlog.append hrecords
    · refine (hlog.append hrecords).append ?_
      split
      · exact noErrors_cons.mpr ⟨by simp [Log.say, Entry.level], noErrors_nil⟩
      · exact noErrors_nil

theorem level_record (fault : Fault) : fault.record.level = .error := by cases fault <;> rfl

/-- A run that ends in its time has nothing to say, or gives the texts of
some records. -/
theorem outcome_of_run {o : Options} {p : Package} {render : Markdown.Renderer} {tree : FileTree} {time : String}
    {outcome : Outcome} {log : List Log.Entry} (h : run o p render tree time = (.ok outcome, log)) :
    outcome = .nothing ∨ ∃ records, outcome = textsOf o p time records := by
  unfold run at h
  split at h
  · cases h
  dsimp only at h
  split at h
  · cases h
  split at h
  · cases h
  split at h
  · cases h
    exact .inl rfl
  · cases h
    exact .inr ⟨_, rfl⟩

/-- **A fault is reported once.** A run has failed if and only if its log has
exactly one error; the error is then the last entry, and it says what stopped
the run. A run that ends with data or with nothing leaves no error, and neither
does one in which the program breaks off. -/
theorem failed_iff_one_error (o : Options) (p : Package) (render : Markdown.Renderer) (tree : FileTree)
    (time : String) :
    let (outcome, log) := make o p render tree time
    (outcome = .failed ↔ (Log.errors log).length = 1) ∧
    (outcome = .failed → ∃ fault before, log = before ++ [.record fault.record] ∧
      Log.errors log = [fault.record] ∧ run o p render tree time = (.error (.fault fault), before)) ∧
    (outcome ≠ .failed → Log.errors log = []) := by
  have hrun := noErrors_run o p render tree time
  unfold make
  rcases h : run o p render tree time with ⟨(fault | message) | outcome, log⟩ <;> rw [h] at hrun
  · have herrors : Log.errors (log ++ [.record fault.record]) = [fault.record] := by
      rw [errors_append, hrun.errors_eq_nil]
      simp [Log.errors, Log.records, level_record]
    exact ⟨by simp [herrors], fun _ => ⟨fault, log, rfl, herrors, rfl⟩, fun hne => absurd rfl hne⟩
  · have herrors := hrun.errors_eq_nil
    exact ⟨by simp [herrors], nofun, fun _ => herrors⟩
  · have hne : outcome ≠ .failed := by
      rcases outcome_of_run h with rfl | ⟨records, rfl⟩ <;> nofun
    have herrors := hrun.errors_eq_nil
    exact ⟨by simp [hne, herrors], fun heq => absurd heq hne, fun _ => herrors⟩

end Documentation
end Docblock
