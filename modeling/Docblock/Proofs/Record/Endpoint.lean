/-
# Each endpoint has one record

The records are the data of the endpoints, in another order. Counting fields
once makes no block an endpoint and none that was one something else
(`isEndpoint_dedupBlock`), and sorting only changes the order
(`perm_of_sort?`). Together with what the resolution leaves alone, each block
that described an endpoint before it has exactly one record, and no other block
has one (`records_of_endpoints`). That is so if the sort has a result: where the
versions of more than twenty endpoints go round in a circle, it may have none
(`no_records_of_circular_versions`).

Key definitions: `Record.endpointData`.
Key theorems: `Record.ofFiles_eq`, `Record.ofFiles_eq_endpointData`,
`Record.records_of_endpoints`.
-/
import Docblock.Proofs.Record.Order
import Docblock.Proofs.Resolve.Run
import Docblock.Record.Field

namespace Docblock
namespace Record

open Fields Resolve

/-! ### Counting fields once -/

theorem rewritten_dedupPart (own : Fields) (part : String) : Rewritten part own (dedupPart own part) := by
  unfold dedupPart
  split
  · rename_i fields h
    split
    · exact .inr ⟨_, mem_keys_of_get? h, rfl⟩
    · exact .inl rfl
  · exact .inl rfl

theorem isEmpty_foldl_dedupPart : ∀ (parts : List String) (own : Fields),
    (parts.foldl dedupPart own).isEmpty = own.isEmpty
  | [], _ => rfl
  | part :: parts, own => by
    rw [List.foldl_cons, isEmpty_foldl_dedupPart parts, (rewritten_dedupPart own part).isEmpty_eq]

theorem isEndpoint_dedupBlock (b : Block) : (dedupBlock b).isEndpoint = b.isEndpoint := by
  simp only [Block.isEndpoint, dedupBlock, isEmpty_foldl_dedupPart]

/-- The records before they are sorted. -/
theorem ofFiles_eq (files : List BlockFile) :
    ofFiles files = (files.flatten.filter Block.isEndpoint).map fun b => (dedupBlock b).own := by
  have hflat : (dedupFiles files).flatten = files.flatten.map dedupBlock := List.map_flatten.symm
  have hfilter : Block.isEndpoint ∘ dedupBlock = Block.isEndpoint := funext isEndpoint_dedupBlock
  rw [ofFiles, hflat, List.filter_map, List.map_map, hfilter]
  rfl

/-! ### Records of endpoints -/

/-- Of two lists that agree on a test element by element, the one can be
filtered by the other. -/
theorem map_snd_filter_zip {g : α → Bool} : ∀ {before after : List α}, after.map g = before.map g →
    ((before.zip after).filter fun x => g x.1).map Prod.snd = after.filter g
  | [], [], _ => rfl
  | [], _ :: _, h => by simp at h
  | _ :: _, [], h => by simp at h
  | x :: before, y :: after, h => by
    obtain ⟨hxy, hrest⟩ := List.cons.inj h
    have ih := map_snd_filter_zip hrest
    rw [List.zip_cons_cons, List.filter_cons, List.filter_cons, hxy]
    split_ifs
    · rw [List.map_cons, ih]
    · exact ih

/-- The data that the endpoints among the blocks before have afterwards, each
field once. -/
def endpointData (before after : List BlockFile) : List Fields :=
  ((before.flatten.zip after.flatten).filter fun x => x.1.isEndpoint).map fun x => (dedupBlock x.2).own

theorem ofFiles_eq_endpointData {before after : List BlockFile}
    (h : after.map (List.map untouched) = before.map (List.map untouched)) :
    ofFiles after = endpointData before after := by
  have hflat := congrArg List.flatten h
  rw [← List.map_flatten, ← List.map_flatten] at hflat
  have hend := congrArg (List.map fun u : Fields × Fields × Nat × Bool => u.2.2.2) hflat
  rw [List.map_map, List.map_map] at hend
  rw [ofFiles_eq, ← map_snd_filter_zip (g := Block.isEndpoint) hend, List.map_map]
  rfl

/-- **No endpoint is lost, and none comes up.** If every file has a name, the
resolution keeps the blocks, what they share, their positions and root, and
which of them describe endpoints, also if something stops it. The records are
then one for each block that described an endpoint before the resolution: what
the resolution has made of its data, each field once. Sorting them changes only
their order. It has a result if the version texts of each group and name are
ordered, and for up to twenty records whatever their versions. -/
theorem records_of_endpoints (p : Package) (files : List BlockFile) (filenames : List String)
    (hlen : files.length = filenames.length) :
    let after := (process p files filenames).files
    after.map (List.map untouched) = files.map (List.map untouched) ∧
    ofFiles after = endpointData files after ∧
    (∀ sorted, sort? (ofFiles after) = some sorted → sorted.Perm (endpointData files after)) ∧
    (Comparable (ofFiles after) ∨ (ofFiles after).length ≤ Sorting.insertionLength →
      ∃ sorted, sort? (ofFiles after) = some sorted) := by
  intro after
  have hkept : after.map (List.map untouched) = files.map (List.map untouched) := map_untouched_process p hlen
  have hdata := ofFiles_eq_endpointData hkept
  refine ⟨hkept, hdata, fun sorted hsorted => hdata ▸ perm_of_sort? hsorted, ?_⟩
  rintro (hordered | hshort)
  · obtain ⟨sorted, hsorted, -⟩ := sort_of_comparable hordered
    exact ⟨sorted, hsorted⟩
  · exact exists_of_short hshort

theorem records_of_endpoints_mixed :
    mixedFiles.length = ["a.js", "b.js"].length ∧
      (process {} mixedFiles ["a.js", "b.js"]).fault = none ∧
      ∃ sorted, sort? (ofFiles (process {} mixedFiles ["a.js", "b.js"]).files) = some sorted ∧
        sorted.length = 1 := by
  obtain ⟨-, -, hperm, hresult⟩ := records_of_endpoints {} mixedFiles ["a.js", "b.js"] rfl
  obtain ⟨sorted, hsorted⟩ := hresult (.inr (by decide))
  exact ⟨rfl, rfl, sorted, hsorted, (hperm sorted hsorted).length_eq.trans rfl⟩

/-- Endpoints of one group and name, at versions that go round in a circle:
`1.10.0` is later than `1.9.0`, `1.5` is no version and later than `1.10.0` as a
text, and so is `1.9.0` later than `1.5`. -/
def circularFiles : List BlockFile :=
  let endpoint := fun version : String =>
    { own := [("group", .str "G"), ("name", .str "N"), ("version", .str version)] : Block }
  [(List.replicate 10 "1.9.0" ++ List.replicate 6 "1.10.0" ++ List.replicate 5 "1.5").map endpoint]

/-- The sort breaks off, so none of the endpoints has a record. -/
theorem no_records_of_circular_versions :
    circularFiles.length = ["a.js"].length ∧ (process {} circularFiles ["a.js"]).fault = none ∧
      (circularFiles.flatten.filter Block.isEndpoint).length = 21 ∧
      sort? (ofFiles (process {} circularFiles ["a.js"]).files) = none := by
  refine ⟨rfl, by decide +kernel, by decide +kernel, ?_⟩
  rw [sort?, Sorting.sort?_eq_sortHalves? (by decide +kernel) (by decide +kernel) (by decide +kernel)]
  decide +kernel

end Record
end Docblock
