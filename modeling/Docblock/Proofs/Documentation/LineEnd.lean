/-
# Line ends of the documentation

The texts of a documentation are written with LF and then get their line
ends by replacement in the finished text. No value of a record can get in the
way: the written records have LF between tokens only, so the replacement
changes the layout and nothing in it, it can be taken back, and readers of the
text find the same records (`texts_faithful`).

Key definitions: `Documentation.Faithful`.
Key theorems: `Documentation.faithful_withLineEnding`,
`Documentation.texts_faithful`.
-/
import Docblock.Proofs.Documentation.Report
import Docblock.Proofs.Json.RoundTrip

namespace Docblock
namespace Documentation

open Json (Piece)

/-- A text holds a value, in lines that end with `e`. -/
structure Faithful (e : LineEnding) (v : Json) (text : String) : Prop where
  /-- The text is the layout of the value: tokens, blanks and line ends. -/
  layout : text = Json.written e.text (v.pieces 0)
  /-- The tokens are tokens of JSON, and none has a line break in it. -/
  tokens : ∀ cs, Piece.token cs ∈ v.pieces 0 → Json.IsToken cs ∧ '\r' ∉ cs ∧ '\n' ∉ cs
  /-- With LF in place of the line ends, it is the text with LF. -/
  restored : Text.replace e.text "\n" text = withLineEnding .lf v.pretty
  /-- A reader does not see the line ends. -/
  sameReading : Json.parse? text = Json.parse? v.pretty
  /-- A reader finds the value again exactly if the value is readable. -/
  readBack : Json.parse? text = some v ↔ Json.Readable Json.maxDepth v
  /-- Lines that end with LF have no CR. -/
  noReturn : e = .lf → '\r' ∉ text.toList

theorem exists_cons_lineEnding (e : LineEnding) : ∃ c cs, e.text.toList = c :: cs ∧ c.toNat < 32 := by
  cases e
  · exact ⟨'\n', [], rfl, by decide⟩
  · exact ⟨'\r', ['\n'], rfl, by decide⟩
  · exact ⟨'\r', [], rfl, by decide⟩

theorem blank_lineEnding (e : LineEnding) : Json.Blank e.text.toList := by
  cases e <;> simp [LineEnding.text, Json.Blank, Json.isSpace]

/-- The line ends of an indented value are those of its layout. -/
theorem withLineEnding_pretty (e : LineEnding) (v : Json) :
    withLineEnding e v.pretty = Json.written e.text (v.pieces 0) := by
  rw [withLineEnding, Json.pretty_eq_written]
  exact Json.replace_written rfl (by decide) e.text (Json.tokens_pieces 0 v)

theorem faithful_withLineEnding (e : LineEnding) (v : Json) : Faithful e v (withLineEnding e v.pretty) := by
  have htokens := Json.tokens_pieces 0 v
  have hread : Json.parse? (withLineEnding e v.pretty) = Json.readBack Json.maxDepth v := by
    rw [withLineEnding_pretty, Json.parse?_written (blank_lineEnding e)]
  refine ⟨withLineEnding_pretty e v, fun cs hcs => ?_, ?_, ?_, ?_, ?_⟩
  · have htoken := htokens cs hcs
    exact ⟨htoken, fun h => absurd (htoken.printable _ h) (by decide),
      fun h => absurd (htoken.printable _ h) (by decide)⟩
  · obtain ⟨c, cs, hcons, hc⟩ := exists_cons_lineEnding e
    rw [withLineEnding_pretty, withLineEnding_pretty, Json.replace_written hcons hc "\n" htokens]
    rfl
  · rw [hread, Json.pretty_eq_written]
    exact (Json.parse?_written (blank_lineEnding .lf) v).symm
  · rw [hread, Json.readBack_eq_some_iff]
  · rintro rfl hmem
    rw [withLineEnding_pretty, Json.written, String.toList_ofList] at hmem
    have hend := Json.mem_charsOf htokens hmem (by decide)
    simp [LineEnding.text] at hend

/-- The data of a run are the texts of some records. -/
theorem exists_records_of_make {o : Options} {p : Package} {render : Markdown.Renderer} {tree : FileTree}
    {time data project : String} (h : (make o p render tree time).1 = .data data project) :
    ∃ records, textsOf o p time records = .data data project := by
  unfold make at h
  rcases hrun : run o p render tree time with ⟨(fault | message) | outcome, log⟩ <;> simp only [hrun] at h
  · cases h
  · cases h
  · rcases outcome_of_run hrun with rfl | ⟨records, rfl⟩
    · cases h
    · exact ⟨records, h⟩

/-- **The texts are faithful to the records.** Any records are written, with
any line ends, as a text that holds them, and the data of every run are such a
text, whatever its sources hold. -/
theorem texts_faithful (o : Options) (p : Package) (time : String) :
    (∀ records : List Fields, ∃ data project, textsOf o p time records = .data data project ∧
      Faithful o.lineEnding (.arr (records.map .obj)) data) ∧
    ∀ render tree data project, (make o p render tree time).1 = .data data project →
      ∃ records : List Fields, Faithful o.lineEnding (.arr (records.map .obj)) data := by
  have hrecords : ∀ records : List Fields, ∃ data project, textsOf o p time records = .data data project ∧
      Faithful o.lineEnding (.arr (records.map .obj)) data :=
    fun records => ⟨_, _, rfl, faithful_withLineEnding o.lineEnding _⟩
  refine ⟨hrecords, fun render tree data project h => ?_⟩
  obtain ⟨records, htexts⟩ := exists_records_of_make h
  obtain ⟨data', project', htexts', hfaithful⟩ := hrecords records
  obtain ⟨rfl, -⟩ := Outcome.data.inj (htexts.symm.trans htexts')
  exact ⟨records, hfaithful⟩

-- a text with line breaks and a key with quotes in it, in lines that end with CRLF
example : Json.parse? (withLineEnding .crlf (Json.arr [.obj [("a\"\n", .str "x\r\ny"), ("n", .ofNat 3)]]).pretty) =
    some (.arr [.obj [("a\"\n", .str "x\r\ny"), ("n", .ofNat 3)]]) := by
  decide +kernel

end Documentation
end Docblock
