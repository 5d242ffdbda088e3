/-
# The text of a definition

The lines of a definition are found one after the other. What is found starts
with a line, goes up to the first blank and over all blanks there, line ends
too, and on to the end of the line that it is in then (`Passage`). So one match
may take several lines, but with the line ends between the matches they make
up the text again (`texts_matchesFrom_lines`), and the description is what stands
below the first match (`readDefinition_passage`).

The first match gives the name and the title. Its blanks end in the line of the
name if there is a title, and else in the first line below that holds
something: then this line becomes the title, and it is missing from the
description (`readDefinition_lines_iff`).

Key definitions: `Tag.Passage`, `Tag.definitionLine`.
Key theorems: `Tag.exists_passage`, `Tag.texts_matchesFrom_lines`,
`Tag.readDefinition_passage`, `Tag.readDefinition_lines_iff`.
-/
import Docblock.Proofs.Pattern.Run
import Docblock.Proofs.Pattern.Trace
import Docblock.Proofs.Text.OneLine
import Docblock.Tag.Endpoint

namespace Docblock
namespace Tag

open Pattern Text

variable {α : Type} {next : Next α} {caps : Captures} {P : α → Prop}

/-! ### What one match takes -/

/-- The characters of the name of a definition. -/
abbrev isNameChar : Char → Bool := alnumOr "_:"

/-- A name, what stands behind it without a blank, blanks, and the rest of a line. -/
structure Passage where
  name : List Char
  tail : List Char
  gap : List Char
  line : List Char

namespace Passage

def text (e : Passage) : List Char := e.name ++ (e.tail ++ (e.gap ++ e.line))

/-- The passage ends where the pattern ends before `more`: at the end of a line, and
without blanks only at the end of the text. -/
structure IsWritten (e : Passage) (more : List Char) : Prop where
  name : ∀ c ∈ e.name, isNameChar c = true
  tail : ∀ c ∈ e.tail, isBlank c = false
  tail_head : ∀ c ∈ e.tail.head?, isNameChar c = false
  gap : ∀ c ∈ e.gap, isBlank c = true
  line : '\n' ∉ e.line
  line_head : ∀ c ∈ e.line.head?, isBlank c = false
  line_ne_nil : e.gap ≠ [] → e.line ≠ []
  ended : e.gap = [] → e.line = [] ∧ more = []
  more : ∀ c ∈ more.head?, c = '\n'

end Passage

theorem isBlank_of_isNameChar {c : Char} (h : isNameChar c = true) : isBlank c = false :=
  isBlank_of_alnumOr (by decide) h

theorem ne_newline_of_not_isBlank {c : Char} (h : isBlank c = false) : c ≠ '\n' := by
  rintro rfl
  exact absurd h (by decide)

/-- What comes behind the first word of a passage. -/
def afterWord : Pattern := any [blanks1, .lineEnd]

theorem refuses_afterWord {c : Char} {rest : List Char} (hc : isBlank c = false) :
    Refuses (run afterWord next) (c :: rest) caps :=
  refuses_alt (refuses_one (by simpa using hc)) (refuses_lineEnd (ne_newline_of_not_isBlank hc))

theorem accepts_afterWord {gap rest : List Char} (hgap : ∀ c ∈ gap, isBlank c = true)
    (hrest : ∀ c ∈ rest.head?, isBlank c = false) (hend : gap = [] → rest = []) (h : Accepts next rest caps P) :
    Accepts (run afterWord next) (gap ++ rest) caps P := by
  cases gap with
  | nil =>
    obtain rfl := hend rfl
    exact accepts_alt_right (refuses_one (by simp)) (accepts_lineEnd (by simp) h)
  | cons c gap =>
    rw [List.forall_mem_cons] at hgap
    exact accepts_alt_left (accepts_one hgap.1 (accepts_chars hgap.2 hrest h))

/-- What a match holds in its groups and where it ends. -/
structure Holds (e : Passage) (more : List Char) (m : Match) : Prop where
  text : m.text = String.ofList e.text
  stop : m.stop.rest = more
  name : m.group 1 = String.ofList e.name
  tail : m.group 2 = String.ofList e.tail
  line : m.group 3 = String.ofList e.line

namespace Passage.IsWritten

variable {e : Passage} {more : List Char}

/-- A passage does not end in the end of a line. -/
theorem exists_last (h : e.IsWritten more) (hne : e.text ≠ []) : ∃ c ∈ e.text.getLast?, c ≠ '\n' := by
  refine ⟨e.text.getLast hne, List.getLast?_eq_some_getLast hne, fun hnewline => ?_⟩
  have hlast : e.text.getLast? = some '\n' := (List.getLast?_eq_some_getLast hne).trans (congrArg some hnewline)
  by_cases hgap : e.gap = []
  · have hword : '\n' ∈ e.name ++ e.tail := by
      rw [Passage.text, hgap, (h.ended hgap).1, List.append_nil, List.append_nil] at hlast
      exact List.mem_of_getLast? hlast
    have hblank : isBlank '\n' = false :=
      (List.mem_append.mp hword).elim (fun hmem => isBlank_of_isNameChar (h.name _ hmem)) (h.tail _)
    exact absurd hblank (by decide)
  · have hline := h.line_ne_nil hgap
    rw [Passage.text, ← List.append_assoc, ← List.append_assoc, List.getLast?_append_of_ne_nil _ hline] at hlast
    exact h.line (List.mem_of_getLast? hlast)

/-- Behind the name comes no character of a name. -/
theorem head?_behind_name (h : e.IsWritten more) :
    ∀ c ∈ (e.tail ++ (e.gap ++ (e.line ++ more))).head?, isNameChar c = false := by
  intro c hc
  rw [List.head?_append, Option.mem_def, Option.or_eq_some_iff] at hc
  rcases hc with hc | ⟨-, hc⟩
  · exact h.tail_head c hc
  · cases hgap : e.gap with
    | nil =>
      obtain ⟨hline, hmore⟩ := h.ended hgap
      rw [hgap, hline, hmore] at hc
      cases hc
    | cons d gap =>
      rw [hgap] at hc
      cases hc
      by_contra hname
      have hblank := isBlank_of_isNameChar (eq_true_of_ne_false hname)
      rw [h.gap _ (by rw [hgap]; exact List.mem_cons_self)] at hblank
      cases hblank

/-- Behind the blanks comes none. -/
theorem head?_behind_gap (h : e.IsWritten more) : ∀ c ∈ (e.line ++ more).head?, isBlank c = false := by
  intro c hc
  rw [List.head?_append, Option.mem_def, Option.or_eq_some_iff] at hc
  rcases hc with hc | ⟨hline, hc⟩
  · exact h.line_head c hc
  · rw [List.head?_eq_none_iff] at hline
    by_cases hgap : e.gap = []
    · rw [(h.ended hgap).2] at hc
      cases hc
    · exact absurd hline (h.line_ne_nil hgap)

/-- **A passage is taken whole** where a line starts. -/
theorem exists_match (h : e.IsWritten more) {before : List Char} (hbefore : ∀ c ∈ before.head?, c = '\n') :
    ∃ m, matchAt? definitionPattern ⟨before, e.text ++ more⟩ = some m ∧ Holds e more m := by
  have htail : '\n' ∉ e.tail := fun hmem => absurd (h.tail _ hmem) (by decide)
  have hmore : ∀ c ∈ more.head?, notNewline c = false := by
    intro c hc
    rw [h.more c hc]
    decide
  have htext : e.text ++ more = e.name ++ (e.tail ++ (e.gap ++ (e.line ++ more))) := by simp [Passage.text]
  have hstart : Cursor.atLineStart ⟨before, e.text ++ more⟩ = true := by
    cases before with
    | nil => rfl
    | cons b before => simpa [Cursor.atLineStart] using hbefore b rfl
  let final : Next Match := fun there caps => some ⟨⟨before, e.text ++ more⟩, there, caps⟩
  let captures : Captures := [(3, ⟨e.line ++ more, more⟩),
    (2, ⟨e.tail ++ (e.gap ++ (e.line ++ more)), e.gap ++ (e.line ++ more)⟩),
    (1, ⟨e.name ++ (e.tail ++ (e.gap ++ (e.line ++ more))), e.tail ++ (e.gap ++ (e.line ++ more))⟩)]
  have hfinal : Accepts (run .lineEnd final) more captures (Holds e more) := by
    refine accepts_lineEnd h.more fun stop => ⟨_, rfl, ?_⟩
    exact {
      text := text_span _ _
      stop := rfl
      name := congrArg (Option.getD · "") (congrArg some (text_span _ _))
      tail := congrArg (Option.getD · "") (congrArg some (text_span _ _))
      line := congrArg (Option.getD · "") (congrArg some (text_span _ _)) }
  have hword : Accepts (run (.group 2 (.charsLazy notNewline)) (run afterWord
      (run (.group 3 (.chars notNewline)) (run .lineEnd final)))) (e.tail ++ (e.gap ++ (e.line ++ more)))
      [(1, ⟨e.name ++ (e.tail ++ (e.gap ++ (e.line ++ more))), e.tail ++ (e.gap ++ (e.line ++ more))⟩)]
      (Holds e more) := by
    refine accepts_group (accepts_charsLazy (notNewline_of_not_mem htail) (fun front back heq hback before => ?_)
      (accepts_afterWord h.gap h.head?_behind_gap (fun hgap => ?_)
        (accepts_group (accepts_chars (notNewline_of_not_mem h.line) hmore hfinal))))
    · obtain ⟨c, back, rfl⟩ := List.exists_cons_of_ne_nil hback
      exact refuses_afterWord (h.tail c (by rw [heq]; simp)) before
    · obtain ⟨hnil, hend⟩ := h.ended hgap
      rw [hnil, hend]
      rfl
  have hname : Accepts (run (.group 1 (.chars isNameChar)) (run (.group 2 (.charsLazy notNewline)) (run afterWord
      (run (.group 3 (.chars notNewline)) (run .lineEnd final))))) (e.text ++ more) [] (Holds e more) := by
    rw [htext]
    exact accepts_group (accepts_chars h.name h.head?_behind_name hword)
  obtain ⟨m, hm, hholds⟩ := hname before
  exact ⟨m, (run_lineStart hstart).trans hm, hholds⟩

end Passage.IsWritten

/-- So what stands before the end of a match is inside a line. -/
theorem Holds.inside_line {e : Passage} {more before : List Char} {m : Match} (hholds : Holds e more m)
    (hm : matchAt? definitionPattern ⟨before, e.text ++ more⟩ = some m) (he : e.IsWritten more) (hne : e.text ≠ []) :
    ∃ c ∈ m.stop.before.head?, c ≠ '\n' := by
  obtain ⟨piece, hpiece, hstop⟩ := stop_of_matchAt? hm
  dsimp only at hpiece hstop
  rw [hholds.stop, List.append_cancel_right_eq] at hpiece
  obtain ⟨last, hlast, hline⟩ := he.exists_last hne
  refine ⟨last, ?_, hline⟩
  rw [hstop, ← hpiece, List.head?_append, List.head?_reverse, Option.mem_def.mp hlast]
  rfl

/-! ### Every text starts with a passage -/

/-- A text that does not end in a blank starts with blanks and then the rest of a
line. -/
theorem exists_content_line {cs : List Char} (hne : cs ≠ []) (hlast : ∀ c ∈ cs.getLast?, isBlank c = false) :
    ∃ gap line more, cs = gap ++ (line ++ more) ∧ (∀ c ∈ gap, isBlank c = true) ∧ line ≠ [] ∧
      (∀ c ∈ line.head?, isBlank c = false) ∧ '\n' ∉ line ∧ ∀ c ∈ more.head?, c = '\n' := by
  obtain ⟨gap, rest, rfl, hgap, hrest⟩ := exists_span isBlank cs
  obtain ⟨line, more, rfl, hline, hmore⟩ := exists_span notNewline rest
  have hmore : ∀ c ∈ more.head?, c = '\n' := fun c hc => by simpa [notNewline] using hmore c hc
  have hfilled : line ≠ [] := by
    rintro rfl
    cases more with
    | nil =>
      -- all of it would be blanks
      rw [List.nil_append, List.append_nil] at hne hlast
      have hblank := hgap _ (List.getLast_mem hne)
      rw [hlast _ (List.getLast?_eq_some_getLast hne)] at hblank
      cases hblank
    | cons c more =>
      have hblank := hrest c rfl
      rw [hmore c rfl] at hblank
      exact absurd hblank (by decide)
  refine ⟨gap, line, more, rfl, hgap, hfilled, fun c hc => hrest c ?_, fun hmem => ?_, hmore⟩
  · rw [List.head?_append_of_ne_nil _ hfilled]
    exact hc
  · exact absurd (hline _ hmem) (by decide)

/-- **A text that does not end in a blank starts with a passage.** -/
theorem exists_passage {cs : List Char} (hne : cs ≠ []) (hlast : ∀ c ∈ cs.getLast?, isBlank c = false) :
    ∃ (e : Passage) (more : List Char), cs = e.text ++ more ∧ e.IsWritten more ∧ e.text ≠ [] := by
  obtain ⟨word, rest, rfl, hword, hrest⟩ := exists_span (fun c => !isBlank c) cs
  obtain ⟨name, tail, rfl, hname, hhead⟩ := exists_span isNameChar word
  have htail : ∀ c ∈ tail, isBlank c = false := fun c hc => by simpa using hword c (List.mem_append_right _ hc)
  by_cases hend : rest = []
  · -- the text is one word
    subst hend
    rw [List.append_nil] at hne hlast
    refine ⟨⟨name, tail, [], []⟩, [], by simp [Passage.text],
      ⟨hname, htail, hhead, by simp, by simp, by simp, by simp, by simp, by simp⟩, ?_⟩
    simpa [Passage.text] using hne
  · rw [List.getLast?_append_of_ne_nil _ hend] at hlast
    obtain ⟨gap, line, more, rfl, hgap, hline, hfirst, hnewline, hmore⟩ := exists_content_line hend hlast
    have hgapNe : gap ≠ [] := by
      rintro rfl
      obtain ⟨c, line, rfl⟩ := List.exists_cons_of_ne_nil hline
      have hc := hrest c rfl
      rw [hfirst c rfl] at hc
      cases hc
    refine ⟨⟨name, tail, gap, line⟩, more, by simp [Passage.text],
      ⟨hname, htail, hhead, hgap, hnewline, hfirst, fun _ => hline, fun h => absurd h hgapNe, hmore⟩, ?_⟩
    simp [Passage.text, hline]

/-! ### Line after line -/

/-- The texts of matches, each with the end of a line behind it. -/
def written (ms : List Match) : List Char := ms.flatMap fun m => m.text.toList ++ ['\n']

/-- **The run: the matches below a line make up the text again.** -/
theorem texts_matchesFrom_lines : ∀ {fuel : Nat} {here : Cursor}, here.rest.length < fuel →
    (∃ c ∈ here.before.head?, c ≠ '\n') → (∀ c ∈ here.rest.head?, c = '\n') →
    (∀ c ∈ here.rest.getLast?, isBlank c = false) →
    '\n' :: written (matchesFrom definitionPattern fuel here) = here.rest ++ ['\n']
  | 0, _, hfuel, _, _, _ => absurd hfuel (Nat.not_lt_zero _)
  | fuel + 1, ⟨before, rest⟩, hfuel, hbefore, hstart, hlast => by
    -- no match starts inside a line
    have hinside : matchAt? definitionPattern ⟨before, rest⟩ = none := by
      obtain ⟨c, hc, hne⟩ := hbefore
      obtain ⟨front, rfl⟩ := List.head?_eq_some_iff.mp hc
      exact run_lineStart_eq_none (by simpa [Cursor.atLineStart] using hne)
    cases rest with
    | nil =>
      have hnone : search definitionPattern before [] = none := hinside
      simp [matchesFrom, searchAfter, hnone, written]
    | cons c cs =>
      obtain rfl : c = '\n' := hstart c rfl
      have hcs : cs ≠ [] := by
        rintro rfl
        exact absurd (hlast '\n' rfl) (by decide)
      rw [List.getLast?_cons_of_ne_nil hcs] at hlast
      obtain ⟨e, more, rfl, he, htext⟩ := exists_passage hcs hlast
      obtain ⟨m, hm, hholds⟩ : ∃ m, matchAt? definitionPattern ⟨'\n' :: before, e.text ++ more⟩ = some m ∧
          Holds e more m := he.exists_match (by simp)
      have hsome : m.isEmpty = false := by
        simp [Match.isEmpty, (start_of_matchAt? hm).1, hholds.stop, htext]
      have hsearch : searchAfter definitionPattern ⟨before, '\n' :: (e.text ++ more)⟩ = some m :=
        searchAfter_of_search ((search_cons_of_none hinside).trans (search_of_matchAt? hm)) hsome
      have ih : '\n' :: written (matchesFrom definitionPattern fuel m.stop) = m.stop.rest ++ ['\n'] := by
        refine texts_matchesFrom_lines ?_ (hholds.inside_line hm he htext) ?_ ?_
        · have hpos := List.length_pos_iff.mpr htext
          rw [hholds.stop]
          simp only [List.length_cons, List.length_append] at hfuel
          omega
        · rw [hholds.stop]
          exact he.more
        · rw [hholds.stop]
          intro c hc
          refine hlast c ?_
          rw [List.getLast?_append, Option.mem_def.mp hc]
          rfl
      have hwritten : written (m :: matchesFrom definitionPattern fuel m.stop) =
          e.text ++ '\n' :: written (matchesFrom definitionPattern fuel m.stop) := by
        simp [written, hholds.text]
      rw [matchesFrom, hsearch]
      dsimp only
      rw [hwritten, ih, hholds.stop, List.cons_append, List.append_assoc]

/-! ### The definition -/

/-- **The first match gives the name and the title,** and what stands below it is the
description. -/
theorem readDefinition_passage {content : String} {e : Passage} {more : List Char} (he : e.IsWritten more)
    (hcontent : content.toList = e.text ++ more) (hname : e.name ≠ []) (htail : e.tail = [])
    (hlast : ∀ c ∈ content.toList.getLast?, isBlank c = false) :
    readDefinition content = .ok (some (.obj [("name", .str (String.ofList e.name)),
      ("title", .str (String.ofList e.line)),
      ("description", .str (unindent (String.ofList (more ++ ['\n']).tail)))])) := by
  have htext : e.text ≠ [] := by simp [Passage.text, hname]
  have htrim : trim content = content := by
    refine trim_eq_self_iff.mpr ⟨fun c hc => ?_, hlast⟩
    rw [hcontent, Passage.text, List.append_assoc, List.head?_append_of_ne_nil _ hname] at hc
    exact isBlank_of_isNameChar (he.name c (List.mem_of_mem_head? hc))
  obtain ⟨m, hm, hholds⟩ : ∃ m, matchAt? definitionPattern ⟨[], e.text ++ more⟩ = some m ∧ Holds e more m :=
    he.exists_match (by simp)
  have hfind : definitionPattern.find? content = some m := by
    rw [find?, hcontent]
    exact search_of_matchAt? hm
  have hothers : '\n' :: written (matchesFrom definitionPattern (content.length + 1) m.stop) = more ++ ['\n'] := by
    rw [← hholds.stop]
    refine texts_matchesFrom_lines ?_ (hholds.inside_line hm he htext) ?_ ?_
    · rw [hholds.stop, ← String.length_toList, hcontent, List.length_append]
      omega
    · rw [hholds.stop]
      exact he.more
    · rw [hholds.stop]
      intro c hc
      refine hlast c ?_
      rw [hcontent, List.getLast?_append, Option.mem_def.mp hc]
      rfl
  have hdescription : String.join ((matchesFrom definitionPattern (content.length + 1) m.stop).map
      fun m => m.text ++ "\n") = String.ofList (more ++ ['\n']).tail := by
    rw [← hothers, List.tail_cons, ← String.toList_inj, String.toList_join, String.toList_ofList, List.flatMap_map,
      written]
    simp
  have hsome : m.text.isEmpty = false := by
    rw [hholds.text]
    simpa using htext
  have hgroup : (m.group 2).isEmpty = true := by
    rw [hholds.tail, htail]
    rfl
  unfold readDefinition
  rw [htrim, findAll, hfind]
  simp only [hsome, hgroup, hdescription, hholds.name, hholds.line, Bool.false_eq_true, Bool.not_true, ↓reduceIte]

/-- The line that opens a definition. -/
def definitionLine (name title : String) : String :=
  if title = "" then name else name ++ " " ++ title

/-- **The lines are told apart if there is a title.** Without one the description is
not read as it is written: its first line becomes the title. -/
theorem readDefinition_lines_iff {name title description : String} (hname : name ≠ "")
    (hchars : ∀ c ∈ name.toList, isNameChar c = true) (htitle : trim title = title) (hline : '\n' ∉ title.toList)
    (hdescription : description ≠ "") (hlast : trimEnd description = description) :
    readDefinition (definitionLine name title ++ "\n" ++ description) =
      .ok (some (.obj [("name", .str name), ("title", .str title),
        ("description", .str (unindent (description ++ "\n")))])) ↔ title ≠ "" := by
  have hend : ∀ front : List Char, ∀ c ∈ (front ++ description.toList).getLast?, isBlank c = false := by
    intro front c hc
    rw [List.getLast?_append_of_ne_nil _ (by simpa using hdescription)] at hc
    exact getLast?_of_trimEnd hlast c hc
  have hname' : name.toList ≠ [] := by simpa using hname
  by_cases hempty : title = ""
  · obtain ⟨gap, line, more, hsplit, hgap, hfilled, hfirst, hnewline, hmore⟩ :=
      exists_content_line (by simpa using hdescription) (getLast?_of_trimEnd hlast)
    let e : Passage := ⟨name.toList, [], '\n' :: gap, line⟩
    have he : e.IsWritten more :=
      ⟨hchars, by simp [e], by simp [e], List.forall_mem_cons.mpr ⟨rfl, hgap⟩, hnewline, hfirst, fun _ => hfilled,
        fun h => absurd h (List.cons_ne_nil _ _), hmore⟩
    have hcontent : (definitionLine name title ++ "\n" ++ description).toList = e.text ++ more := by
      simp [definitionLine, hempty, e, Passage.text, hsplit]
    have hread := readDefinition_passage he hcontent hname' rfl (by rw [String.toList_append]; exact hend _)
    rw [hread]
    simp [e, hempty, hfilled]
  · have htrimmed := trim_eq_self_iff.mp htitle
    let e : Passage := ⟨name.toList, [], [' '], title.toList⟩
    have he : e.IsWritten ('\n' :: description.toList) :=
      ⟨hchars, by simp [e], by simp [e], by simp [e]; rfl, hline, htrimmed.head, fun _ => by simpa [e] using hempty,
        fun h => absurd h (List.cons_ne_nil _ _), by simp⟩
    have hcontent : (definitionLine name title ++ "\n" ++ description).toList =
        e.text ++ '\n' :: description.toList := by
      simp [definitionLine, hempty, e, Passage.text]
    have hread := readDefinition_passage he hcontent hname' rfl (by rw [String.toList_append]; exact hend _)
    rw [hread]
    simp [e, hempty]

/-- The lines of the description lose the blanks that all of them start with. -/
theorem readDefinition_lines_iff_user :
    let name := "UserNotFound"
    let title := "No such user"
    let description := "  The id of the\n    User was not found.\n\n  Try another."
    readDefinition (definitionLine name title ++ "\n" ++ description) =
        .ok (some (.obj [("name", .str name), ("title", .str title),
          ("description", .str (unindent (description ++ "\n")))])) ∧
      unindent (description ++ "\n") = "The id of the\n  User was not found.\n\nTry another.\n" := by
  intro name title description
  have htitle : title ≠ "" := by decide
  exact ⟨(readDefinition_lines_iff (by decide) (by decide) (by decide +kernel) (by decide) (by decide)
    (by decide +kernel)).mpr htitle, by decide +kernel⟩

/-- Without a title the only line below is missing from the description. -/
theorem title_from_line_below :
    trim "" = "" ∧ trimEnd "d" = "d" ∧ definitionLine "n" "" ++ "\n" ++ "d" = "n\nd" ∧
      readDefinition "n\nd" = .ok (some (.obj [("name", .str "n"), ("title", .str "d"), ("description", .str "")])) ∧
      unindent ("d" ++ "\n") = "d\n" := by
  refine ⟨by decide, by decide, by decide, ?_, by decide +kernel⟩
  rfl

end Tag
end Docblock
