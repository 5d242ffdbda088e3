/-
# The line that opens an endpoint

What an endpoint is opened with is a method in braces, a url up to a blank, and
a title up to the end of the text. The title has to be in one line. If it is,
the method and the url are those of the line (`IsEndpoint.exists_match`).

If an end of line is left behind the url, no match gives the method and the url
of the line (`IsEndpoint.newline_not_mem`): for what follows the braces can only
be read as a longer url, or what the braces hold together with the url as a
longer method. So a line that opens an endpoint is read as it is written if and
only if title and lines below make up one line at most (`readEndpoint_line_iff`).

Key definitions: `Tag.IsEndpoint`, `Tag.endpointLine`.
Key theorems: `Tag.IsEndpoint.exists_match`, `Tag.IsEndpoint.newline_not_mem`,
`Tag.readEndpoint_line_iff`.
-/
import Docblock.Proofs.Pattern.Trace
import Docblock.Proofs.Tag.Braced
import Docblock.Proofs.Text.OneLine
import Docblock.Tag.Endpoint

namespace Docblock
namespace Tag

open Pattern Text

/-! ### The pieces of the line -/

/-- A method without closing brace, a url without blanks, and a title behind
blanks, or nothing. -/
structure IsEndpoint (method url gap title : List Char) : Prop where
  method_ne_nil : method ≠ []
  brace : '}' ∉ method
  newline : '\n' ∉ method
  url_ne_nil : url ≠ []
  not_blank : ∀ c ∈ url, isBlank c = false
  blank : ∀ c ∈ gap, isBlank c = true
  title_head : ∀ c ∈ title.head?, isBlank c = false
  gap_eq_nil_iff : gap = [] ↔ title = []

/-- A method in braces and a url, with what stands behind it. -/
def endpointChars (method url behind : List Char) : List Char :=
  '{' :: (method ++ '}' :: ' ' :: (url ++ behind))

/-- A method in braces. -/
def methodPattern : Pattern := all [lit "\x7b", .group 1 (charsLazy1 notNewline), lit "\x7d"]

/-- What may stand behind a url. -/
def titlePattern : Pattern := all [opt (all [blanks1, .group 3 (charsLazy1 notNewline)]), .textEnd]

/-- A url, and what may stand behind it. -/
def urlPattern : Pattern := .seq (.group 2 (charsLazy1 notNewline)) titlePattern

theorem endpointPattern_eq :
    endpointPattern = .seq .textStart (.seq (opt (all [opt methodPattern, blanks])) urlPattern) := rfl

/-- What a match says. -/
structure ReadAs (method url title : List Char) (m : Match) : Prop where
  method : m.group? 1 = some (String.ofList method)
  url : m.group 2 = String.ofList url
  title : m.group 3 = String.ofList title

theorem refuses_title {next : Next Match} {caps : Captures} {c : Char} {rest : List Char} (hc : isBlank c = false) :
    Refuses (run titlePattern next) (c :: rest) caps := by
  have hblanks : Refuses (run (all [blanks1, .group 3 (charsLazy1 notNewline)]) (run .textEnd next)) (c :: rest) caps :=
    refuses_one (by simpa using hc)
  exact refuses_opt hblanks refuses_textEnd

namespace IsEndpoint

variable {method url gap title : List Char} {next : Next Match} {caps : Captures} {P : Match → Prop}

theorem head?_url_append (h : IsEndpoint method url gap title) (behind : List Char) :
    ∀ c ∈ (url ++ behind).head?, isBlank c = false := by
  intro c hc
  rw [List.head?_append_of_ne_nil _ h.url_ne_nil] at hc
  exact h.not_blank c (List.mem_of_mem_head? hc)

/-! ### A line that is read as it is written -/

/-- A title in one line is taken up to the end of the text. -/
theorem accepts_title (h : IsEndpoint method url gap title) (htitle : '\n' ∉ title)
    (hnone : title = [] → Accepts next [] caps P)
    (hsome : title ≠ [] → Accepts next [] ((3, ⟨title ++ [], []⟩) :: caps) P) :
    Accepts (run titlePattern next) (gap ++ title) caps P := by
  by_cases hempty : title = []
  · rw [h.gap_eq_nil_iff.mpr hempty, hempty]
    exact accepts_opt_absent (refuses_one (by simp)) (accepts_textEnd (hnone hempty))
  · obtain ⟨b, bs, rfl⟩ := List.exists_cons_of_ne_nil fun hgap => hempty (h.gap_eq_nil_iff.mp hgap)
    obtain ⟨hb, hbs⟩ := List.forall_mem_cons.mp h.blank
    have hgroup : Accepts (run (.group 3 (charsLazy1 notNewline)) (run .textEnd next)) (title ++ []) caps P := by
      refine accepts_group_charsLazy1 hempty (notNewline_of_not_mem htitle) (fun front back _ _ hback caps => ?_)
        (accepts_textEnd (hsome hempty))
      obtain ⟨c, back, rfl⟩ := List.exists_cons_of_ne_nil hback
      exact refuses_textEnd
    rw [List.append_nil] at hgroup
    exact accepts_opt (accepts_one hb (accepts_chars hbs h.title_head hgroup))

/-- A url is taken up to the blank behind it. -/
theorem accepts_url (h : IsEndpoint method url gap title) {behind : List Char}
    (hnext : Accepts (run titlePattern next) behind ((2, ⟨url ++ behind, behind⟩) :: caps) P) :
    Accepts (run urlPattern next) (url ++ behind) caps P := by
  have hline : '\n' ∉ url := fun hmem => absurd (h.not_blank _ hmem) (by decide)
  refine accepts_group_charsLazy1 h.url_ne_nil (notNewline_of_not_mem hline)
    (fun front back heq _ hback caps => ?_) hnext
  -- inside the url comes neither a blank nor the end
  obtain ⟨c, back, rfl⟩ := List.exists_cons_of_ne_nil hback
  exact refuses_title (h.not_blank c (by rw [heq]; simp))

/-- A method is taken up to the first closing brace. -/
theorem accepts_method (h : IsEndpoint method url gap title) {back : List Char}
    (hnext : Accepts next back ((1, ⟨method ++ '}' :: back, '}' :: back⟩) :: caps) P) :
    Accepts (run methodPattern next) ('{' :: (method ++ '}' :: back)) caps P := by
  have hclose : "\x7d".toList = ['}'] := rfl
  refine accepts_lit rfl (accepts_group_charsLazy1 h.method_ne_nil (notNewline_of_not_mem h.newline)
    (fun front piece heq _ hpiece caps => refuses_lit hclose fun hbrace => h.brace ?_) (accepts_lit hclose hnext))
  obtain ⟨c, piece, rfl⟩ := List.exists_cons_of_ne_nil hpiece
  obtain rfl : c = '}' := by simpa using hbrace
  rw [heq]
  simp

/-- **A line with one title at most is read as it is written.** -/
theorem exists_match (h : IsEndpoint method url gap title) (htitle : '\n' ∉ title) :
    ∃ m, endpointPattern.find? (String.ofList (endpointChars method url (gap ++ title))) = some m ∧
      ReadAs method url title m := by
  let behind := gap ++ title
  let inBraces : Nat × Span := (1, ⟨method ++ '}' :: ' ' :: (url ++ behind), '}' :: ' ' :: (url ++ behind)⟩)
  let ofUrl : Nat × Span := (2, ⟨url ++ behind, behind⟩)
  let final : Next Match := fun there caps => some ⟨⟨[], endpointChars method url behind⟩, there, caps⟩
  have hread : Accepts (run titlePattern final) behind [ofUrl, inBraces] (ReadAs method url title) := by
    refine h.accepts_title htitle (fun hempty before => ⟨_, rfl, ?_⟩) (fun _ before => ⟨_, rfl, ?_⟩)
    · exact {
        method := congrArg some (text_span _ _)
        url := text_span _ _
        title := by rw [hempty]; rfl }
    · exact {
        method := congrArg some (text_span _ _)
        url := text_span _ _
        title := text_span _ _ }
  have hblanks : Accepts (run blanks (run urlPattern final)) ([' '] ++ (url ++ behind)) [inBraces]
      (ReadAs method url title) :=
    accepts_chars (by decide) (h.head?_url_append _) (h.accepts_url hread)
  have hopen : Accepts (run methodPattern (run blanks (run urlPattern final)))
      (endpointChars method url behind) [] (ReadAs method url title) :=
    h.accepts_method hblanks
  obtain ⟨m, hm, hholds⟩ := accepts_opt (accepts_opt hopen) []
  refine ⟨m, ?_, hholds⟩
  rw [find?, String.toList_ofList]
  exact search_of_matchAt? hm

/-! ### A line that is not -/

theorem exists_of_methodPattern {here : Cursor} {m : Match} (hrun : run methodPattern next here caps = some m) :
    ∃ read back before, here.rest = '{' :: (read ++ '}' :: back) ∧
      next ⟨before, back⟩ ((1, ⟨read ++ '}' :: back, '}' :: back⟩) :: caps) = some m := by
  obtain ⟨inner, _, hinner, hgroup⟩ := exists_of_lit hrun
  obtain ⟨read, stop, rfl, -, -, hclose⟩ := exists_of_group_charsLazy1 hgroup
  obtain ⟨back, before, rfl, hnext⟩ := exists_of_lit hclose
  exact ⟨read, back, before, hinner, hnext⟩

/-- Behind the url comes one line. -/
theorem newline_not_mem_title (h : IsEndpoint method url gap title) {here : Cursor} {m : Match}
    (hhere : here.rest = gap ++ title) (hrun : run titlePattern next here caps = some m) : '\n' ∉ title := by
  rcases cases_of_opt hrun with hsome | hnone
  · obtain ⟨b, bs, hcons, hb, hblanks⟩ := exists_of_one hsome
    obtain ⟨blanks, back, rfl, hall, hgroup⟩ := exists_of_runChars hblanks
    obtain ⟨piece, stop, rfl, -, hpiece, hend⟩ := exists_of_group_charsLazy1 hgroup
    obtain rfl : stop = [] := rest_of_textEnd hend
    rw [hhere, List.append_nil, ← List.cons_append] at hcons
    -- the title is what comes behind the blanks
    have hdrop : dropBlanks title = dropBlanks piece := by
      have hboth := congrArg dropBlanks hcons
      rwa [dropBlanks_append h.blank, dropBlanks_append (List.forall_mem_cons.mpr ⟨hb, hall⟩)] at hboth
    intro hmem
    rw [← dropBlanks_eq_self h.title_head, hdrop] at hmem
    exact newline_not_mem_of_forall hpiece ((List.dropWhile_sublist _).subset hmem)
  · have hrest : here.rest = [] := rest_of_textEnd hnone
    rw [hhere] at hrest
    rw [(List.append_eq_nil_iff.mp hrest).2]
    exact List.not_mem_nil

/-- **A match that gives the method and the url of the line finds one line behind
them.** -/
theorem newline_not_mem (h : IsEndpoint method url gap title) {m : Match}
    (hm : endpointPattern.find? (String.ofList (endpointChars method url (gap ++ title))) = some m)
    (hmethod : m.group? 1 = some (String.ofList method)) (hurl : m.group 2 = String.ofList url) : '\n' ∉ title := by
  rw [endpointPattern_eq] at hm
  have hstart := run_of_find?_textStart hm
  rw [String.toList_ofList] at hstart
  let here : Cursor := ⟨[], endpointChars method url (gap ++ title)⟩
  let final : Next Match := fun there caps => some ⟨here, there, caps⟩
  -- without braces there is no method
  have hbraces : ∀ {p : Pattern}, 1 ∉ p.groups → run p final here [] ≠ some m := by
    intro p hp hrun
    obtain ⟨there, caps, hleads, hfound⟩ := exists_of_run p hrun
    cases hfound
    rw [group?_eq_captured, hleads.captured_eq hp] at hmethod
    cases hmethod
  have habsent : run (.seq blanks urlPattern) final here [] ≠ some m := hbraces (by decide)
  have hopt : run (opt methodPattern) (run (.seq blanks urlPattern) final) here [] = some m :=
    (cases_of_opt hstart).resolve_right (hbraces (p := urlPattern) (by decide))
  obtain ⟨read, back, before, hopen, hblanks⟩ := exists_of_methodPattern ((cases_of_opt hopt).resolve_right habsent)
  obtain ⟨skipped, start, rfl, hskipped, hword⟩ := exists_of_runChars hblanks
  obtain ⟨word, behind, hcons, -, -, hbehind⟩ := exists_of_group_charsLazy1 hword
  obtain rfl : start = word ++ behind := hcons
  obtain ⟨there, caps, hleads, hfound⟩ := exists_of_run titlePattern hbehind
  cases hfound
  -- the first two groups are those of the line
  rw [group?_eq_captured, hleads.captured_eq (by decide), captured_cons, if_neg (show (2 : Nat) ≠ 1 by decide),
    captured_cons, if_pos rfl, text_span, Option.some_inj, String.ofList_inj] at hmethod
  rw [Match.group, group?_eq_captured, hleads.captured_eq (by decide), captured_cons, if_pos rfl, Option.getD_some,
    text_span, String.ofList_inj] at hurl
  subst hmethod hurl
  -- so what stands behind them is the same
  have hsame : [' '] ++ (word ++ (gap ++ title)) = skipped ++ (word ++ behind) :=
    (List.cons.inj (List.append_cancel_left (List.cons.inj hopen).2)).2
  have hdrop := congrArg dropBlanks hsame
  rw [dropBlanks_append (by decide), dropBlanks_append hskipped, dropBlanks_eq_self (h.head?_url_append _),
    dropBlanks_eq_self (h.head?_url_append _)] at hdrop
  exact h.newline_not_mem_title (List.append_cancel_left hdrop).symm hbehind

end IsEndpoint

/-! ### The line -/

/-- The line that opens an endpoint. -/
def endpointLine (method url title : String) : String :=
  "\x7b" ++ method ++ "\x7d " ++ url ++ (if title = "" then "" else " " ++ title)

/-- What is read of a line and what follows it: the line up to the url, and behind
blanks the title and what follows, without blanks around them. -/
theorem exists_trim_endpointLine {method url more : String} (title : String) (hmethod : method ≠ "")
    (hbrace : '}' ∉ method.toList) (hnewline : '\n' ∉ method.toList) (hurl : url ≠ "")
    (hblank : ∀ c ∈ url.toList, isBlank c = false) (hmore : ∀ c ∈ more.toList.head?, c = '\n') :
    ∃ gap, IsEndpoint method.toList url.toList gap (trim (title ++ more)).toList ∧
      trim (endpointLine method url title ++ more) =
        String.ofList (endpointChars method.toList url.toList (gap ++ (trim (title ++ more)).toList)) := by
  have hurl' : url.toList ≠ [] := by simpa using hurl
  let line := '{' :: (method.toList ++ '}' :: ' ' :: url.toList)
  let behind := (if title = "" then "" else " " ++ title).toList ++ more.toList
  have hline : IsTrimmed line := by
    have heq : line = ('{' :: (method.toList ++ ['}', ' '])) ++ url.toList := by simp [line]
    rw [heq]
    exact .append_of_ne_nil (fun c hc => by cases hc; rfl) (isTrimmed_of_forall hblank) hurl'
  have htext : (endpointLine method url title ++ more).toList = line ++ behind := by
    simp [endpointLine, line, behind]
  have hbehind : ∀ c ∈ behind.head?, isBlank c = true := by
    intro c hc
    by_cases htitle : title = ""
    · simp only [behind, htitle, ↓reduceIte, String.toList_empty, List.nil_append] at hc
      rw [hmore c hc]
      decide
    · simp only [behind, htitle, ↓reduceIte, String.toList_append] at hc
      cases hc
      decide
  have hstrip : stripBlanks behind = (trim (title ++ more)).toList := by
    rw [trim, String.toList_ofList, String.toList_append]
    by_cases htitle : title = ""
    · simp [behind, htitle]
    · have hblanks : behind = [' '] ++ (title.toList ++ more.toList) := by simp [behind, htitle]
      rw [stripBlanks, hblanks, dropBlanks_append (by decide), stripBlanks]
  obtain ⟨gap, hgap, hgapBlank, hgapNil⟩ := exists_dropBlanksEnd behind
  have htrimmed := isTrimmed_stripBlanks behind
  rw [hstrip] at hgap hgapNil htrimmed
  refine ⟨gap, ?_, ?_⟩
  · exact {
      method_ne_nil := by simpa using hmethod
      brace := hbrace
      newline := hnewline
      url_ne_nil := hurl'
      not_blank := hblank
      blank := hgapBlank
      title_head := htrimmed.head
      gap_eq_nil_iff := by
        refine ⟨fun hnil => ?_, hgapNil⟩
        -- what stands behind the url starts with a blank
        by_contra hfilled
        obtain ⟨c, cs, hcons⟩ := List.exists_cons_of_ne_nil hfilled
        obtain ⟨after, hafter⟩ := dropBlanksEnd_prefix behind
        rw [hgap, hnil, List.nil_append, hcons] at hafter
        have hc := htrimmed.head c (by rw [hcons]; rfl)
        rw [hbehind c (by rw [← hafter]; rfl)] at hc
        cases hc }
  · rw [trim, htext, hline.stripBlanks_append (List.cons_ne_nil _ _), hgap]
    simp [line, endpointChars]

/-- **With one line behind the url at most, a line is read as it is written.** -/
theorem readEndpoint_line {method url title more : String} (hmethod : method ≠ "")
    (hbrace : '}' ∉ method.toList) (hnewline : '\n' ∉ method.toList) (hurl : url ≠ "")
    (hblank : ∀ c ∈ url.toList, isBlank c = false) (hmore : ∀ c ∈ more.toList.head?, c = '\n')
    (htitle : '\n' ∉ (trim (title ++ more)).toList) :
    readEndpoint (endpointLine method url title ++ more) =
      some (.obj [("type", .str method), ("url", .str url), ("title", .str (trim (title ++ more)))]) := by
  obtain ⟨gap, hline, htrim⟩ := exists_trim_endpointLine title hmethod hbrace hnewline hurl hblank hmore
  obtain ⟨m, hm, hread⟩ := hline.exists_match htitle
  rw [readEndpoint, htrim, hm, Option.map_some, hread.method, hread.url, hread.title]
  simp [Json.ofPresent]

/-- **A line with its lines below is read as it is written if and only if title and
lines below are one line at most.** -/
theorem readEndpoint_line_iff {method url title more : String} (hmethod : method ≠ "") (hbrace : '}' ∉ method.toList)
    (hnewline : '\n' ∉ method.toList) (hurl : url ≠ "") (hblank : ∀ c ∈ url.toList, isBlank c = false)
    (hmore : ∀ c ∈ more.toList.head?, c = '\n') :
    (∃ endpoint, readEndpoint (endpointLine method url title ++ more) = some endpoint ∧
      endpoint.getStr? "type" = some method ∧ endpoint.getStr? "url" = some url) ↔
      '\n' ∉ (trim (title ++ more)).toList := by
  constructor
  · rintro ⟨endpoint, hread, htype, hurlRead⟩
    obtain ⟨gap, hline, htrim⟩ := exists_trim_endpointLine title hmethod hbrace hnewline hurl hblank hmore
    rw [readEndpoint, htrim, Option.map_eq_some_iff] at hread
    obtain ⟨m, hm, rfl⟩ := hread
    have hnone : (Json.ofPresent []).get? "type" = none := rfl
    refine hline.newline_not_mem hm ?_ ?_
    · cases hgroup : m.group? 1 with
      | none => simp [Json.getStr?, get?_ofPresent_cons, hgroup, hnone] at htype
      | some read => simpa [Json.getStr?, get?_ofPresent_cons, hgroup, Json.str?] using htype
    · simpa [Json.getStr?, get?_ofPresent_cons, Json.str?] using hurlRead
  · intro htitle
    exact ⟨_, readEndpoint_line hmethod hbrace hnewline hurl hblank hmore htitle, rfl, rfl⟩

/-- Empty lines below the line do no harm, nor does a first line of text without a
title. -/
theorem readEndpoint_line_iff_user :
    (∃ endpoint, readEndpoint (endpointLine "get" "/user/:id" "Read data of a User" ++ "\n\n  ") = some endpoint ∧
        endpoint.getStr? "type" = some "get" ∧ endpoint.getStr? "url" = some "/user/:id") ∧
      ∃ endpoint, readEndpoint (endpointLine "get" "/user/:id" "" ++ "\n  Read data of a User") = some endpoint ∧
        endpoint.getStr? "type" = some "get" ∧ endpoint.getStr? "url" = some "/user/:id" :=
  ⟨(readEndpoint_line_iff (by decide) (by decide) (by decide) (by decide) (by decide) (by simp)).mpr
      (by decide +kernel),
    (readEndpoint_line_iff (by decide) (by decide) (by decide) (by decide) (by decide) (by simp)).mpr
      (by decide +kernel)⟩

/-- A line below the title makes the title a part of the url, and of two lines nothing
is read. -/
theorem lines_below_title :
    endpointLine "get" "/a" "T" = "\x7bget\x7d /a T" ∧
      (readEndpoint "\x7bget\x7d /a T\nmore").bind (Json.getStr? "url") = some "/a T" ∧
      (readEndpoint "\x7bget\x7d /a T\nmore").bind (Json.getStr? "title") = some "more" ∧
      (readEndpoint "\x7bget\x7d /a T\nmore\nlines").isNone := by
  decide +kernel

end Tag
end Docblock
