/-
# Lists of allowed values

A list of values with commas between them is read by searching for values one
after the other. Where each value is found whole at its place, and nothing is
found at a comma, the search walks from comma to comma and gives the list back
(`texts_matchesFrom`). A value without blanks and commas is found whole
(`finds_bare`), and so is a value in quotes that has none inside
(`finds_quoted`), unless it is empty: what is found has something between the
quotes (`exists_ne_of_quoted`), so two quotes with nothing between them are
taken for the end of one value and the start of the next
(`splitAllowedValues_join`).

Key definitions: `Tag.Finds`, `Tag.quotedValue`.
Key theorems: `Tag.texts_matchesFrom`, `Tag.findAll_quoted_iff`,
`Tag.splitAllowedValues_join`.
-/
import Docblock.Proofs.Pattern.Replace
import Docblock.Proofs.Text.Line
import Docblock.Tag.Grammar

namespace Docblock
namespace Tag

open Pattern Text

variable {p : Pattern}

/-! ### Pieces with commas between them -/

/-- The pattern takes the piece wherever it stands, if a comma or nothing follows. -/
def Finds (p : Pattern) (piece : List Char) : Prop :=
  ∀ before rest, (∀ c ∈ rest.head?, c = ',') →
    ∃ m, matchAt? p ⟨before, piece ++ rest⟩ = some m ∧ m.stop.rest = rest

/-- There is no match of the pattern that starts with a comma. -/
def SkipsCommas (p : Pattern) : Prop := ∀ before rest, matchAt? p ⟨before, ',' :: rest⟩ = none

theorem head?_behindEnds (ending : Char) (pieces : List (List Char)) :
    ∀ c ∈ (behindEnds ending pieces).head?, c = ending := by
  cases pieces with
  | nil => simp [behindEnds_nil]
  | cons piece pieces => simp [behindEnds_cons]

/-- The step: what is found of a piece is the piece. -/
theorem Finds.search {piece : List Char} (h : Finds p piece) (before : List Char) (pieces : List (List Char)) :
    ∃ m, Pattern.search p before (piece ++ behindEnds ',' pieces) = some m ∧
      m.text = String.ofList piece ∧ m.stop.rest = behindEnds ',' pieces := by
  obtain ⟨m, hm, hstop⟩ := h before _ (head?_behindEnds ',' pieces)
  refine ⟨m, search_of_matchAt? hm, ?_, hstop⟩
  rw [Match.text, Match.span, (start_of_matchAt? hm).1, hstop, text_span]

/-- **The run: pieces behind commas are found one after the other.** -/
theorem texts_matchesFrom (hp : TakesSomething p) (hcomma : SkipsCommas p) :
    ∀ {pieces : List (List Char)} {fuel : Nat} {here : Cursor}, (∀ piece ∈ pieces, Finds p piece) →
      here.rest = behindEnds ',' pieces → pieces.length < fuel →
      (matchesFrom p fuel here).map Match.text = pieces.map String.ofList
  | _, 0, _, _, _, hfuel => absurd hfuel (Nat.not_lt_zero _)
  | [], fuel + 1, here, _, hrest, _ => by
    have hnone : search p here.before here.rest = none := by
      rw [hrest, Option.eq_none_iff_forall_ne_some]
      intro m hm
      have hmatch : matchAt? p ⟨here.before, []⟩ = some m := hm
      have htakes := hp _ _ hmatch
      obtain ⟨hstart, hsuffix⟩ := start_of_matchAt? hmatch
      simp [Match.isEmpty, hstart, List.suffix_nil.mp hsuffix] at htakes
    rw [matchesFrom_succ hp, hnone]
    rfl
  | piece :: pieces, fuel + 1, here, hfinds, hrest, hfuel => by
    rw [List.forall_mem_cons] at hfinds
    obtain ⟨m, hm, htext, hstop⟩ := hfinds.1.search (',' :: here.before) pieces
    have hsearch : search p here.before here.rest = some m := by
      rw [hrest, behindEnds_cons, search_cons_of_none (hcomma _ _), hm]
    have ih := texts_matchesFrom hp hcomma hfinds.2 hstop (Nat.lt_of_succ_lt_succ hfuel)
    rw [matchesFrom_succ hp, hsearch, List.map_cons, List.map_cons, htext, ih]

theorem toList_join_comma (piece : String) (pieces : List String) :
    (join "," (piece :: pieces)).toList = piece.toList ++ behindEnds ',' (pieces.map String.toList) := by
  have hsep : ",".toList = [','] := by decide
  rw [join, String.toList_intercalate, hsep, List.map_cons, intercalate_eq_behindEnds]

/-- So are pieces with commas between them. -/
theorem texts_findAll_join (hp : TakesSomething p) (hcomma : SkipsCommas p) {pieces : List String}
    (hfinds : ∀ piece ∈ pieces, Finds p piece.toList) (hne : pieces ≠ []) :
    (findAll p (join "," pieces)).map Match.text = pieces := by
  obtain ⟨piece, pieces, rfl⟩ := List.exists_cons_of_ne_nil hne
  rw [List.forall_mem_cons] at hfinds
  obtain ⟨m, hm, htext, hstop⟩ := hfinds.1.search [] (pieces.map String.toList)
  have hfirst : find? p (join "," (piece :: pieces)) = some m := by
    rw [find?, toList_join_comma, hm]
  have hfuel : (pieces.map String.toList).length < (join "," (piece :: pieces)).length + 1 := by
    have hlength := length_le_behindEnds ',' (pieces.map String.toList)
    rw [← String.length_toList, toList_join_comma, List.length_append]
    omega
  have hlater := texts_matchesFrom hp hcomma (by simpa using hfinds.2) hstop hfuel
  simp only [findAll, hfirst, List.map_cons, htext, hlater, String.ofList_toList, List.map_map, Function.comp_def,
    List.map_id']

/-! ### Values in quotes -/

/-- A value in quotes, as the splitter looks for it. -/
def quotedValue (quote : String) (mark : Char) : Pattern :=
  all [lit quote, .chars (· != mark), .one (· != mark), lit quote]

section Quoted

variable {quote : String} {mark : Char}

theorem takesSomething_quotedValue (hquote : quote.toList = [mark]) : TakesSomething (quotedValue quote mark) := by
  refine takesSomething_of_one (a := (· == mark)) (q := all [.chars (· != mark), .one (· != mark), lit quote])
    fun next => ?_
  rw [← lit_of_toList hquote]
  rfl

theorem skipsCommas_quotedValue (hquote : quote.toList = [mark]) (hmark : mark ≠ ',') :
    SkipsCommas (quotedValue quote mark) := by
  intro before rest
  exact refuses_lit hquote (by simpa using Ne.symm hmark) before

/-- A value with something in it is found with its quotes. -/
theorem finds_quoted (hquote : quote.toList = [mark]) {value : List Char} (hne : value ≠ []) (hfree : mark ∉ value) :
    Finds (quotedValue quote mark) (mark :: (value ++ [mark])) := by
  intro before rest _
  obtain ⟨front, last, rfl⟩ : ∃ front last, value = front ++ [last] :=
    ⟨value.dropLast, value.getLast hne, (List.dropLast_append_getLast hne).symm⟩
  have hinside : ∀ c ∈ front ++ [last], (c != mark) = true := by
    intro c hc
    rw [bne_iff_ne]
    rintro rfl
    exact hfree hc
  have htext : mark :: (front ++ [last] ++ [mark]) ++ rest = mark :: (front ++ ([last] ++ mark :: rest)) := by simp
  have hend : Accepts (run (.one (· != mark)) (run (lit quote) fun there caps =>
      some (Match.mk ⟨before, mark :: (front ++ ([last] ++ mark :: rest))⟩ there caps)))
      ([last] ++ mark :: rest) [] fun m => m.stop.rest = rest :=
    accepts_one (hinside last (by simp)) (accepts_lit hquote fun _ => ⟨_, rfl, rfl⟩)
  -- the greedy run takes all of the value and gives its last character back
  rw [htext]
  refine accepts_lit hquote (accepts_chars_backtrack (fun c hc => hinside c (List.mem_append_left _ hc))
    (fun c hc => hinside c (List.mem_append_right _ hc)) (by simp) (fun taken left heq htaken => ?_) hend) before
  obtain rfl : left = [] := by
    cases taken with
    | nil => exact absurd rfl htaken
    | cons c taken => exact (List.append_eq_nil_iff.mp (List.cons.inj heq).2.symm).2
  exact refuses_one (by simp)

/-- Something stands between the quotes of what is found. -/
theorem exists_ne_of_quoted (hquote : quote.toList = [mark]) {here : Cursor} {m : Match}
    (h : matchAt? (quotedValue quote mark) here = some m) : ∃ c ∈ m.text.toList, c ≠ mark := by
  obtain ⟨inside, before, hopen, hvalue⟩ := exists_of_lit h
  obtain ⟨front, back, hinside, -, hlast⟩ := exists_of_runChars hvalue
  obtain ⟨c, close, hback, hc, hclose⟩ := exists_of_one hlast
  obtain ⟨rest, before', hrest, hend⟩ := exists_of_lit hclose
  cases hend
  dsimp only at hinside hback hrest
  have htext : here.rest = (mark :: (front ++ [c, mark])) ++ rest := by
    rw [hopen, hinside, hback, hrest, hquote]
    simp
  refine ⟨c, ?_, by simpa using hc⟩
  rw [Match.text, Match.span, htext, text_span]
  simp

/-- **Values in quotes are found again if and only if none is empty.** -/
theorem findAll_quoted_iff (hquote : quote.toList = [mark]) (hmark : mark ≠ ',') {values : List String}
    (hfree : ∀ v ∈ values, mark ∉ v.toList) (hne : values ≠ []) :
    (findAll (quotedValue quote mark) (join "," (values.map fun v => quote ++ v ++ quote))).map Match.text =
      values.map (fun v => quote ++ v ++ quote) ↔ "" ∉ values := by
  constructor
  · intro htexts hempty
    -- two quotes would be the text of a match
    have hmem : quote ++ "" ++ quote ∈ values.map fun v => quote ++ v ++ quote := List.mem_map_of_mem hempty
    rw [← htexts] at hmem
    obtain ⟨m, hm, htext⟩ := List.mem_map.mp hmem
    obtain ⟨here, -, hmatch⟩ := exists_of_mem_findAll hm
    obtain ⟨c, hc, hcmark⟩ := exists_ne_of_quoted hquote hmatch
    rw [htext] at hc
    exact hcmark (by simpa [hquote] using hc)
  · intro hempty
    refine texts_findAll_join (takesSomething_quotedValue hquote) (skipsCommas_quotedValue hquote hmark) ?_
      (by simpa using hne)
    intro piece hpiece
    obtain ⟨v, hv, rfl⟩ := List.mem_map.mp hpiece
    have hvalue : v.toList ≠ [] := fun hnil => hempty (by rwa [String.toList_eq_nil_iff.mp hnil] at hv)
    have hchars : (quote ++ v ++ quote).toList = mark :: (v.toList ++ [mark]) := by simp [hquote]
    rw [hchars]
    exact finds_quoted hquote hvalue (hfree v hv)

end Quoted

/-! ### Bare values -/

/-- A character of a bare value. -/
def isBare (c : Char) : Bool := c != ',' && !isBlank c

theorem finds_bare {value : List Char} (hne : value ≠ []) (hbare : ∀ c ∈ value, isBare c = true) :
    Finds (chars1 isBare) value := by
  intro before rest hrest
  obtain ⟨first, more, rfl⟩ := List.exists_cons_of_ne_nil hne
  rw [List.forall_mem_cons] at hbare
  have hend : ∀ c ∈ rest.head?, isBare c = false := by
    intro c hc
    rw [hrest c hc]
    decide
  have hvalue : Accepts (run (chars1 isBare) fun there caps =>
      some (Match.mk ⟨before, first :: more ++ rest⟩ there caps)) (first :: (more ++ rest)) []
      fun m => m.stop.rest = rest :=
    accepts_one hbare.1 (accepts_chars hbare.2 hend fun _ => ⟨_, rfl, rfl⟩)
  exact hvalue before

/-- **Bare values are found again.** -/
theorem findAll_bare {values : List String} (hbare : ∀ v ∈ values, v ≠ "" ∧ ∀ c ∈ v.toList, isBare c = true)
    (hne : values ≠ []) : (findAll (chars1 isBare) (join "," values)).map Match.text = values := by
  have htakes : TakesSomething (chars1 isBare) := takesSomething_of_one (a := isBare) (q := .chars isBare) fun _ => rfl
  have hcomma : SkipsCommas (chars1 isBare) := fun _ _ => rfl
  refine texts_findAll_join htakes hcomma (fun v hv => ?_) hne
  obtain ⟨hfilled, hchars⟩ := hbare v hv
  exact finds_bare (fun hnil => hfilled (String.toList_eq_nil_iff.mp hnil)) hchars

/-! ### The splitter -/

/-- What is looked for in a list that starts with the character. -/
def valuePattern : Option Char → Pattern
  | some '"' => quotedValue "\"" '"'
  | some '\'' => quotedValue "'" '\''
  | _ => chars1 isBare

theorem splitAllowedValues_eq (values : String) :
    splitAllowedValues values = (findAll (valuePattern values.toList.head?) values).map Match.text := rfl

theorem valuePattern_of_ne {first : Option Char} (hdouble : first ≠ some '"') (hsingle : first ≠ some '\'') :
    valuePattern first = chars1 isBare := by
  unfold valuePattern
  split
  · exact absurd rfl hdouble
  · exact absurd rfl hsingle
  · rfl

/-- A list starts like its first value. -/
theorem head?_join {piece : String} (hpiece : piece ≠ "") (pieces : List String) :
    (join "," (piece :: pieces)).toList.head? = piece.toList.head? := by
  have hne : piece.toList ≠ [] := fun hnil => hpiece (String.toList_eq_nil_iff.mp hnil)
  rw [toList_join_comma, List.head?_append_of_ne_nil _ hne]

theorem head?_join_quoted {quote : String} {mark : Char} (hquote : quote.toList = [mark]) {values : List String}
    (hne : values ≠ []) :
    (join "," (values.map fun v => quote ++ v ++ quote)).toList.head? = some mark := by
  obtain ⟨v, values, rfl⟩ := List.exists_cons_of_ne_nil hne
  rw [List.map_cons, toList_join_comma]
  simp [hquote]

/-- **Allowed values split into what was listed.** In quotes they do if and only if
none of them is empty; bare ones always do. -/
theorem splitAllowedValues_join {values : List String} (hne : values ≠ []) :
    ((∀ v ∈ values, '"' ∉ v.toList) →
      (splitAllowedValues (join "," (values.map fun v => "\"" ++ v ++ "\"")) =
        values.map (fun v => "\"" ++ v ++ "\"") ↔ "" ∉ values)) ∧
    ((∀ v ∈ values, '\'' ∉ v.toList) →
      (splitAllowedValues (join "," (values.map fun v => "'" ++ v ++ "'")) =
        values.map (fun v => "'" ++ v ++ "'") ↔ "" ∉ values)) ∧
    ((∀ v ∈ values, v ≠ "" ∧ (∀ c ∈ v.toList, c ≠ ',' ∧ isBlank c = false) ∧
        v.toList.head? ≠ some '"' ∧ v.toList.head? ≠ some '\'') →
      splitAllowedValues (join "," values) = values) := by
  refine ⟨fun hfree => ?_, fun hfree => ?_, fun hbare => ?_⟩
  · rw [splitAllowedValues_eq, head?_join_quoted rfl hne]
    exact findAll_quoted_iff rfl (by decide) hfree hne
  · rw [splitAllowedValues_eq, head?_join_quoted rfl hne]
    exact findAll_quoted_iff rfl (by decide) hfree hne
  · have hfirst : valuePattern (join "," values).toList.head? = chars1 isBare := by
      obtain ⟨v, more, rfl⟩ := List.exists_cons_of_ne_nil hne
      obtain ⟨hfilled, -, hdouble, hsingle⟩ := hbare v List.mem_cons_self
      rw [head?_join hfilled]
      exact valuePattern_of_ne hdouble hsingle
    rw [splitAllowedValues_eq, hfirst]
    refine findAll_bare (fun v hv => ?_) hne
    obtain ⟨hfilled, hchars, -⟩ := hbare v hv
    exact ⟨hfilled, fun c hc => by simp [isBare, hchars c hc]⟩

/-- Commas and the other quotes may stand in quotes. -/
theorem splitAllowedValues_join_sizes :
    let inDouble := ["small, tall", "it's"]
    let inSingle := ["a \"b\"", ","]
    let bare := ["1", "x\"l", "3"]
    splitAllowedValues (join "," (inDouble.map fun v => "\"" ++ v ++ "\"")) = inDouble.map (fun v => "\"" ++ v ++ "\"") ∧
      splitAllowedValues (join "," (inSingle.map fun v => "'" ++ v ++ "'")) = inSingle.map (fun v => "'" ++ v ++ "'") ∧
      splitAllowedValues (join "," bare) = bare := by
  intro inDouble inSingle bare
  have hdouble : inDouble ≠ [] := by decide
  have hsingle : inSingle ≠ [] := by decide
  have hbare : bare ≠ [] := by decide
  exact ⟨((splitAllowedValues_join hdouble).1 (by decide)).mpr (by decide),
    ((splitAllowedValues_join hsingle).2.1 (by decide)).mpr (by decide),
    (splitAllowedValues_join hbare).2.2 (by decide)⟩

/-- Behind an empty value in quotes what stands between the values is taken for
one. -/
theorem empty_value_shifts_quotes :
    (∀ v ∈ ["", "a"], '"' ∉ v.toList) ∧ ["", "a"].map (fun v => "\"" ++ v ++ "\"") = ["\"\"", "\"a\""] ∧
      splitAllowedValues (join "," (["", "a"].map fun v => "\"" ++ v ++ "\"")) = ["\",\""] := by
  decide +kernel

end Tag
end Docblock
