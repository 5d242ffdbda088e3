/-
# Code files as examples

A code element names a file, perhaps a language before it, and perhaps a title
behind it (`CodeReference`). All three are read as they are written
(`exists_code_match`), and if the file has a text, the element is replaced by an
example with this text (`codeExpansion_of_isSaidBy`).

The example is written as text once more, its head in the first line and the
code below, and read back from there. Head and code come apart at the first end
of line (`readExample_of_filled`). But the blanks at the end of the text are
dropped before, and with a code of nothing but blanks this end of line is one of
them, so there is no example at all (`readExample_of_blank`).

Key definitions: `Tag.CodeReference`, `Tag.CodeReference.element`,
`Tag.exampleSource`, `Tag.exampleOf`.
Key theorems: `Tag.exists_code_match`, `Tag.codeExpansion_of_isSaidBy`,
`Tag.exists_head_match`, `Tag.readExample_of_blank`,
`Tag.readExample_of_filled`.
-/
import Docblock.Proofs.Pattern.First
import Docblock.Proofs.Text.Cut
import Docblock.Proofs.Text.Indent
import Docblock.Tag.Expansion

namespace Docblock
namespace Tag

open Pattern Text

variable {next : Next Match} {rest : List Char} {caps : Captures} {P : Match → Prop}

/-! ### What a code element says -/

/-- A file with code: perhaps a language, the name of the file, and a title, which
may be empty. -/
structure CodeReference where
  language : Option String
  file : String
  title : String
  isLanguage : ∀ l ∈ language, l ≠ "" ∧ ∀ c ∈ l.toList, alnumOr "_-" c = true
  file_ne : file ≠ ""
  brace : '}' ∉ file.toList
  isTrimmed : IsTrimmed title.toList
  newline : '\n' ∉ title.toList

/-- A language in parentheses, if there is one. -/
def languageChars : Option String → List Char
  | none => []
  | some l => '(' :: (l.toList ++ [')'])

namespace CodeReference

/-- The file in braces, and the title behind it. -/
def fileChars (r : CodeReference) (between : List Char) : List Char :=
  "\x7bfile=".toList ++ (r.file.toList ++ '}' :: (between ++ r.title.toList))

theorem head?_fileChars (r : CodeReference) (between : List Char) : (r.fileChars between).head? = some '{' := rfl

/-- The text says what the reference says, with any blanks between the pieces. -/
def IsSaidBy (r : CodeReference) (content : String) : Prop :=
  ∃ gap between, (∀ c ∈ gap, isBlank c = true) ∧ (∀ c ∈ between, isBlank c = true) ∧
    trim content = String.ofList (languageChars r.language ++ (gap ++ r.fileChars between))

/-- The language that is shown: the one that is named, or that of the file. -/
def shownLanguage (r : CodeReference) : String := r.language.getD (codeLanguage (trim r.file))

/-- The title that is shown. -/
def shownTitle (r : CodeReference) : String := if r.title = "" then "Code Example" else r.title

end CodeReference

/-! ### Reading a code element -/

/-- A language in parentheses. -/
def languagePattern : Pattern := all [lit "(", .group 1 (chars1 (alnumOr "_-")), lit ")"]

/-- A file in braces and a title up to the end. -/
def filePattern : Pattern :=
  all [lit "\x7bfile=", .group 2 (chars1 (· != '}')), lit "\x7d", blanks, .group 3 (.chars notNewline), .textEnd]

theorem codeContentPattern_eq :
    codeContentPattern = .seq .textStart (.seq (opt languagePattern) (.seq blanks filePattern)) := rfl

namespace CodeReference

variable (r : CodeReference)

/-- The file is taken up to its brace, and the title up to the end. -/
theorem accepts_file {between : List Char} (hbetween : ∀ c ∈ between, isBlank c = true)
    (h : Accepts next [] ((3, ⟨r.title.toList ++ [], []⟩) ::
      (2, ⟨r.file.toList ++ '}' :: (between ++ r.title.toList), '}' :: (between ++ r.title.toList)⟩) :: caps) P) :
    Accepts (run filePattern next) (r.fileChars between) caps P := by
  have htitle := accepts_group_chars (a := notNewline) (notNewline_of_not_mem r.newline) (by simp)
    (accepts_textEnd h)
  rw [List.append_nil] at htitle
  have hfile : ∀ c ∈ r.file.toList, (c != '}') = true := by
    intro c hc
    rw [bne_iff_ne]
    rintro rfl
    exact r.brace hc
  exact accepts_text "\x7bfile=" (accepts_group_chars1 (by simpa using r.file_ne) hfile (by simp)
    (accepts_lit rfl (accepts_chars hbetween r.isTrimmed.head htitle)))

/-- A language is taken if one is named. -/
theorem accepts_language (hrest : rest.head? ≠ some '(')
    (h : Accepts next rest ((r.language.map fun l => (1, ⟨l.toList ++ ')' :: rest, ')' :: rest⟩)).toList ++ caps) P) :
    Accepts (run (opt languagePattern) next) (languageChars r.language ++ rest) caps P := by
  have hlanguage := r.isLanguage
  cases hl : r.language with
  | none =>
    rw [hl] at h
    exact accepts_opt_absent (refuses_lit rfl hrest) h
  | some l =>
    rw [hl] at h hlanguage
    obtain ⟨hne, hchars⟩ := hlanguage l rfl
    have hopen : Accepts (run languagePattern next) ('(' :: (l.toList ++ ')' :: rest)) caps P :=
      accepts_lit rfl (accepts_group_chars1 (by simpa using hne) hchars (by simp; decide) (accepts_lit rfl h))
    have happend : languageChars (some l) ++ rest = '(' :: (l.toList ++ ')' :: rest) := by simp [languageChars]
    rw [happend]
    exact accepts_opt hopen

/-- **A code element is read as it is written.** -/
theorem exists_code_match {gap between : List Char} (hgap : ∀ c ∈ gap, isBlank c = true)
    (hbetween : ∀ c ∈ between, isBlank c = true) :
    ∃ m, codeContentPattern.find? (String.ofList (languageChars r.language ++ (gap ++ r.fileChars between))) = some m ∧
      m.group? 1 = r.language ∧ m.group 2 = r.file ∧ m.group? 3 = some r.title := by
  let behind := gap ++ r.fileChars between
  let ofTitle : Nat × Span := (3, ⟨r.title.toList ++ [], []⟩)
  let ofFile : Nat × Span :=
    (2, ⟨r.file.toList ++ '}' :: (between ++ r.title.toList), '}' :: (between ++ r.title.toList)⟩)
  let ofLanguage : Captures := (r.language.map fun l => (1, ⟨l.toList ++ ')' :: behind, ')' :: behind⟩)).toList
  let final : Next Match := fun there caps => some ⟨⟨[], languageChars r.language ++ behind⟩, there, caps⟩
  have hread : Accepts final [] (ofTitle :: ofFile :: ofLanguage ++ []) fun m =>
      m.group? 1 = r.language ∧ m.group 2 = r.file ∧ m.group? 3 = some r.title := by
    refine fun before => ⟨_, rfl, ?_, ?_, ?_⟩
    · cases hl : r.language with
      | none => simp [group?_eq_captured, captured, ofTitle, ofFile, ofLanguage, hl]
      | some l => simp [group?_eq_captured, captured, ofTitle, ofFile, ofLanguage, hl, text_span]
    · rw [Match.group, group?_eq_captured]
      simp [captured, ofTitle, ofFile, text_span]
    · simp [group?_eq_captured, captured, ofTitle, Span.text, Span.chars]
  have hfile := r.accepts_file hbetween hread
  have hbrace : ∀ c ∈ (r.fileChars between).head?, isBlank c = false := by
    rw [r.head?_fileChars]
    decide
  have hstart : behind.head? ≠ some '(' := by
    cases gap with
    | nil =>
      rw [show behind = r.fileChars between from rfl, r.head?_fileChars]
      decide
    | cons c gap =>
      rintro ⟨⟩
      exact absurd (hgap '(' List.mem_cons_self) (by decide)
  obtain ⟨m, hm, hread⟩ := r.accepts_language hstart (accepts_chars hgap hbrace hfile) []
  refine ⟨m, ?_, hread⟩
  rw [codeContentPattern_eq, find?, String.toList_ofList]
  exact search_of_matchAt? hm

end CodeReference

/-! ### The example that takes its place -/

/-- An example as text: type and title in the first line, the code below. -/
def exampleSource (language title code : String) : String :=
  "@apiExample \x7b" ++ language ++ "\x7d " ++ title ++ "\n" ++ code

/-- The element of an example with the text of the file. -/
def CodeReference.element (r : CodeReference) (code : String) : Element :=
  .new "apiExample" code (exampleSource r.shownLanguage r.shownTitle code)

/-- **A code element whose file has a text is replaced by an example.** -/
theorem codeExpansion_of_isSaidBy {tree : FileTree} {filename : String} {e : Element} {r : CodeReference}
    (h : r.IsSaidBy e.content) {code : String} (hcode : tree.readText? (Path.beside filename (trim r.file)) = some code) :
    codeExpansion tree filename e = some ([r.element code], []) := by
  obtain ⟨gap, between, hgap, hbetween, htrim⟩ := h
  obtain ⟨m, hm, hlanguage, hfile, htitle⟩ := r.exists_code_match hgap hbetween
  have hinfo : codeInfo m (trim r.file) = (r.shownLanguage, r.shownTitle) := by
    rw [codeInfo, hlanguage, htitle, CodeReference.shownLanguage, CodeReference.shownTitle]
    by_cases hempty : r.title = ""
    · simp [hempty, Option.filter]
    · simp [hempty, Option.filter]
  rw [codeExpansion, htrim]
  dsimp only
  rw [hm]
  dsimp only
  rw [hfile, hinfo]
  dsimp only
  rw [hcode]
  rfl

/-! ### Reading the example -/

/-- A type that an example can have: not empty, and of the characters of types. -/
def IsExampleType (language : String) : Prop :=
  language ≠ "" ∧ ∀ c ∈ language.toList, alnumOr "./\\[]_-" c = true

/-- The languages that files are shown in. -/
def codeLanguages : List String :=
  ["javascript", "typescript", "python", "java", "ruby", "php", "go", "rust", "cpp", "c", "csharp", "bash",
    "powershell", "json", "xml", "yaml", "markdown", "html", "css", "sql", "kotlin", "swift", "dart", "text"]

theorem codeLanguage_mem (file : String) : codeLanguage file ∈ codeLanguages := by
  unfold codeLanguage
  split <;> simp [codeLanguages]

theorem isBlank_of_typeChar {c : Char} (h : alnumOr "./\\[]_-" c = true) : isBlank c = false :=
  isBlank_of_alnumOr (by decide) h

theorem isExampleType_codeLanguage (file : String) : IsExampleType (codeLanguage file) := by
  have hall : ∀ l ∈ codeLanguages, l ≠ "" ∧ ∀ c ∈ l.toList, alnumOr "./\\[]_-" c = true := by decide +kernel
  exact hall _ (codeLanguage_mem file)

theorem CodeReference.isExampleType (r : CodeReference) : IsExampleType r.shownLanguage := by
  rw [shownLanguage]
  cases hl : r.language with
  | none =>
    rw [Option.getD_none]
    exact isExampleType_codeLanguage (trim r.file)
  | some l =>
    obtain ⟨hne, hchars⟩ := r.isLanguage l hl
    rw [Option.getD_some]
    refine ⟨hne, fun c hc => ?_⟩
    have hword := hchars c hc
    simp only [alnumOr, Bool.or_eq_true] at hword ⊢
    refine hword.imp id fun hother => ?_
    obtain rfl | rfl : c = '_' ∨ c = '-' := by simpa using hother
    · decide
    · decide

/-- The title that is shown is not empty, and one line without blanks around it. -/
theorem CodeReference.of_shownTitle (r : CodeReference) :
    r.shownTitle ≠ "" ∧ IsTrimmed r.shownTitle.toList ∧ '\n' ∉ r.shownTitle.toList := by
  rw [shownTitle]
  split
  · exact ⟨by decide, ⟨by decide, by decide⟩, by decide⟩
  · next hne => exact ⟨hne, r.isTrimmed, r.newline⟩

/-- The name of a tag, a type in braces and a title. -/
def headChars (name language title : List Char) : List Char :=
  '@' :: (name ++ ' ' :: '{' :: (language ++ '}' :: ' ' :: title))

/-- The name of the tag. -/
def tagNamePattern : Pattern := .group 1 (all [lit "@", .chars Text.isAsciiWord])

/-- A type in braces. -/
def exampleTypePattern : Pattern :=
  all [blanks, lit "\x7b", blanks, .group 2 (chars1 (alnumOr "./\\[]_-")), blanks, lit "\x7d", blanks]

/-- A type in braces, if there is one, and the rest of the line. -/
def typedTitlePattern : Pattern := .seq (opt exampleTypePattern) (.seq blanks (.group 3 (.chars notNewline)))

theorem exampleHeadPattern_eq :
    exampleHeadPattern = .seq .textStart (.seq (opt tagNamePattern) (opt typedTitlePattern)) := rfl

/-- A name is taken up to the blank behind it. -/
theorem accepts_tagName {name : List Char} (hname : ∀ c ∈ name, Text.isAsciiWord c = true)
    (hrest : ∀ c ∈ rest.head?, Text.isAsciiWord c = false)
    (h : ∀ span, Accepts next rest ((1, span) :: caps) P) :
    Accepts (run tagNamePattern next) ('@' :: (name ++ rest)) caps P :=
  accepts_group (accepts_lit rfl (accepts_chars hname hrest fun before => h _ before))

/-- A type is taken from its braces, with the blanks behind them. -/
theorem accepts_exampleType {language : String} (hlanguage : IsExampleType language)
    (hrest : ∀ c ∈ rest.head?, isBlank c = false)
    (h : Accepts next rest ((2, ⟨language.toList ++ '}' :: ' ' :: rest, '}' :: ' ' :: rest⟩) :: caps) P) :
    Accepts (run exampleTypePattern next) ([' '] ++ '{' :: (language.toList ++ '}' :: ' ' :: rest)) caps P := by
  obtain ⟨hne, hchars⟩ := hlanguage
  have hne' : language.toList ≠ [] := by simpa using hne
  have hhead : ∀ c ∈ (language.toList ++ '}' :: ' ' :: rest).head?, isBlank c = false := by
    intro c hc
    rw [List.head?_append_of_ne_nil _ hne'] at hc
    exact isBlank_of_typeChar (hchars c (List.mem_of_mem_head? hc))
  have hclose : Accepts (run blanks (run (lit "\x7d") (run blanks next))) ('}' :: ([' '] ++ rest))
      ((2, ⟨language.toList ++ '}' :: ' ' :: rest, '}' :: ' ' :: rest⟩) :: caps) P :=
    accepts_chars_nil (by simp [isBlank]) (accepts_lit rfl (accepts_chars (by decide) hrest h))
  have hbrace : isBlank '{' = false := by decide
  exact accepts_chars (by decide) (by simpa using hbrace) (accepts_lit rfl (accepts_chars_nil hhead
    (accepts_group_chars1 hne' hchars (by simp; decide) hclose)))

/-- **The first line of an example is read as it is written.** -/
theorem exists_head_match {name : List Char} {language title : String} (hname : ∀ c ∈ name, Text.isAsciiWord c = true)
    (hlanguage : IsExampleType language) (htrimmed : IsTrimmed title.toList) (hline : '\n' ∉ title.toList) :
    ∃ m, exampleHeadPattern.find? (String.ofList (headChars name language.toList title.toList)) = some m ∧
      m.group? 2 = some language ∧ m.group? 3 = some title := by
  let text := headChars name language.toList title.toList
  let ofType : Nat × Span := (2, ⟨language.toList ++ '}' :: ' ' :: title.toList, '}' :: ' ' :: title.toList⟩)
  let final : Next Match := fun there caps => some ⟨⟨[], text⟩, there, caps⟩
  have hread : ∀ span, Accepts final [] [(3, ⟨title.toList ++ [], []⟩), ofType, (1, span)] fun m =>
      m.group? 2 = some language ∧ m.group? 3 = some title := by
    refine fun span before => ⟨_, rfl, ?_, ?_⟩
    · simp [group?_eq_captured, captured, ofType, text_span]
    · simp [group?_eq_captured, captured, Span.text, Span.chars]
  have htitle : ∀ span, Accepts (run (.group 3 (.chars notNewline)) final) (title.toList ++ []) [ofType, (1, span)]
      fun m => m.group? 2 = some language ∧ m.group? 3 = some title :=
    fun span => accepts_group_chars (notNewline_of_not_mem hline) (by simp) (hread span)
  rw [List.append_nil] at htitle
  have hword : Text.isAsciiWord ' ' = false := by decide
  have htyped : ∀ span, Accepts (run typedTitlePattern final)
      ([' '] ++ '{' :: (language.toList ++ '}' :: ' ' :: title.toList)) [(1, span)] fun m =>
      m.group? 2 = some language ∧ m.group? 3 = some title :=
    fun span => accepts_opt (accepts_exampleType hlanguage htrimmed.head
      (accepts_chars_nil htrimmed.head (htitle span)))
  obtain ⟨m, hm, hread⟩ := accepts_opt (accepts_tagName hname (by simpa using hword) fun span =>
    accepts_opt (htyped span)) []
  refine ⟨m, ?_, hread⟩
  rw [exampleHeadPattern_eq, find?, String.toList_ofList]
  exact search_of_matchAt? hm

/-! ### Head and code -/

/-- The example with the code below its head, without the indentation of the code
and the blanks at its end. -/
def exampleOf (language title code : String) : Json :=
  .obj [("title", .str title), ("content", .str (trimEnd (unindent code))), ("type", .str language)]

section Source

variable {language title : String}

/-- The tag of an example. -/
def exampleName : List Char := "apiExample".toList

theorem toList_exampleSource (language title code : String) : (exampleSource language title code).toList =
    headChars exampleName language.toList title.toList ++ '\n' :: code.toList := by
  have hopen : "@apiExample \x7b".toList = '@' :: (exampleName ++ [' ', '{']) := by decide
  have hclose : "\x7d ".toList = ['}', ' '] := by decide
  have hend : "\n".toList = ['\n'] := by decide
  show ("@apiExample \x7b" ++ language ++ "\x7d " ++ title ++ "\n" ++ code).toList = _
  simp only [String.toList_append, hopen, hclose, hend, headChars, List.append_assoc, List.cons_append,
    List.nil_append]

/-- The first line ends with its title, without blanks. -/
theorem isTrimmed_headChars (htitle : title ≠ "") (htrimmed : IsTrimmed title.toList) (name language : List Char) :
    IsTrimmed (headChars name language title.toList) := by
  have hsplit : headChars name language title.toList =
      ('@' :: (name ++ ' ' :: '{' :: (language ++ ['}', ' ']))) ++ title.toList := by simp [headChars]
  rw [hsplit]
  refine .append_of_ne_nil (fun c hc => ?_) htrimmed (by simpa using htitle)
  cases hc
  decide

theorem newline_not_mem_headChars (hlanguage : IsExampleType language) (hline : '\n' ∉ title.toList) :
    '\n' ∉ headChars exampleName language.toList title.toList := by
  have hlanguage' : '\n' ∉ language.toList := fun hmem =>
    absurd (isBlank_of_typeChar (hlanguage.2 _ hmem)) (by decide)
  have hname : '\n' ∉ exampleName := by decide
  simp [headChars, hname, hlanguage', hline]

/-- **Code of nothing but blanks leaves no example.** With the blanks at the end
the end of the first line is dropped. -/
theorem readExample_of_blank (hlanguage : IsExampleType language) (htitle : title ≠ "")
    (htrimmed : IsTrimmed title.toList) (hline : '\n' ∉ title.toList) {code : String}
    (hcode : ∀ c ∈ code.toList, isBlank c = true) : readExample (exampleSource language title code) = none := by
  have hdrop : dropBlanksEnd ('\n' :: code.toList) = [] :=
    (dropBlanksEnd_eq_nil_iff _).mpr (List.forall_mem_cons.mpr ⟨by decide, hcode⟩)
  have htrim : trim (exampleSource language title code) =
      String.ofList (headChars exampleName language.toList title.toList) := by
    rw [trim, toList_exampleSource, (isTrimmed_headChars htitle htrimmed _ _).stripBlanks_append
      (List.cons_ne_nil _ _), hdrop, List.append_nil]
  have hcut : cutOnce? "\n" (String.ofList (headChars exampleName language.toList title.toList)) = none := by
    have hnone : cutAt? ['\n'] (headChars exampleName language.toList title.toList) = none :=
      (cutAt?_eq_none_iff _ _).mpr fun h =>
        newline_not_mem_headChars hlanguage hline (h.subset List.mem_cons_self)
    have hend : "\n".toList = ['\n'] := by decide
    rw [cutOnce?, hend, String.toList_ofList, hnone]
    rfl
  rw [readExample, htrim, hcut]

/-- **Any other code is read back below its head**, without the blanks at its end
and without its indentation. -/
theorem readExample_of_filled (hlanguage : IsExampleType language) (htitle : title ≠ "")
    (htrimmed : IsTrimmed title.toList) (hline : '\n' ∉ title.toList) {code : String}
    (hcode : ∃ c ∈ code.toList, isBlank c = false) :
    readExample (exampleSource language title code) = some (exampleOf language title code) := by
  have hfilled : dropBlanksEnd code.toList ≠ [] := by
    rw [ne_eq, dropBlanksEnd_eq_nil_iff]
    obtain ⟨c, hc, hblank⟩ := hcode
    intro hall
    rw [hall c hc] at hblank
    cases hblank
  have htrim : trim (exampleSource language title code) =
      String.ofList (headChars exampleName language.toList title.toList ++ '\n' :: (trimEnd code).toList) := by
    have hbelow : dropBlanksEnd (['\n'] ++ code.toList) = '\n' :: dropBlanksEnd code.toList :=
      dropBlanksEnd_append hfilled ['\n']
    rw [trim, toList_exampleSource, (isTrimmed_headChars htitle htrimmed _ _).stripBlanks_append
      (List.cons_ne_nil _ _), ← List.singleton_append, hbelow, trimEnd, String.toList_ofList]
  have hcut : cutOnce? "\n" (trim (exampleSource language title code)) =
      some (String.ofList (headChars exampleName language.toList title.toList), trimEnd code) := by
    have hend : "\n".toList = ['\n'] := by decide
    rw [htrim, cutOnce?, hend, String.toList_ofList, cutAt?_singleton (newline_not_mem_headChars hlanguage hline),
      Option.map_some]
    dsimp only
    rw [String.ofList_toList]
  have hname : ∀ c ∈ exampleName, Text.isAsciiWord c = true := by decide
  obtain ⟨m, hm, hlanguageRead, htitleRead⟩ := exists_head_match hname hlanguage htrimmed hline
  have hbody : (trimEnd code).isEmpty = false := by
    simpa [trimEnd] using hfilled
  rw [readExample, hcut]
  simp only [hbody, Bool.false_eq_true, ↓reduceIte, hm, Option.bind_some, hlanguageRead, htitleRead]
  simp [htitle, Option.filter, exampleOf, Json.ofPresent, unindent_trimEnd]

end Source

end Tag
end Docblock
