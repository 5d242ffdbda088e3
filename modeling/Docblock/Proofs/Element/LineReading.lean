/-
# Reading a comment line by line

Elements can be read without patterns and places: one for each line that
starts with a known tag, with the text up to the next such line
(`readLines`). Finding elements agrees with this reading
(`findElements_eq_readLines`): each known tag that is found is that of a line,
it is cut up to the next one, and turning ends of lines into marks and back
changes neither the blanks behind the name nor the place of the first `*/`.

Key definitions: `Element.untilClose`, `Element.TagLine.element`,
`Element.readLines`.
Key theorems: `Element.cutElement_found`, `Element.findElements_eq_readLines`.
-/
import Docblock.Proofs.Element.Slice
import Docblock.Proofs.Element.Starts

namespace Docblock
namespace Element

open Text

/-! ### The reading -/

/-- The characters before the first `*/`. -/
def untilClose : List Char → List Char
  | [] => []
  | c :: cs => if c = '*' ∧ cs.head? = some '/' then [] else c :: untilClose cs

/-- A blank that does not end a line. -/
def isSpace (c : Char) : Bool := isBlank c && c != '\n'

/-- The element of a tag; `more` are the further lines up to the next tag. -/
def TagLine.element (t : TagLine) (more : List (List Char)) : Element :=
  let text := t.rest ++ behindEnds '\n' more
  let content := untilClose (text.dropWhile isSpace)
  .new (String.ofList t.name) (String.ofList content)
    (String.ofList (t.lead ++ '@' :: t.name ++ text.takeWhile isSpace ++ content))

/-- Whether a line does not start with a known tag. -/
def isPlain (line : List Char) : Bool := (tagLine? line).isNone

/-- The elements of lines. -/
def readLines : List (List Char) → List Element
  | [] => []
  | line :: lines =>
    match tagLine? line with
    | some t => t.element (lines.takeWhile isPlain) :: readLines lines
    | none => readLines lines

/-! ### Marks and ends of lines -/

/-- A character of a text whose lines are as they were. -/
def restore (c : Char) : Char := if c == lineMark then '\n' else c

theorem unflatten_ofList (cs : List Char) :
    unflatten (String.ofList cs) = String.ofList (cs.map restore) := by
  rw [unflatten, replaceChar, String.toList_ofList]
  rfl

theorem map_restore_of_not_mem {cs : List Char} (h : lineMark ∉ cs) : cs.map restore = cs :=
  map_replace_of_not_mem h

theorem map_restore_behindEnds {lines : List (List Char)} (h : ∀ l ∈ lines, lineMark ∉ l) :
    (behindEnds lineMark lines).map restore = behindEnds '\n' lines :=
  map_replace_behindEnds h

theorem restore_eq_iff {c d : Char} (hend : d ≠ '\n') (hmark : d ≠ lineMark) : restore c = d ↔ c = d := by
  unfold restore
  by_cases hc : c = lineMark
  · subst hc
    simp [Ne.symm hend, Ne.symm hmark]
  · simp [hc]

theorem beforeClose_eq_untilClose (cs : List Char) : beforeClose cs = untilClose cs := by
  induction cs with
  | nil => rfl
  | cons c cs ih =>
    by_cases h : c = '*' ∧ cs.head? = some '/'
    · rw [untilClose, if_pos h]
      obtain ⟨rfl, hhead⟩ := h
      obtain ⟨rest, rfl⟩ := List.head?_eq_some_iff.mp hhead
      rfl
    · have hnone : dropPrefix? ['*', '/'] (c :: cs) = none := by
        rcases cs with _ | ⟨d, ds⟩
        · simp [dropPrefix?]
        · by_cases hc : c = '*'
          · have hd : d ≠ '/' := fun hd => h ⟨hc, by rw [hd]; rfl⟩
            simp [dropPrefix?, Ne.symm hd]
          · simp [dropPrefix?, Ne.symm hc]
      rw [untilClose, if_neg h, ← ih, beforeClose, beforeClose, Text.cutAt?, hnone]
      cases Text.cutAt? ['*', '/'] cs <;> rfl

/-- No mark and no end of line is part of a `*/`. -/
theorem map_restore_untilClose (cs : List Char) :
    (untilClose cs).map restore = untilClose (cs.map restore) := by
  induction cs with
  | nil => rfl
  | cons c cs ih =>
    have hstar : restore c = '*' ↔ c = '*' := restore_eq_iff (by decide) (by decide)
    have hslash : (cs.map restore).head? = some '/' ↔ cs.head? = some '/' := by
      cases cs with
      | nil => rfl
      | cons d ds => simpa using restore_eq_iff (c := d) (d := '/') (by decide) (by decide)
    simp only [List.map_cons, untilClose, hstar, hslash]
    split_ifs
    · rfl
    · rw [List.map_cons, ih]

theorem isSpace_eq_isBlank {cs : List Char} (h : '\n' ∉ cs) : ∀ c ∈ cs, isSpace c = isBlank c := by
  intro c hc
  have hne : c ≠ '\n' := fun heq => h (heq ▸ hc)
  simp [isSpace, hne]

/-- The blanks at the start of a line end with it, whatever ends the line. -/
theorem map_restore_takeWhile {cs : List Char} (hmark : lineMark ∉ cs) (hend : '\n' ∉ cs)
    (lines : List (List Char)) :
    ((cs ++ behindEnds lineMark lines).takeWhile isBlank).map restore =
      (cs ++ behindEnds '\n' lines).takeWhile isSpace := by
  rw [takeWhile_behindEnds (by decide), takeWhile_behindEnds (by decide),
    takeWhile_congr (isSpace_eq_isBlank hend)]
  exact map_restore_of_not_mem fun h => hmark (List.takeWhile_subset _ h)

theorem map_restore_dropWhile {cs : List Char} {lines : List (List Char)}
    (hmark : ∀ l ∈ cs :: lines, lineMark ∉ l) (hend : '\n' ∉ cs) :
    ((cs ++ behindEnds lineMark lines).dropWhile isBlank).map restore =
      (cs ++ behindEnds '\n' lines).dropWhile isSpace := by
  rw [List.forall_mem_cons] at hmark
  rw [dropWhile_behindEnds (by decide), dropWhile_behindEnds (by decide),
    dropWhile_congr (isSpace_eq_isBlank hend), List.map_append, map_restore_behindEnds hmark.2]
  rw [map_restore_of_not_mem fun h => hmark.1 (List.dropWhile_subset _ h)]

/-! ### One element -/

/-- The lines up to the next tag, and those from it on. -/
theorem behindEnds_takeWhile_append (lines : List (List Char)) :
    behindEnds lineMark lines = behindEnds lineMark (lines.takeWhile isPlain) ++
      behindEnds lineMark (lines.dropWhile isPlain) := by
  rw [← behindEnds_append, List.takeWhile_append_dropWhile]

/-- **An element is what stands from its tag to the next.** The match of a tag
is cut as the line is read. -/
theorem cutElement_found {t : TagLine} {line : List Char} {lines : List (List Char)} {start : Cursor}
    (ht : t.Of line) (hstart : dropLineMark start.rest = line ++ behindEnds lineMark lines)
    (hmark : ∀ l ∈ line :: lines, lineMark ∉ l) (hend : '\n' ∉ line) (before : List Char) :
    cutElement ((t.followedBy lines).found start before) (behindEnds lineMark (lines.dropWhile isPlain)) =
      t.element (lines.takeWhile isPlain) := by
  have hstop : (t.followedBy lines).rest = t.rest ++ behindEnds lineMark (lines.takeWhile isPlain) ++
      behindEnds lineMark (lines.dropWhile isPlain) := by
    rw [List.append_assoc, ← behindEnds_takeWhile_append]
    rfl
  have hline : dropLineMark start.rest = t.lead ++ '@' :: t.name ++ (t.followedBy lines).rest := by
    rw [hstart, ht.line_eq]
    simp [TagLine.followedBy]
  have hmore : ∀ l ∈ line :: lines.takeWhile isPlain, lineMark ∉ l := by
    rw [List.forall_mem_cons] at hmark ⊢
    exact ⟨hmark.1, fun l hl => hmark.2 l (List.takeWhile_subset _ hl)⟩
  have hrest := ht.not_mem_rest hmore
  have hrestEnd : '\n' ∉ t.rest := fun h => hend (by rw [ht.line_eq]; simp [h])
  have hlead : (t.lead ++ '@' :: t.name).map restore = t.lead ++ '@' :: t.name := by
    have hsplit : line = (t.lead ++ '@' :: t.name) ++ t.rest := by rw [ht.line_eq]; simp
    refine map_restore_of_not_mem fun h => hmark line List.mem_cons_self ?_
    rw [hsplit]
    exact List.mem_append_left _ h
  rw [cutElement_eq (m := (t.followedBy lines).found start before) hstop hline, TagLine.group_found]
  rw [unflatten_ofList, unflatten_ofList, List.map_append, List.map_append, hlead, beforeClose_eq_untilClose,
    map_restore_untilClose, map_restore_takeWhile (hrest _ List.mem_cons_self) hrestEnd,
    map_restore_dropWhile hrest hrestEnd]
  rfl

/-! ### All elements -/

/-- The next tag starts behind the plain lines. -/
theorem nextPlace_lineStarts : ∀ (before : List Char) (lines : List (List Char)),
    nextPlace (lineStarts before lines) = behindEnds lineMark (lines.dropWhile isPlain)
  | _, [] => rfl
  | before, line :: lines => by
    cases htag : tagLine? line with
    | none =>
      have hplain : isPlain line = true := by rw [isPlain, htag, Option.isNone_none]
      rw [lineStarts, lineStart_of_plain _ _ _ htag, List.dropWhile_cons_of_pos hplain]
      exact nextPlace_lineStarts _ lines
    | some t =>
      have hplain : ¬isPlain line = true := by simp [isPlain, htag]
      rw [lineStarts, lineStart_of_tagLine _ _ _ htag, List.dropWhile_cons_of_neg hplain]
      rfl

theorem head?_lineStarts : ∀ (before : List Char) (lines : List (List Char)),
    ∀ n ∈ (lineStarts before lines).head?, n.start.rest.head? = some lineMark
  | _, [] => by simp [lineStarts]
  | before, line :: lines => by
    cases htag : tagLine? line with
    | none =>
      rw [lineStarts, lineStart_of_plain _ _ _ htag]
      exact head?_lineStarts _ lines
    | some t =>
      rw [lineStarts, lineStart_of_tagLine _ _ _ htag]
      intro n hn
      cases hn
      rfl

section Line

variable {line : List Char} {lines : List (List Char)} {start : Cursor}
variable (hstart : (tagLine? line).isSome → dropLineMark start.rest = line ++ behindEnds lineMark lines)
include hstart

/-- The step over a line: it is cut as it is read. -/
theorem cutElements_lineStart (hmark : ∀ l ∈ line :: lines, lineMark ∉ l) (hend : '\n' ∉ line)
    (before back : List Char) (hlater : cutElements (lineStarts back lines) = readLines lines) :
    cutElements (lineStart start before line lines ++ lineStarts back lines) = readLines (line :: lines) := by
  rw [readLines]
  cases htag : tagLine? line with
  | none => rw [lineStart_of_plain _ _ _ htag, List.nil_append, hlater]
  | some t =>
    have ht := (tagLine?_eq_some_iff.mp htag).1
    have hline := hstart (by rw [htag, Option.isSome_some])
    rw [lineStart_of_tagLine _ _ _ htag, List.singleton_append, cutElements_cons, nextPlace_lineStarts,
      cutElement_found ht hline hmark hend, hlater]

/-- The step over a line: its tag comes before those of the further lines. -/
theorem inOrder_lineStart {text : List Char} (hsuffix : start.rest <:+ text) (before back : List Char)
    (hlater : InOrder text (lineStarts back lines)) :
    InOrder text (lineStart start before line lines ++ lineStarts back lines) := by
  cases htag : tagLine? line with
  | none => rwa [lineStart_of_plain _ _ _ htag, List.nil_append]
  | some t =>
    have ht := (tagLine?_eq_some_iff.mp htag).1
    have hline := hstart (by rw [htag, Option.isSome_some])
    rw [lineStart_of_tagLine _ _ _ htag, List.singleton_append]
    refine .cons ⟨hsuffix, ⟨t.lead ++ '@' :: t.name, by simp, ?_⟩, ?_⟩ (head?_lineStarts back lines) hlater
    · simp [TagLine.found, TagLine.followedBy, hline, ht.line_eq]
    · rw [nextPlace_lineStarts]
      have hlines : behindEnds lineMark (lines.dropWhile isPlain) <:+ behindEnds lineMark lines :=
        ⟨behindEnds lineMark (lines.takeWhile isPlain), (behindEnds_takeWhile_append lines).symm⟩
      exact hlines.trans (List.suffix_append t.rest _)

end Line

theorem cutElements_lineStarts : ∀ (before : List Char) {lines : List (List Char)},
    (∀ l ∈ lines, lineMark ∉ l) → (∀ l ∈ lines, '\n' ∉ l) →
    cutElements (lineStarts before lines) = readLines lines
  | _, [], _, _ => rfl
  | _, _ :: _, hmark, hend => by
    have hmark' := List.forall_mem_cons.mp hmark
    have hend' := List.forall_mem_cons.mp hend
    exact cutElements_lineStart (fun _ => rfl) hmark hend'.1 _ _ (cutElements_lineStarts _ hmark'.2 hend'.2)

theorem inOrder_lineStarts {text : List Char} : ∀ (before : List Char) {lines : List (List Char)},
    behindEnds lineMark lines <:+ text → InOrder text (lineStarts before lines)
  | _, [], _ => .nil
  | _, line :: _, h => by
    have hlines := (List.suffix_append (lineMark :: line) _).trans h
    exact inOrder_lineStart (fun _ => rfl) h _ _ (inOrder_lineStarts _ hlines)

/-- The first line has no mark before it that could be dropped. -/
theorem dropLineMark_firstLine {line : List Char} (hmark : lineMark ∉ line) (rest : List Char)
    (htag : (tagLine? line).isSome) : dropLineMark (line ++ rest) = line ++ rest := by
  cases line with
  | nil => cases htag
  | cons c cs =>
    rw [List.mem_cons, not_or] at hmark
    simp [dropLineMark, Ne.symm hmark.1]

/-- Without hooks the elements are those that are cut out. -/
theorem findElements_noHooks (block filename : String) :
    findElements {} block filename = (cut block, []) := by
  have helement : ∀ name e, ({} : Hooks).applyElement name block filename e = e := fun _ _ => rfl
  have helements : ∀ name es, ({} : Hooks).applyElements name block filename es = (es, []) := fun _ _ => rfl
  have hcollect : ∀ es found : List Element, es.foldl (fun (x : List Element × List String) e =>
      (x.1 ++ [e], x.2)) (found, []) = (found ++ es, []) := by
    intro es
    induction es with
    | nil => simp
    | cons e es ih => simp [ih]
  simp only [findElements, helement, helements, List.append_nil]
  rw [hcollect, List.nil_append]

theorem flatten_eq {block : String} {line : List Char} {lines : List (List Char)}
    (hblock : block.toList = line ++ behindEnds '\n' lines) (hend : ∀ l ∈ line :: lines, '\n' ∉ l) :
    flatten block = String.ofList (line ++ behindEnds lineMark lines) := by
  rw [List.forall_mem_cons] at hend
  rw [flatten, replaceChar, hblock, List.map_append, map_replace_of_not_mem hend.1,
    map_replace_behindEnds hend.2]

/-- **Finding elements is reading lines.** In a comment without marks, every
line that starts with a known tag gives one element, with the text up to the
next such line, and there are no others. The offsets at which the elements are
cut out of the text as one line all fit. -/
theorem findElements_eq_readLines {block : String} (hmark : lineMark ∉ block.toList) (filename : String) :
    findElements {} block filename = (readLines (splitChars (· == '\n') block.toList), []) ∧
      (∀ line t, tagLine? line = some t ↔ t.Of line ∧ isRecognized (String.ofList t.name) = true) ∧
      (cuts (flatten block) (tagStarts (flatten block))).map (Cut.element (flatten block)) =
        (findElements {} block filename).1 ∧
      ∀ c ∈ cuts (flatten block) (tagStarts (flatten block)), c.Fits (flatten block) := by
  obtain ⟨line, lines, hsplit, hblock, hend⟩ := exists_splitChars '\n' block.toList
  have hmarks : ∀ l ∈ line :: lines, lineMark ∉ l := by
    rw [hblock] at hmark
    exact not_mem_lines hmark
  have hends := List.forall_mem_cons.mp hend
  have hfirst := dropLineMark_firstLine (hmarks line List.mem_cons_self) (behindEnds lineMark lines)
  have horder : InOrder (line ++ behindEnds lineMark lines) (tagStarts (flatten block)) := by
    rw [flatten_eq hblock hend, tagStarts_eq hmarks]
    apply inOrder_lineStart hfirst
    · exact List.suffix_rfl
    · exact inOrder_lineStarts _ (List.suffix_append _ _)
  have hcut : cut block = readLines (line :: lines) := by
    rw [cut, flatten_eq hblock hend, tagStarts_eq hmarks]
    apply cutElements_lineStart hfirst hmarks hends.1
    exact cutElements_lineStarts _ (List.forall_mem_cons.mp hmarks).2 hends.2
  obtain ⟨hfits, helements⟩ := cuts_spec horder
  rw [← flatten_eq hblock hend] at hfits helements
  rw [findElements_noHooks, hsplit, hcut]
  refine ⟨rfl, fun _ _ => tagLine?_eq_some_iff, ?_, hfits⟩
  rw [helements, ← hcut, cut]

/-- A comment with text before a known tag, a tag that is not known, and a
`*/`. -/
theorem findElements_eq_readLines_twoTags :
    lineMark ∉ "@api {get} /a\n * é @see\n *\t@unknown\n * @apiName  B */ c\n".toList ∧
      findElements {} "@api {get} /a\n * é @see\n *\t@unknown\n * @apiName  B */ c\n" "a.js" =
        ([.new "api" "{get} /a\n * é @see\n *\t@unknown" "@api {get} /a\n * é @see\n *\t@unknown",
          .new "apiName" "B " " * @apiName  B "], []) :=
  ⟨by decide, (findElements_eq_readLines (by decide) _).1.trans (by decide +kernel)⟩

end Element
end Docblock
