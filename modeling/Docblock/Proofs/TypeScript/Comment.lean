/-
# Comments in interfaces

Before an interface is looked for, the text loses its comments and the insides
of its texts. After that no two slashes stand next to each other
(`uncommented_strip`): the rest of a line behind two slashes is gone, a comment
between a slash and its star leaves none of the two, and quotes are no slashes.
So no line of an interface has a comment left to describe its property, and
every description is made of the name (`description_eq`).

Key definitions: `TypeScript.Uncommented`.
Key theorems: `TypeScript.uncommented_strip`, `TypeScript.description_eq`.
-/
import Docblock.Proofs.Pattern.Replace
import Docblock.Proofs.Text.OneLine
import Docblock.Proofs.TypeScript.Property
import Mathlib.Data.List.Chain

namespace Docblock
namespace TypeScript

open Pattern

/-- No two slashes stand next to each other. -/
def Uncommented (cs : List Char) : Prop := cs.IsChain fun a b => ¬(a = '/' ∧ b = '/')

theorem Uncommented.not_slashes {cs front back : List Char} (h : Uncommented cs) : cs ≠ front ++ '/' :: '/' :: back :=
  fun heq => List.isChain_iff_forall_rel_of_append_cons_cons.mp h heq ⟨rfl, rfl⟩

theorem uncommented_of_forall {cs : List Char} (h : ∀ front back, cs ≠ front ++ '/' :: '/' :: back) :
    Uncommented cs := by
  refine List.isChain_iff_forall_rel_of_append_cons_cons.mpr fun a b front back heq hslashes => ?_
  obtain ⟨rfl, rfl⟩ := hslashes
  exact h front back heq

theorem Uncommented.left {cs ds : List Char} (h : Uncommented (cs ++ ds)) : Uncommented cs :=
  (List.isChain_append.mp h).1

theorem Uncommented.right {cs ds : List Char} (h : Uncommented (cs ++ ds)) : Uncommented ds :=
  (List.isChain_append.mp h).2.1

theorem Uncommented.append {cs ds : List Char} (hcs : Uncommented cs) (hds : Uncommented ds)
    (h : cs.getLast? ≠ some '/' ∨ ds.head? ≠ some '/') : Uncommented (cs ++ ds) := by
  refine List.isChain_append.mpr ⟨hcs, hds, ?_⟩
  rintro x hx y hy ⟨rfl, rfl⟩
  exact h.elim (absurd hx) (absurd hy)

/-! ### Removing comments -/

/-- A comment up to the end of its line. -/
def lineComment : Pattern := all [lit "//", .chars notNewline, .lineEnd]

/-- A comment up to its closing star and slash. -/
def blockComment : Pattern := all [lit "/*", .charsLazy fun _ => true, lit "*/"]

/-- A text in quotes. -/
def quotedText (quote : Char) : Pattern := all [.one (· == quote), .chars (· != quote), .one (· == quote)]

theorem strip_eq (content : String) : strip content =
    (quotedText (Char.ofNat 0x60)).replaceAll (fun _ => "\x60\x60")
      ((quotedText '\'').replaceAll (fun _ => "''") ((quotedText '"').replaceAll (fun _ => "\"\"")
        (blockComment.replaceAll (fun _ => "") (lineComment.replaceAll (fun _ => "") content)))) := rfl

/-- Two slashes start a comment. -/
theorem exists_lineComment (before rest : List Char) :
    ∃ m, matchAt? lineComment ⟨before, '/' :: '/' :: rest⟩ = some m := by
  have hstop : ∀ c ∈ (rest.dropWhile notNewline).head?, notNewline c = false := by
    intro c hc
    have hnot := List.head?_dropWhile_not notNewline rest
    rw [hc] at hnot
    simpa using hnot
  have hend : Accepts (run .lineEnd fun there caps => some (Match.mk ⟨before, '/' :: '/' :: rest⟩ there caps))
      (rest.dropWhile notNewline) [] fun _ => True :=
    accepts_lineEnd (fun c hc => by simpa [notNewline] using hstop c hc) fun _ => ⟨_, rfl, trivial⟩
  have htaken : ∀ c ∈ rest.takeWhile notNewline, notNewline c = true := fun c hc => List.mem_takeWhile_imp hc
  have hline := accepts_chars htaken hstop hend
  rw [List.takeWhile_append_dropWhile] at hline
  have hslash : Accepts (run (.one (· == '/')) (run (.one (· == '/')) _)) ('/' :: '/' :: rest) [] fun _ => True :=
    accepts_one rfl (accepts_one rfl hline)
  obtain ⟨m, hm, -⟩ := hslash before
  exact ⟨m, hm⟩

/-- Such a comment goes to the end of its line. -/
theorem head?_of_lineComment {here : Cursor} {m : Match} (h : matchAt? lineComment here = some m) :
    m.stop.rest.head? ≠ some '/' := by
  have hseq : run (.seq (lit "//") (.chars notNewline)) (run .lineEnd fun there caps => some (Match.mk here there caps))
      here [] = some m := h
  obtain ⟨there, caps, -, hend⟩ := exists_of_run _ hseq
  simp only [run] at hend
  split at hend
  · rename_i hline
    cases hend
    intro hhead
    obtain ⟨rest, hrest⟩ := List.head?_eq_some_iff.mp hhead
    rw [Cursor.atLineEnd, hrest] at hline
    cases hline
  · cases hend

theorem takesSomething_lineComment : TakesSomething lineComment :=
  takesSomething_of_one (a := (· == '/')) (q := all [lit "/", .chars notNewline, .lineEnd]) fun _ => rfl

/-- **Without the rest of their lines no two slashes are left.** -/
theorem uncommented_lineComment (s : String) : Uncommented (lineComment.replaceAll (fun _ => "") s).toList := by
  -- what is left of a line does not start with a slash behind a comment
  have hboth := replaceAll_induction takesSomething_lineComment (fun _ => "") (motive := fun here out =>
    Uncommented out ∧ (out.head? = some '/' → here.rest.head? = some '/')) ?_ ?_ s
  · exact hboth.1
  · intro here hnone
    refine ⟨uncommented_of_forall fun front back hrest => ?_, id⟩
    rw [hrest] at hnone
    obtain ⟨m, hm⟩ := exists_lineComment (front.reverse ++ here.before) back
    rw [matchAt?_of_search_none hnone] at hm
    cases hm
  · intro here m front out hm hrest ⟨hout, hhead⟩
    obtain ⟨front', back, hrest', hmatch, hfirst⟩ := exists_of_search hm
    have hstart : m.start.rest = back := by rw [(start_of_matchAt? hmatch).1]
    obtain rfl : front = front' := by
      rw [hrest, hstart] at hrest'
      exact List.append_cancel_right hrest'
    have hfront : Uncommented front := by
      refine uncommented_of_forall fun earlier rest hsplit => ?_
      obtain ⟨found, hfound⟩ := exists_lineComment (earlier.reverse ++ here.before) (rest ++ back)
      have hnone := hfirst earlier ('/' :: '/' :: rest) hsplit (List.cons_ne_nil _ _)
      rw [List.cons_append, List.cons_append, hfound] at hnone
      cases hnone
    have hnext : out.head? ≠ some '/' := fun h => head?_of_lineComment hmatch (hhead h)
    refine ⟨hfront.append hout (Or.inr hnext), fun h => ?_⟩
    cases front with
    | nil => exact absurd h hnext
    | cons c front =>
      rw [hrest]
      exact h

/-- Replacing what starts with `c` by something without slashes leaves no two
slashes, if none were there: a slash at the start is not behind another. -/
theorem uncommented_replaceAll {p q : Pattern} {c : Char} {new : String}
    (hp : ∀ next : Next Match, run p next = run (.one (· == c)) (run q next)) (hnew : '/' ∉ new.toList)
    (hempty : new = "" → c = '/') {s : String} (hs : Uncommented s.toList) :
    Uncommented (p.replaceAll (fun _ => new) s).toList := by
  have hall := replaceAll_induction (takesSomething_of_one hp) (fun _ => new) (motive := fun here out =>
    Uncommented here.rest → Uncommented out) (fun here _ => id) ?_ s
  · exact hall hs
  · intro here m front out hm hrest hout hhere
    obtain ⟨front', back, -, hmatch, -⟩ := exists_of_search hm
    obtain ⟨hstart, hstop⟩ := start_of_matchAt? hmatch
    have hback : m.start.rest = back := by rw [hstart]
    rw [matchAt?, hp] at hmatch
    obtain ⟨d, cs, hcs, hd, -⟩ := exists_of_one hmatch
    obtain rfl : d = c := by simpa using hd
    dsimp only at hcs hstop
    subst hcs
    rw [hrest, hback] at hhere
    have hmade : Uncommented (new.toList ++ out) := by
      refine Uncommented.append ?_ (hout (hhere.right.suffix hstop)) (Or.inl fun h => hnew (List.mem_of_getLast? h))
      exact uncommented_of_forall fun front back heq => hnew (by rw [heq]; simp)
    refine hhere.left.append hmade ?_
    by_cases hnone : new = ""
    · obtain rfl := hempty hnone
      exact Or.inl fun h => (List.isChain_append.mp hhere).2.2 '/' h '/' rfl ⟨rfl, rfl⟩
    · refine Or.inr fun h => hnew ?_
      rw [List.head?_append_of_ne_nil _ (mt String.toList_eq_nil_iff.mp hnone)] at h
      exact List.mem_of_mem_head? h

/-- **The text that is read has no two slashes.** -/
theorem uncommented_strip (content : String) : Uncommented (strip content).toList := by
  rw [strip_eq]
  refine uncommented_replaceAll (fun _ => rfl) (by decide) (by decide) ?_
  refine uncommented_replaceAll (fun _ => rfl) (by decide) (by decide) ?_
  refine uncommented_replaceAll (fun _ => rfl) (by decide) (by decide) ?_
  refine uncommented_replaceAll (q := all [lit "*", .charsLazy fun _ => true, lit "*/"]) (fun _ => rfl) (by decide)
    (fun _ => rfl) ?_
  exact uncommented_lineComment content

/-! ### The lines of an interface -/

theorem exists_of_untilBrace {depth : Nat} {cs body : List Char} (h : untilBrace depth cs = some body) :
    ∃ more, cs = body ++ more := by
  fun_induction untilBrace depth cs generalizing body with
  | case1 => cases h
  | case3 =>
    cases h
    exact ⟨_, rfl⟩
  | case2 depth cs ih | case4 depth cs ih | case5 depth c cs _ _ _ ih =>
    obtain ⟨rest, hrest, rfl⟩ := Option.map_eq_some_iff.mp h
    obtain ⟨more, rfl⟩ := ih hrest
    exact ⟨more, rfl⟩

/-- Every piece of a text stands in it. -/
theorem exists_of_mem_splitChars {sep : Char → Bool} {cs piece : List Char} (h : piece ∈ Text.splitChars sep cs) :
    ∃ front back, cs = front ++ (piece ++ back) := by
  -- the first piece starts the text, so it can be made longer
  have hall : ∀ cs : List Char, ∃ first more, Text.splitChars sep cs = first :: more ∧ (∃ back, cs = first ++ back) ∧
      ∀ piece ∈ more, ∃ front back, cs = front ++ (piece ++ back) := by
    intro cs
    induction cs with
    | nil => exact ⟨[], [], rfl, ⟨[], rfl⟩, by simp⟩
    | cons c cs ih =>
      obtain ⟨first, more, hsplit, ⟨back, hback⟩, hmore⟩ := ih
      have hlater : ∀ piece ∈ more, ∃ front back, c :: cs = front ++ (piece ++ back) := by
        intro piece hpiece
        obtain ⟨front, back, hcs⟩ := hmore piece hpiece
        exact ⟨c :: front, back, by rw [hcs]; rfl⟩
      rw [Text.splitChars, hsplit]
      split
      · refine ⟨[], first :: more, rfl, ⟨c :: cs, rfl⟩, List.forall_mem_cons.mpr ⟨?_, hlater⟩⟩
        exact ⟨[c], back, by rw [hback]; rfl⟩
      · exact ⟨c :: first, more, rfl, ⟨back, by rw [hback]; rfl⟩, hlater⟩
  obtain ⟨first, more, hsplit, ⟨back, hback⟩, hmore⟩ := hall cs
  rw [hsplit] at h
  rcases List.mem_cons.mp h with rfl | hpiece
  · exact ⟨[], back, hback⟩
  · exact hmore piece hpiece

theorem exists_uncommented_line {content : String} {i : Interface} (hi : i ∈ Interface.readAll content) {p : Property}
    (hp : p ∈ i.properties) : ∃ line, readProperty? line = some p ∧ Uncommented line.toList := by
  obtain ⟨m, hm, hbody⟩ := List.mem_filterMap.mp hi
  obtain ⟨body, huntil, rfl⟩ := Option.map_eq_some_iff.mp hbody
  obtain ⟨line, hline, hread⟩ := List.mem_filterMap.mp hp
  refine ⟨_, hread, ?_⟩
  have hrest : Uncommented m.stop.rest := (uncommented_strip content).suffix (stop_suffix_of_mem_findAll hm)
  obtain ⟨more, hmore⟩ := exists_of_untilBrace huntil
  rw [hmore] at hrest
  obtain ⟨piece, hpiece, rfl⟩ := List.mem_map.mp hline
  rw [String.toList_ofList] at hpiece
  obtain ⟨front, back, rfl⟩ := exists_of_mem_splitChars hpiece
  obtain ⟨before, after, hstrip, -⟩ := Text.exists_stripBlanks piece
  rw [Text.trim, String.toList_ofList, String.toList_ofList]
  have hblank : Uncommented piece := hrest.left.right.left
  rw [hstrip] at hblank
  exact hblank.right.left

/-- Without two slashes a line has no comment. -/
theorem next_of_propertyComment {α : Type} {next : Next α} {here : Cursor} {caps : Captures} {r : α}
    (h : run propertyComment next here caps = some r) (hrest : Uncommented here.rest) : next here caps = some r := by
  have hnone : run (all [blanks, lit "//", .group 4 (chars1 notNewline)]) next here caps = none := by
    rw [Option.eq_none_iff_forall_ne_some]
    intro found hfound
    obtain ⟨piece, back, hsplit, -, hslashes⟩ := exists_of_runChars hfound
    have hlit : lit "//" = .seq (.one (· == '/')) (.one (· == '/')) := rfl
    rw [hlit] at hslashes
    obtain ⟨c, cs, hback, hc, hsecond⟩ := exists_of_one hslashes
    obtain ⟨d, ds, hcs, hd, -⟩ := exists_of_one hsecond
    obtain ⟨rfl, rfl⟩ : c = '/' ∧ d = '/' := ⟨by simpa using hc, by simpa using hd⟩
    dsimp only at hback hcs
    rw [hback, hcs] at hsplit
    exact hrest.not_slashes hsplit
  rw [propertyComment, opt, run] at h
  simp only [hnone] at h
  exact h

theorem captured_comment {p : Pattern} (hp : 4 ∉ p.groups) {start here : Cursor} {caps : Captures} {m : Match}
    (h : run p (run propertyComment (run .textEnd fun there caps => some (Match.mk start there caps)))
      here caps = some m)
    (hrest : Uncommented here.rest) : captured m.captures 4 = captured caps 4 := by
  obtain ⟨there, caps', hleads, hcomment⟩ := exists_of_run p h
  obtain ⟨last, caps'', hleads', hfound⟩ :=
    exists_of_run .textEnd (next_of_propertyComment hcomment (hrest.suffix hleads.suffix))
  cases hfound
  rw [hleads'.captured_eq (by decide), hleads.captured_eq hp]

/-- No match of an uncommented line holds a comment. -/
theorem group?_comment {q : Pattern} (hq : q ∈ behindHead) {line : String} (hline : Uncommented line.toList) {m : Match}
    (h : (Pattern.seq propertyHead q).find? line = some m) : m.group? 4 = none := by
  obtain ⟨front, back, hsplit, hmatch, -⟩ := exists_of_search h
  rw [hsplit] at hline
  obtain ⟨there, caps, hleads, hend⟩ := exists_of_run propertyHead hmatch
  have hrest : Uncommented there.rest := hline.right.suffix hleads.suffix
  have hcaps : captured caps 4 = none := hleads.captured_eq (by decide)
  have hlit : 4 ∉ q.groups → captured m.captures 4 = captured caps 4 := by
    intro hgroups
    obtain ⟨last, caps', hleads', hfound⟩ := exists_of_run q hend
    cases hfound
    exact hleads'.captured_eq hgroups
  rw [group?_eq_captured, ← hcaps]
  simp only [behindHead, List.mem_cons, List.not_mem_nil, or_false] at hq
  rcases hq with rfl | rfl | rfl | rfl
  · exact hlit (by decide)
  · exact hlit (by decide)
  · exact captured_comment (p := .seq (.group 3 (charsLazy1 notNewline)) (lit "[]")) (by decide) hend hrest
  · exact captured_comment (p := .group 3 (charsLazy1 notNewline)) (by decide) hend hrest

/-- **Each property is described by its name.** -/
theorem description_eq {content : String} {i : Interface} (hi : i ∈ Interface.readAll content) {p : Property}
    (hp : p ∈ i.properties) : p.description = describe p.name := by
  obtain ⟨line, hread, hline⟩ := exists_uncommented_line hi hp
  obtain ⟨q, hq, m, kind, comment, hm, rfl, hcomment⟩ := exists_of_readProperty? hread
  have hnone : comment = none := hcomment.elim id fun h => h.trans (group?_comment hq hline hm)
  rw [hnone]
  rfl

/-! ### Descriptions -/

theorem lt_of_isAsciiWord {c : Char} (h : Text.isAsciiWord c = true) : c.toNat < 128 := by
  rw [Text.isAsciiWord, Bool.or_eq_true, beq_iff_eq] at h
  rcases h with h | rfl
  · have hrange := Text.toNat_of_isAlphanum h
    omega
  · decide

/-- No letter, digit or underscore becomes a brace. -/
theorem close_not_mem_upperChar : ∀ n < 128, Text.isAsciiWord (Char.ofNat n) = true →
    (Char.ofNat n).toLower ≠ '}' ∧ '}' ∉ Text.upperChar (Char.ofNat n).toLower := by
  decide +kernel

theorem close_not_mem_describe {name : String} (h : IsName name) : '}' ∉ (describe name).toList := by
  have hword : ∀ c ∈ name.toList, c.toLower ≠ '}' ∧ '}' ∉ Text.upperChar c.toLower := by
    intro c hc
    have hall := close_not_mem_upperChar c.toNat (lt_of_isAsciiWord (h.chars c hc))
    rw [Char.ofNat_toNat] at hall
    exact hall (h.chars c hc)
  have hspace : ' ' ≠ '}' ∧ '}' ∉ Text.upperChar ' ' := by decide +kernel
  have hspaced : ∀ d ∈ name.toList.flatMap fun c => if c.isUpper then [' ', c.toLower] else [c.toLower],
      d ≠ '}' ∧ '}' ∉ Text.upperChar d := by
    intro d hd
    obtain ⟨c, hc, hmem⟩ := List.mem_flatMap.mp hd
    split at hmem
    · rcases List.mem_cons.mp hmem with rfl | hlower
      · exact hspace
      · rw [List.mem_singleton.mp hlower]
        exact hword c hc
    · rw [List.mem_singleton.mp hmem]
      exact hword c hc
  rw [describe, Text.capitalize, String.toList_ofList]
  split
  · simp
  · rename_i c cs hcs
    rw [hcs] at hspaced
    rw [String.toList_ofList, List.mem_append, not_or]
    exact ⟨(hspaced c List.mem_cons_self).2, fun hmem => (hspaced _ (List.mem_cons_of_mem _ hmem)).1 rfl⟩

end TypeScript
end Docblock
