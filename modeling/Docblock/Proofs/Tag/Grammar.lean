/-
# The parts of the parameter grammar

What each part of the grammar takes when it is followed by a text that it
cannot go on with: a group or a size in brackets (`accepts_bracketed`), a type
with its size and its allowed values (`accepts_type`), a default in quotes or
bare (`accepts_defaultPart_quoted`, `accepts_defaultPart_bare`), and a field with
its brackets and the blanks behind it (`accepts_parameterFieldPart`). The text
here is one line.

Key definitions: `Tag.inBrackets`, `Tag.TypeForm`, `Tag.DefaultForm`,
`Tag.fieldText`, `Tag.IsRest`.
Key theorems: `Tag.accepts_bracketed`, `Tag.accepts_type`,
`Tag.accepts_default_closing`, `Tag.accepts_parameterFieldPart`.
-/
import Docblock.Proofs.Pattern.First
import Docblock.Proofs.Text.OneLine
import Docblock.Tag.Parameter

namespace Docblock
namespace Tag

open Pattern

variable {α : Type} {next : Next α} {rest : List Char} {caps : Captures} {P : α → Prop}

/-! ### Characters -/

theorem isBlank_of_isTypeChar {c : Char} (h : isTypeChar c = true) : Text.isBlank c = false :=
  Text.isBlank_of_alnumOr (by decide) h

theorem isBlank_of_isFieldChar {c : Char} (h : isFieldChar c = true) : Text.isBlank c = false := by
  have hlist : ∀ c ∈ "#@$:./\\_-".toList, Text.isBlank c = false := by decide
  simp only [isFieldChar, isLatin, among, Bool.or_eq_true, Bool.and_eq_true, decide_eq_true_eq,
    List.contains_iff_mem] at h
  rcases h with (h | ⟨hlo, hhi⟩) | h
  · exact Text.isBlank_of_isAlphanum h
  · simp [Text.isBlank]
    omega
  · exact hlist c h

theorem isFieldChar_of_isAsciiWord {c : Char} (h : Text.isAsciiWord c = true) : isFieldChar c = true := by
  simp only [Text.isAsciiWord, Bool.or_eq_true, beq_iff_eq] at h
  rcases h with h | rfl
  · simp [isFieldChar, isLatin, h]
  · decide

/-! ### Pieces in brackets -/

/-- A piece in brackets as group `n`, or nothing: a group of parameters, or the
size of a type. -/
def bracketed (open? close : String) (n : Nat) : Pattern :=
  opt (all [lit open?, blanks, .group n (charsLazy1 notNewline), blanks, lit close, blanks])

/-- A piece in brackets with blanks behind it, if there is one. -/
def inBrackets (first last : Char) (gap : List Char) : Option (List Char) → List Char
  | none => []
  | some piece => first :: (piece ++ last :: gap)

/-- What is captured of it. -/
def bracketCaptures (n : Nat) (last : Char) (rest : List Char) : Option (List Char) → Captures
  | none => []
  | some piece => [(n, ⟨piece ++ last :: rest, last :: rest⟩)]

theorem accepts_bracketed {open? close : String} {first last : Char} (hopen : open?.toList = [first])
    (hclose : close.toList = [last]) (hlast : Text.isBlank last = false) {n : Nat} {gap : List Char}
    (hgap : ∀ c ∈ gap, Text.isBlank c = true) {piece : Option (List Char)} (hpiece : ∀ p ∈ piece, IsInner last p)
    (hrest : ∀ c ∈ rest.head?, Text.isBlank c = false) (hne : piece = none → rest.head? ≠ some first)
    (h : Accepts next rest (bracketCaptures n last (gap ++ rest) piece ++ caps) P) :
    Accepts (run (bracketed open? close n) next) (inBrackets first last gap piece ++ rest) caps P := by
  simp only [bracketed, all]
  cases piece with
  | none => exact accepts_opt_absent (refuses_lit hopen (hne rfl)) h
  | some p =>
    have htext : inBrackets first last gap (some p) ++ rest =
        first :: ([] ++ (p ++ ([] ++ last :: (gap ++ rest)))) := by
      simp [inBrackets]
    rw [htext]
    refine accepts_opt (accepts_lit hopen (accepts_enclosed hclose hlast (by simp) (by simp) (hpiece p rfl) ?_))
    exact accepts_chars hgap hrest h

theorem accepts_groupPart_absent (n : Nat) (hrest : ∀ c ∈ rest.head?, Text.isBlank c = false ∧ c ≠ '(')
    (h : Accepts next rest caps P) : Accepts (run (groupPart n) next) rest caps P :=
  accepts_chars_nil (fun c hc => (hrest c hc).1)
    (accepts_opt_absent (refuses_lit rfl fun hhead => (hrest _ hhead).2 rfl) h)

theorem accepts_sizePart_absent {n : Nat} (hrest : rest.head? ≠ some '{') (h : Accepts next rest caps P) :
    Accepts (run (sizePart n) next) rest caps P :=
  accepts_opt_absent (refuses_lit rfl hrest) h

/-! ### Types -/

/-- Allowed values behind an equals sign. -/
def allowedPart (n : Nat) : Pattern := opt (all [lit "=", blanks, .group n (charsLazy1 notNewline)])

/-- What comes behind the name of a type. -/
def afterTypeName (next : Next α) : Next α :=
  run (sizePart 3) (run blanks (run (allowedPart 4) (run blanks (run (lit "\x7d") (run blanks next)))))

/-- The name of a type is taken whole, without the blanks around it. -/
theorem accepts_parameterTypePart {lead name gap : List Char} (hlead : ∀ c ∈ lead, Text.isBlank c = true)
    (hne : name ≠ []) (hname : ∀ c ∈ name, isTypeChar c = true) (hgap : ∀ c ∈ gap, Text.isBlank c = true)
    (hrest : ∀ c ∈ rest.head?, Text.isBlank c = false ∧ isTypeChar c = false)
    (h : Accepts (afterTypeName next) rest ((2, ⟨name ++ (gap ++ rest), gap ++ rest⟩) :: caps) P) :
    Accepts (run parameterTypePart next) ('{' :: (lead ++ (name ++ (gap ++ rest)))) caps P := by
  obtain ⟨first, more, rfl⟩ := List.exists_cons_of_ne_nil hne
  rw [List.forall_mem_cons] at hname
  refine accepts_opt (accepts_lit rfl (accepts_chars hlead ?_ (accepts_group (accepts_one hname.1 ?_))))
  · intro c hc
    cases hc
    exact isBlank_of_isTypeChar hname.1
  · refine accepts_chars hname.2 (fun c hc => ?_) (accepts_chars hgap (fun c hc => (hrest c hc).1) h)
    -- no blank belongs to the name
    cases gap with
    | nil => exact (hrest c hc).2
    | cons b gap =>
      obtain rfl : b = c := by simpa using hc
      by_contra htype
      have hblank := isBlank_of_isTypeChar (eq_true_of_ne_false htype)
      rw [hgap b List.mem_cons_self] at hblank
      cases hblank

/-- Allowed values are taken up to the closing brace. -/
theorem accepts_allowedPart {before piece after : List Char} (hbefore : ∀ c ∈ before, Text.isBlank c = true)
    (hafter : ∀ c ∈ after, Text.isBlank c = true) (hpiece : IsInner '}' piece) {n : Nat}
    (h : Accepts next rest ((n, ⟨piece ++ (after ++ '}' :: rest), after ++ '}' :: rest⟩) :: caps) P) :
    Accepts (run (allowedPart n) (run blanks (run (lit "\x7d") next)))
      ('=' :: (before ++ (piece ++ (after ++ '}' :: rest)))) caps P :=
  accepts_opt (accepts_lit rfl (accepts_enclosed rfl (by decide) hbefore hafter hpiece h))

theorem accepts_allowedPart_absent {n : Nat} (hrest : rest.head? ≠ some '=') (h : Accepts next rest caps P) :
    Accepts (run (allowedPart n) next) rest caps P :=
  accepts_opt_absent (refuses_lit rfl hrest) h

/-- A type with its size and its allowed values. -/
structure TypeForm where
  name : List Char
  size : Option (List Char)
  allowed : Option (List Char)

namespace TypeForm

/-- What stands between the size and the end of the type. -/
def tail (t : TypeForm) (rest : List Char) : List Char :=
  t.allowed.elim [] ('=' :: ·) ++ '}' :: rest

/-- What stands behind the name. -/
def afterName (t : TypeForm) (rest : List Char) : List Char :=
  inBrackets '{' '}' [] t.size ++ t.tail rest

/-- The type as it is written before `rest`. -/
def textBefore (t : TypeForm) (rest : List Char) : List Char :=
  '{' :: (t.name ++ t.afterName rest)

/-- What is captured of it. -/
def captures (t : TypeForm) (rest : List Char) : Captures :=
  bracketCaptures 4 '}' rest t.allowed ++ (bracketCaptures 3 '}' (t.tail rest) t.size ++
    [(2, ⟨t.name ++ t.afterName rest, t.afterName rest⟩)])

/-- The name is made of the characters of types, and what stands in braces has
none inside. -/
structure IsWritten (t : TypeForm) : Prop where
  ne_nil : t.name ≠ []
  name : ∀ c ∈ t.name, isTypeChar c = true
  size : ∀ s ∈ t.size, IsInner '}' s
  allowed : ∀ a ∈ t.allowed, IsInner '}' a

theorem head?_tail (t : TypeForm) (rest : List Char) : ∀ c ∈ (t.tail rest).head?, c ∈ ['=', '}'] := by
  cases h : t.allowed <;> simp [tail, h]

/-- No character of a type's name comes behind it. -/
theorem head?_afterName (t : TypeForm) (rest : List Char) :
    ∀ c ∈ (t.afterName rest).head?, Text.isBlank c = false ∧ isTypeChar c = false := by
  have hcases : ∀ c ∈ (t.afterName rest).head?, c ∈ ['{', '=', '}'] := by
    intro c hc
    cases h : t.size with
    | none =>
      rw [afterName, h] at hc
      exact List.mem_cons_of_mem _ (t.head?_tail rest c hc)
    | some s =>
      rw [afterName, h] at hc
      cases hc
      exact List.mem_cons_self
  have hlist : ∀ c ∈ ['{', '=', '}'], Text.isBlank c = false ∧ isTypeChar c = false := by decide
  exact fun c hc => hlist c (hcases c hc)

end TypeForm

theorem accepts_tail {t : TypeForm} (hallowed : ∀ a ∈ t.allowed, IsInner '}' a)
    (h : Accepts next rest (bracketCaptures 4 '}' rest t.allowed ++ caps) P) :
    Accepts (run (allowedPart 4) (run blanks (run (lit "\x7d") next))) (t.tail rest) caps P := by
  rw [TypeForm.tail]
  cases hcase : t.allowed with
  | none =>
    rw [hcase] at h
    exact accepts_allowedPart_absent (by simp) (accepts_chars_nil (by simp [Text.isBlank]) (accepts_lit rfl h))
  | some a =>
    rw [hcase] at h
    have hwhole : Accepts (run (allowedPart 4) (run blanks (run (lit "\x7d") next)))
        ('=' :: ([] ++ (a ++ ([] ++ '}' :: rest)))) caps P :=
      accepts_allowedPart (by simp) (by simp) (hallowed a hcase) h
    exact hwhole

/-- **A type is taken part by part.** -/
theorem accepts_type {t : TypeForm} (ht : t.IsWritten) {gap : List Char} (hgap : ∀ c ∈ gap, Text.isBlank c = true)
    (hrest : ∀ c ∈ rest.head?, Text.isBlank c = false)
    (h : Accepts next rest (t.captures (gap ++ rest) ++ caps) P) :
    Accepts (run parameterTypePart next) (t.textBefore (gap ++ rest)) caps P := by
  have htail : ∀ c ∈ (t.tail (gap ++ rest)).head?, Text.isBlank c = false ∧ c ≠ '{' := by
    have hlist : ∀ c ∈ ['=', '}'], Text.isBlank c = false ∧ c ≠ '{' := by decide
    exact fun c hc => hlist c (t.head?_tail _ c hc)
  have hblanks : Accepts (run blanks next) (gap ++ rest) (t.captures (gap ++ rest) ++ caps) P :=
    accepts_chars hgap hrest h
  rw [TypeForm.captures, List.append_assoc, List.append_assoc] at hblanks
  have hname : Accepts (run parameterTypePart next)
      ('{' :: ([] ++ (t.name ++ ([] ++ t.afterName (gap ++ rest))))) caps P :=
    accepts_parameterTypePart (by simp) ht.ne_nil ht.name (by simp) (t.head?_afterName _)
      (accepts_bracketed rfl rfl (by decide) (by simp) ht.size (fun c hc => (htail c hc).1)
        (fun _ hhead => (htail _ hhead).2 rfl) (accepts_chars_nil (fun c hc => (htail c hc).1)
          (accepts_tail ht.allowed hblanks)))
  exact hname

/-! ### Defaults -/

/-- A default behind a field, in quotes or bare. -/
inductive DefaultForm where
  | absent
  | quoted (value : List Char)
  | bare (value : List Char)

namespace DefaultForm

/-- The default as it is written. -/
def text : DefaultForm → List Char
  | absent => []
  | quoted value => '=' :: '"' :: (value ++ ['"'])
  | bare value => '=' :: value

/-- What is captured of it. -/
def captures (rest : List Char) : DefaultForm → Captures
  | absent => []
  | quoted value => [(7, ⟨value ++ '"' :: rest, '"' :: rest⟩)]
  | bare value => [(9, ⟨value ++ rest, rest⟩)]

/-- A value in quotes has none inside; a bare one ends at the first blank or
bracket, and does not start like one in quotes. -/
def IsWritten : DefaultForm → Prop
  | absent => True
  | quoted value => '"' ∉ value
  | bare value => value ≠ [] ∧ (∀ c ∈ value, Text.isBlank c = false ∧ c ≠ ']') ∧
      value.head? ≠ some '"' ∧ value.head? ≠ some '\''

end DefaultForm

/-- What ends a bare default. -/
def bareEnd : Pattern := any [.one Text.isBlank, lit "]", .textEnd]

theorem refuses_bareEnd {c : Char} (hblank : Text.isBlank c = false) (hclose : c ≠ ']') :
    Refuses (run bareEnd next) (c :: rest) caps := by
  have hhead : (c :: rest).head? ≠ some ']' := by simpa using hclose
  exact refuses_alt (refuses_one (by simpa using hblank)) (refuses_alt (refuses_lit rfl hhead) refuses_textEnd)

theorem accepts_defaultPart_absent {double single bare : Nat}
    (hrest : (rest.dropWhile Text.isBlank).head? ≠ some '=') (h : Accepts next rest caps P) :
    Accepts (run (defaultPart double single bare) next) rest caps P :=
  accepts_opt_absent (refuses_blanks_lit rfl (by decide) hrest) h

/-- A default in quotes ends at the next quote. -/
theorem accepts_defaultPart_quoted {double single bare : Nat} {value : List Char} (hvalue : '"' ∉ value)
    (h : Accepts next rest ((double, ⟨value ++ '"' :: rest, '"' :: rest⟩) :: caps) P) :
    Accepts (run (defaultPart double single bare) next) ('=' :: '"' :: (value ++ '"' :: rest)) caps P := by
  refine accepts_opt (accepts_chars_nil ?_ (accepts_lit rfl (accepts_chars_nil ?_
    (accepts_alt_left (accepts_lit rfl (accepts_group ?_))))))
  · simp [Text.isBlank]
  · simp [Text.isBlank]
  · refine accepts_chars (fun c hc => ?_) (by simp) (accepts_lit rfl h)
    rw [bne_iff_ne]
    rintro rfl
    exact hvalue hc

/-- A bare default goes up to what ends it. -/
theorem accepts_defaultPart_bare {double single bare : Nat} {value : List Char}
    (hvalue : (DefaultForm.bare value).IsWritten)
    (h : Accepts (run bareEnd next) rest ((bare, ⟨value ++ rest, rest⟩) :: caps) P) :
    Accepts (run (defaultPart double single bare) next) ('=' :: (value ++ rest)) caps P := by
  obtain ⟨hne, hfree, hdouble, hsingle⟩ := hvalue
  obtain ⟨first, more, rfl⟩ := List.exists_cons_of_ne_nil hne
  have hline : ∀ c ∈ first :: more, notNewline c = true :=
    notNewline_of_not_mem fun hmem => absurd (hfree _ hmem).1 (by decide)
  refine accepts_opt (accepts_chars_nil ?_ (accepts_lit rfl (accepts_chars_nil ?_ (accepts_alt_right
    (refuses_lit rfl hdouble) (accepts_alt_right (refuses_lit rfl hsingle) (accepts_group ?_))))))
  · simp [Text.isBlank]
  · simpa using (hfree first List.mem_cons_self).1
  · refine accepts_charsLazy hline (fun front back heq hback before => ?_) h
    obtain ⟨c, back, rfl⟩ := List.exists_cons_of_ne_nil hback
    have hc := hfree c (by rw [heq]; simp)
    exact refuses_bareEnd hc.1 hc.2 before

/-! ### Fields -/

/-- The opening bracket of an optional field. -/
def opener (optional : Bool) : List Char := if optional then ['['] else []

/-- The closing bracket of an optional field. -/
def closer (optional : Bool) : List Char := if optional then [']'] else []

/-- A description behind a field, with the blank before it. -/
def behind : List Char → List Char
  | [] => []
  | c :: cs => ' ' :: c :: cs

/-- What can stand behind a field without being taken for a part of it. -/
structure IsRest (x : List Char) : Prop where
  blank : ∀ c ∈ x.head?, Text.isBlank c = false
  equals : x.head? ≠ some '='
  close : x.head? ≠ some ']'
  newline : '\n' ∉ x

theorem behind_eq (x : List Char) : ∃ gap, behind x = gap ++ x ∧ ∀ c ∈ gap, Text.isBlank c = true := by
  cases x with
  | nil => exact ⟨[], rfl, by simp⟩
  | cons c cs => exact ⟨[' '], rfl, by simp [Text.isBlank]⟩

/-- The bracket and the blanks behind a field belong to it. -/
theorem accepts_closing {optional : Bool} {x : List Char} (hx : IsRest x) (h : Accepts next x caps P) :
    Accepts (run blanks (run (opt (lit "]")) (run blanks next))) (closer optional ++ behind x) caps P := by
  obtain ⟨gap, hbehind, hgap⟩ := behind_eq x
  rw [hbehind]
  cases optional with
  | true =>
    have hopen : Accepts (run blanks next) (gap ++ x) caps P := accepts_chars hgap hx.blank h
    exact accepts_chars_nil (by simp [closer, Text.isBlank]) (accepts_opt (accepts_lit rfl hopen))
  | false =>
    have hnone : Accepts (run (opt (lit "]")) (run blanks next)) x caps P :=
      accepts_opt_absent (refuses_lit rfl hx.close) (accepts_chars_nil hx.blank h)
    rw [closer, if_neg Bool.false_ne_true, List.nil_append]
    exact accepts_chars hgap hx.blank hnone

/-- A bare default may take the bracket or the blank for itself. -/
theorem accepts_bareEnd {optional : Bool} {x : List Char} (hx : IsRest x) (h : Accepts next x caps P) :
    Accepts (run bareEnd (run blanks (run (opt (lit "]")) (run blanks next))))
      (closer optional ++ behind x) caps P := by
  have hclosed : Accepts (run blanks (run (opt (lit "]")) (run blanks next))) (closer false ++ behind x) caps P :=
    accepts_closing hx h
  cases optional with
  | true =>
    exact accepts_alt_right (refuses_one (by simp [closer, Text.isBlank]))
      (accepts_alt_left (accepts_lit rfl hclosed))
  | false =>
    cases x with
    | nil => exact accepts_alt_right (refuses_one (by simp [closer, behind])) (accepts_alt_right
        (refuses_lit rfl (by simp [closer, behind])) (accepts_textEnd hclosed))
    | cons c cs => exact accepts_alt_left (accepts_one (by rfl) (accepts_chars_nil hx.blank
        (accepts_opt_absent (refuses_lit rfl hx.close) (accepts_chars_nil hx.blank h))))

theorem accepts_default_closing {optional : Bool} {d : DefaultForm} (hd : d.IsWritten) {x : List Char}
    (hx : IsRest x) (h : Accepts next x (d.captures (closer optional ++ behind x) ++ caps) P) :
    Accepts (run (defaultPart 7 8 9) (run blanks (run (opt (lit "]")) (run blanks next))))
      (d.text ++ (closer optional ++ behind x)) caps P := by
  cases d with
  | absent =>
    refine accepts_defaultPart_absent ?_ (accepts_closing hx h)
    cases optional with
    | true => simp [DefaultForm.text, closer, Text.isBlank]
    | false =>
      cases x with
      | nil => simp [DefaultForm.text, closer, behind]
      | cons c cs =>
        have hc : Text.isBlank c = false := hx.blank c rfl
        have hspace : Text.isBlank ' ' = true := rfl
        simpa [DefaultForm.text, closer, behind, hspace, hc] using hx.equals
  | quoted value =>
    have htext : (DefaultForm.quoted value).text ++ (closer optional ++ behind x) =
        '=' :: '"' :: (value ++ '"' :: (closer optional ++ behind x)) := by
      simp [DefaultForm.text]
    rw [htext]
    exact accepts_defaultPart_quoted hd (accepts_closing hx h)
  | bare value => exact accepts_defaultPart_bare hd (accepts_bareEnd hx h)

/-- An optional field stands in brackets. -/
def fieldText (optional : Bool) (field : List Char) (d : DefaultForm) (x : List Char) : List Char :=
  opener optional ++ (field ++ (d.text ++ (closer optional ++ behind x)))

/-- What is captured of a field. -/
def fieldCaptures (optional : Bool) (field : List Char) (d : DefaultForm) (x : List Char) : Captures :=
  (5, ⟨fieldText optional field d x, x⟩) :: (d.captures (closer optional ++ behind x) ++
    [(6, ⟨field ++ (d.text ++ (closer optional ++ behind x)), d.text ++ (closer optional ++ behind x)⟩)])

/-- No character of a field's name comes behind it. -/
theorem head?_behind_field (optional : Bool) (d : DefaultForm) (x : List Char) :
    ∀ c ∈ (d.text ++ (closer optional ++ behind x)).head?, isFieldChar c = false ∧ c ≠ '[' := by
  have hcases : ∀ c ∈ (d.text ++ (closer optional ++ behind x)).head?, c ∈ ['=', ']', ' '] := by
    cases d <;> cases optional <;> cases x <;> simp [DefaultForm.text, closer, behind]
  have hlist : ∀ c ∈ ['=', ']', ' '], isFieldChar c = false ∧ c ≠ '[' := by decide
  exact fun c hc => hlist c (hcases c hc)

/-- The name of a field, with an index. -/
def namePart (n : Nat) : Pattern :=
  .group n (all [chars1 isFieldChar, opt (all [lit "[", .chars isIndexChar, lit "]"])])

theorem accepts_namePart {n : Nat} {field : List Char} (hne : field ≠ []) (hfield : ∀ c ∈ field, isFieldChar c = true)
    (hrest : ∀ c ∈ rest.head?, isFieldChar c = false ∧ c ≠ '[')
    (h : Accepts next rest ((n, ⟨field ++ rest, rest⟩) :: caps) P) :
    Accepts (run (namePart n) next) (field ++ rest) caps P := by
  obtain ⟨first, more, rfl⟩ := List.exists_cons_of_ne_nil hne
  rw [List.forall_mem_cons] at hfield
  exact accepts_group (accepts_one hfield.1 (accepts_chars hfield.2 (fun c hc => (hrest c hc).1)
    (accepts_opt_absent (refuses_lit rfl fun hhead => (hrest _ hhead).2 rfl) h)))

/-- The name of a field is taken, behind its bracket if it has one. -/
theorem accepts_opener {n : Nat} {optional : Bool} {field : List Char} (hne : field ≠ [])
    (hfield : ∀ c ∈ field, isFieldChar c = true) (hrest : ∀ c ∈ rest.head?, isFieldChar c = false ∧ c ≠ '[')
    (h : Accepts next rest ((n, ⟨field ++ rest, rest⟩) :: caps) P) :
    Accepts (run (opt (lit "[")) (run blanks (run (namePart n) next))) (opener optional ++ (field ++ rest)) caps P := by
  have hfirst : ∀ c ∈ (field ++ rest).head?, Text.isBlank c = false ∧ c ≠ '[' := by
    obtain ⟨first, more, rfl⟩ := List.exists_cons_of_ne_nil hne
    have hchar := hfield first List.mem_cons_self
    rintro c ⟨⟩
    exact ⟨isBlank_of_isFieldChar hchar, by rintro rfl; exact absurd hchar (by decide)⟩
  have hname := accepts_chars_nil (fun c hc => (hfirst c hc).1) (accepts_namePart hne hfield hrest h)
  cases optional with
  | true => exact accepts_opt (accepts_lit rfl hname)
  | false => exact accepts_opt_absent (refuses_lit rfl fun hbracket => (hfirst _ hbracket).2 rfl) hname

/-- A field starts with its bracket if it has one. -/
theorem startsWith_opener {optional : Bool} {field : List Char} (hne : field ≠ [])
    (hfield : ∀ c ∈ field, isFieldChar c = true) (more : List Char) :
    Text.startsWith (Text.unflatten (String.ofList (opener optional ++ (field ++ more)))) "[" = optional := by
  have hopen : "[".toList = ['['] := rfl
  obtain ⟨first, rest, rfl⟩ := List.exists_cons_of_ne_nil hne
  cases optional with
  | true => exact Text.startsWith_unflatten hopen (by decide) (by decide) '[' _
  | false =>
    refine (Text.startsWith_unflatten hopen (by decide) (by decide) first _).trans ?_
    rw [beq_eq_false_iff_ne]
    rintro rfl
    exact absurd (hfield _ List.mem_cons_self) (by decide)

/-- **A field is taken with its default and its brackets.** -/
theorem accepts_parameterFieldPart {optional : Bool} {field : List Char} (hne : field ≠ [])
    (hfield : ∀ c ∈ field, isFieldChar c = true) {d : DefaultForm} (hd : d.IsWritten) {x : List Char} (hx : IsRest x)
    (h : Accepts next x (fieldCaptures optional field d x ++ caps) P) :
    Accepts (run parameterFieldPart next) (fieldText optional field d x) caps P := by
  let afterField : Next _ := fun there caps => next there ((5, ⟨fieldText optional field d x, there.rest⟩) :: caps)
  rw [fieldCaptures, List.cons_append, List.append_assoc] at h
  have hclose : Accepts (run (defaultPart 7 8 9) (run blanks (run (opt (lit "]")) (run blanks afterField))))
      (d.text ++ (closer optional ++ behind x)) (_ :: caps) P :=
    accepts_default_closing hd hx h
  exact accepts_group (accepts_opener hne hfield (head?_behind_field optional d x) hclose)

/-- The rest of the line is taken whole. -/
theorem accepts_restPart {n : Nat} {x : List Char} (hx : '\n' ∉ x) (h : Accepts next [] ((n, ⟨x, []⟩) :: caps) P) :
    Accepts (run (restPart n) (run .textEnd next)) x caps P := by
  have hall : Accepts (run (restPart n) (run .textEnd next)) (x ++ []) caps P := by
    rw [← List.append_nil x] at h
    exact accepts_opt (accepts_group (accepts_chars (notNewline_of_not_mem hx) (by simp) (accepts_textEnd h)))
  rwa [List.append_nil] at hall

end Tag
end Docblock
