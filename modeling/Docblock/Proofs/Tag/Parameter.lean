/-
# Parameters are read as they are written

A parameter is written as `(group) {type{size}=allowed} [field=default] text`,
with the brackets if it is optional and without the parts it does not have
(`WrittenParameter`). Whichever parts it has, reading it gives them back
(`readParameter_text`): each part ends where the next one starts, so the first
way to match the grammar is the one that was meant
(`WrittenParameter.accepts_line`).

Key definitions: `Tag.IsPiece`, `Tag.WrittenType`, `Tag.WrittenDefault`,
`Tag.WrittenParameter`.
Key theorems: `Tag.WrittenParameter.accepts_line`,
`Tag.WrittenParameter.found`, `Tag.readParameter_text`.
-/
import Docblock.Proofs.Tag.Grammar
import Docblock.Proofs.Text.OneLine

namespace Docblock
namespace Tag

open Pattern Text

/-! ### Written parameters -/

/-- A text that can stand before the character `close`. -/
structure IsPiece (close : Char) (s : String) : Prop where
  ne_empty : s ≠ ""
  trimmed : trim s = s
  close : close ∉ s.toList
  mark : lineMark ∉ s.toList

/-- A type with its size and its allowed values. -/
structure WrittenType where
  name : String
  size : Option String
  allowed : Option String
  ne_empty : name ≠ ""
  chars : ∀ c ∈ name.toList, isTypeChar c = true
  size_piece : ∀ s ∈ size, IsPiece '}' s
  allowed_piece : ∀ a ∈ allowed, IsPiece '}' a

/-- A default, in double quotes or bare. -/
structure WrittenDefault where
  value : String
  quoted : Bool
  ne_empty : value ≠ ""
  mark : lineMark ∉ value.toList
  ends : if quoted then '"' ∉ value.toList else
    (∀ c ∈ value.toList, isBlank c = false ∧ c ≠ ']') ∧ value.toList.head? ≠ some '"' ∧
      value.toList.head? ≠ some '\''

/-- A parameter with the parts it has. -/
structure WrittenParameter where
  group : Option String
  type : Option WrittenType
  field : String
  optional : Bool
  initial : Option WrittenDefault
  description : String
  group_piece : ∀ g ∈ group, IsPiece ')' g
  field_ne_empty : field ≠ ""
  field_chars : ∀ c ∈ field.toList, isFieldChar c = true
  trimmed : trim description = description
  equals : description.toList.head? ≠ some '='
  close : description.toList.head? ≠ some ']'
  mark : lineMark ∉ description.toList

/-- The type in its braces. -/
def WrittenType.text (t : WrittenType) : String :=
  "\x7b" ++ t.name ++ t.size.elim "" (fun s => "\x7b" ++ s ++ "\x7d") ++ t.allowed.elim "" ("=" ++ ·) ++ "\x7d"

/-- The default behind its equals sign. -/
def WrittenDefault.text (d : WrittenDefault) : String :=
  if d.quoted then "=\"" ++ d.value ++ "\"" else "=" ++ d.value

namespace WrittenParameter

/-- The field with its default, in brackets if it is optional. -/
def fieldText (w : WrittenParameter) : String :=
  let inner := w.field ++ w.initial.elim "" WrittenDefault.text
  if w.optional then "[" ++ inner ++ "]" else inner

/-- The parameter with a blank between its parts. -/
def text (w : WrittenParameter) : String :=
  w.group.elim "" (fun g => "(" ++ g ++ ") ") ++ w.type.elim "" (fun t => t.text ++ " ") ++ w.fieldText ++
    (if w.description = "" then "" else " " ++ w.description)

/-- What a parameter says. -/
def value (w : WrittenParameter) (defaultGroup : String) (parents : Fields) : Json :=
  Json.ofPresent [
    ("group", Json.str (w.group.getD defaultGroup)),
    ("type", w.type.map fun t => .str t.name),
    ("size", (w.type.bind (·.size)).map .str),
    ("allowedValues", (w.type.bind (·.allowed)).map fun a => Json.texts (splitAllowedValues a)),
    ("optional", Json.bool w.optional),
    ("parentNode", parentNode? parents w.field),
    ("field", Json.str w.field),
    ("isArray", Json.bool (w.type.any fun t => Text.contains t.name "[]")),
    ("defaultValue", w.initial.map fun d => .str d.value),
    ("description", Json.str (unindent w.description))]

end WrittenParameter

theorem IsPiece.isInner {close : Char} {s : String} (h : IsPiece close s) (hclose : close ≠ lineMark) :
    IsInner close (flat s) where
  ne_nil := fun hnil => h.ne_empty (flat_eq_nil.mp hnil)
  head := (trim_eq_self_iff.mp h.trimmed).flat.head
  last := (trim_eq_self_iff.mp h.trimmed).flat.last
  close := fun hmem => h.close (mem_toList_of_mem_flat hmem hclose)
  newline := newline_not_mem_flat s

/-! ### What groups hold -/

/-- The text of a group, with its lines as they were. -/
def held (caps : Captures) (n : Nat) : Option String := (captured caps n).map unflatten

theorem restored_eq_held (m : Match) (n : Nat) : restored m n = held m.captures n := rfl

theorem held_nil (n : Nat) : held [] n = none := rfl

theorem held_cons (entry : Nat × Span) (caps : Captures) (n : Nat) :
    held (entry :: caps) n = if entry.1 = n then some (unflatten entry.2.text) else held caps n := by
  rw [held, captured_cons]
  split <;> rfl

theorem held_append (new caps : Captures) (n : Nat) :
    held (new ++ caps) n = (held new n).or (held caps n) := by
  rw [held, captured_append, Option.map_or]
  rfl

theorem unflatten_span {s : String} (h : lineMark ∉ s.toList) (rest : List Char) :
    unflatten (Span.mk (flat s ++ rest) rest).text = s := by
  rw [text_span, unflatten_flat h]

theorem held_bracket {n : Nat} {last : Char} {rest : List Char} {piece : Option String}
    (h : ∀ s ∈ piece, lineMark ∉ s.toList) (k : Nat) :
    held (bracketCaptures n last rest (piece.map flat)) k = if n = k then piece else none := by
  cases piece with
  | none => simp [bracketCaptures, held_nil]
  | some s => rw [Option.map_some, bracketCaptures, held_cons, unflatten_span (h s rfl), held_nil]

/-! ### Types and defaults -/

/-- A type as a line. -/
def WrittenType.form (t : WrittenType) : TypeForm where
  name := flat t.name
  size := t.size.map flat
  allowed := t.allowed.map flat

theorem WrittenType.flat_name (t : WrittenType) : flat t.name = t.name.toList :=
  flat_of_not_mem fun h => absurd (t.chars _ h) (by decide)

theorem WrittenType.flat_text (t : WrittenType) (rest : List Char) :
    flat t.text ++ rest = t.form.textBefore rest := by
  have hopen : flat "\x7b" = ['{'] := rfl
  have hclose : flat "\x7d" = ['}'] := rfl
  have hequals : flat "=" = ['='] := rfl
  have hnone : flat "" = [] := rfl
  simp only [text, flat_append, TypeForm.textBefore, TypeForm.afterName, TypeForm.tail, form]
  cases t.size <;> cases t.allowed <;>
    simp [inBrackets, flat_append, hopen, hclose, hequals, hnone]

theorem WrittenType.isWritten (t : WrittenType) : t.form.IsWritten where
  ne_nil := fun hnil => t.ne_empty (flat_eq_nil.mp hnil)
  name := by
    intro c hc
    rw [form, t.flat_name] at hc
    exact t.chars c hc
  size := by
    intro s hs
    obtain ⟨size, hsize, rfl⟩ := Option.map_eq_some_iff.mp hs
    exact (t.size_piece size hsize).isInner (by decide)
  allowed := by
    intro a ha
    obtain ⟨allowed, hallowed, rfl⟩ := Option.map_eq_some_iff.mp ha
    exact (t.allowed_piece allowed hallowed).isInner (by decide)

/-- A default as a line. -/
def WrittenDefault.form (d : WrittenDefault) : DefaultForm :=
  if d.quoted then .quoted (flat d.value) else .bare (flat d.value)

theorem WrittenDefault.flat_text (d : WrittenDefault) : flat d.text = d.form.text := by
  have hopen : flat "=\"" = ['=', '"'] := rfl
  have hclose : flat "\"" = ['"'] := rfl
  have hequals : flat "=" = ['='] := rfl
  unfold text form
  split_ifs <;> simp [DefaultForm.text, flat_append, hopen, hclose, hequals]

theorem WrittenDefault.isWritten (d : WrittenDefault) : d.form.IsWritten := by
  have hends := d.ends
  unfold form
  split_ifs with hquoted
  · rw [if_pos hquoted] at hends
    exact fun hmem => hends (mem_toList_of_mem_flat hmem (by decide))
  · rw [if_neg hquoted] at hends
    obtain ⟨hfree, hdouble, hsingle⟩ := hends
    have hflat : flat d.value = d.value.toList :=
      flat_of_not_mem fun h => absurd (hfree _ h).1 (by decide)
    rw [hflat]
    exact ⟨fun hnil => d.ne_empty (String.toList_eq_nil_iff.mp hnil), hfree, hdouble, hsingle⟩

theorem WrittenDefault.isTrimmed_text (d : WrittenDefault) : IsTrimmed d.text.toList := by
  have hends := d.ends
  unfold WrittenDefault.text
  split_ifs with hquoted
  · rw [String.toList_append]
    exact .append_of_ne_nil (by simp [isBlank]) (isTrimmed_of_forall (by simp [isBlank])) (by simp)
  · rw [if_neg hquoted] at hends
    rw [String.toList_append]
    exact (isTrimmed_of_forall (by simp [isBlank])).append (isTrimmed_of_forall fun c hc => (hends.1 c hc).1)

/-! ### The line of a parameter -/

namespace WrittenParameter

variable (w : WrittenParameter)

/-- The default, if there is one. -/
def defaultForm : DefaultForm := w.initial.elim .absent WrittenDefault.form

theorem isWritten_defaultForm : w.defaultForm.IsWritten := by
  unfold defaultForm
  cases w.initial with
  | none => exact trivial
  | some d => exact d.isWritten

theorem isRest : IsRest (flat w.description) where
  blank := (trim_eq_self_iff.mp w.trimmed).flat.head
  equals := fun h => w.equals (head?_flat h (by decide))
  close := fun h => w.close (head?_flat h (by decide))
  newline := newline_not_mem_flat _

theorem flat_field : flat w.field = w.field.toList :=
  flat_of_not_mem fun h => absurd (w.field_chars _ h) (by decide)

/-- The field and what follows it. -/
def fieldLine : List Char :=
  Tag.fieldText w.optional (flat w.field) w.defaultForm (flat w.description)

/-- The type and what follows it. -/
def typeLine : List Char :=
  w.type.elim w.fieldLine fun t => t.form.textBefore (' ' :: w.fieldLine)

/-- The whole line. -/
def line : List Char :=
  inBrackets '(' ')' [' '] (w.group.map flat) ++ w.typeLine

theorem flat_fieldText : flat w.fieldText ++ behind (flat w.description) = w.fieldLine := by
  have hopen : flat "[" = ['['] := rfl
  have hclose : flat "]" = [']'] := rfl
  have hdefault : flat (w.initial.elim "" WrittenDefault.text) = w.defaultForm.text := by
    unfold defaultForm
    cases w.initial with
    | none => rfl
    | some d => exact d.flat_text
  simp only [fieldText, fieldLine, Tag.fieldText]
  cases w.optional <;> simp [opener, closer, flat_append, hopen, hclose, hdefault]

theorem flat_behind : flat (if w.description = "" then "" else " " ++ w.description) = behind (flat w.description) := by
  have hspace : flat " " = [' '] := rfl
  split_ifs with hempty
  · rw [hempty]
    rfl
  · obtain ⟨c, cs, hcons⟩ := List.exists_cons_of_ne_nil (mt flat_eq_nil.mp hempty)
    rw [flat_append, hspace, hcons]
    rfl

theorem flat_text : flat w.text = w.line := by
  have hopen : flat "(" = ['('] := rfl
  have hclose : flat ") " = [')', ' '] := rfl
  have hspace : flat " " = [' '] := rfl
  have htype : flat (w.type.elim "" fun t => t.text ++ " ") ++ w.fieldLine = w.typeLine := by
    unfold typeLine
    cases w.type with
    | none => rfl
    | some t =>
      rw [Option.elim_some, Option.elim_some, flat_append, hspace, List.append_assoc]
      exact t.flat_text _
  rw [text, flat_append, flat_append, flat_append, flat_behind, List.append_assoc, List.append_assoc,
    flat_fieldText, htype, line]
  cases w.group with
  | none => rfl
  | some g => simp [inBrackets, flat_append, hopen, hclose]

/-! ### Its parts -/

theorem head?_fieldLine : ∀ c ∈ w.fieldLine.head?, isBlank c = false ∧ c ≠ '(' ∧ c ≠ '{' := by
  intro c hc
  obtain ⟨first, more, hcons⟩ := List.exists_cons_of_ne_nil (mt String.toList_eq_nil_iff.mp w.field_ne_empty)
  have hfirst := w.field_chars first (by rw [hcons]; exact List.mem_cons_self)
  rw [fieldLine, Tag.fieldText, flat_field, hcons] at hc
  cases hoptional : w.optional with
  | true =>
    rw [hoptional] at hc
    cases hc
    decide
  | false =>
    rw [hoptional] at hc
    cases hc
    refine ⟨isBlank_of_isFieldChar hfirst, ?_, ?_⟩ <;>
    · rintro rfl
      exact absurd hfirst (by decide)

theorem head?_typeLine : ∀ c ∈ w.typeLine.head?, isBlank c = false ∧ c ≠ '(' := by
  unfold typeLine
  cases w.type with
  | none => exact fun c hc => ⟨(w.head?_fieldLine c hc).1, (w.head?_fieldLine c hc).2.1⟩
  | some t =>
    intro c hc
    cases hc
    decide

/-- What is captured of a parameter, the latest first. -/
def captures : Captures :=
  (10, ⟨flat w.description, []⟩) :: (fieldCaptures w.optional (flat w.field) w.defaultForm (flat w.description) ++
    (w.type.elim [] (fun t => t.form.captures (' ' :: w.fieldLine)) ++
      bracketCaptures 1 ')' (' ' :: w.typeLine) (w.group.map flat)))

/-- **The first way to match is the one that was meant.** -/
theorem accepts_line {α : Type} {next : Next α} {P : α → Prop} (h : Accepts next [] w.captures P) :
    Accepts (run (groupPart 1) (run blanks (run parameterTypePart (run parameterFieldPart
      (run (restPart 10) (run .textEnd next)))))) w.line [] P := by
  have hfield : Accepts (run parameterFieldPart (run (restPart 10) (run .textEnd next))) w.fieldLine
      (w.type.elim [] (fun t => t.form.captures (' ' :: w.fieldLine)) ++
        (bracketCaptures 1 ')' (' ' :: w.typeLine) (w.group.map flat) ++ [])) P := by
    rw [List.append_nil]
    refine accepts_parameterFieldPart (fun hnil => w.field_ne_empty (flat_eq_nil.mp hnil)) ?_
      w.isWritten_defaultForm w.isRest (accepts_restPart (newline_not_mem_flat _) h)
    rw [flat_field]
    exact w.field_chars
  have htype : Accepts (run parameterTypePart (run parameterFieldPart (run (restPart 10) (run .textEnd next))))
      w.typeLine (bracketCaptures 1 ')' (' ' :: w.typeLine) (w.group.map flat) ++ []) P := by
    revert hfield
    unfold typeLine
    cases w.type with
    | none =>
      exact accepts_opt_absent (refuses_lit rfl fun hhead => (w.head?_fieldLine _ hhead).2.2 rfl)
    | some t =>
      intro hfield
      have hgap : ∀ c ∈ [' '], isBlank c = true := by simp [isBlank]
      exact accepts_type t.isWritten hgap (fun c hc => (w.head?_fieldLine c hc).1) hfield
  have hpiece : ∀ g ∈ w.group.map flat, IsInner ')' g := by
    intro g hg
    obtain ⟨group, hgroup, rfl⟩ := Option.map_eq_some_iff.mp hg
    exact (w.group_piece group hgroup).isInner (by decide)
  have hblank : ∀ c ∈ w.line.head?, isBlank c = false := by
    unfold line
    cases w.group with
    | none => exact fun c hc => (w.head?_typeLine c hc).1
    | some g => simp [inBrackets, isBlank]
  exact accepts_chars_nil hblank (accepts_bracketed rfl rfl (by decide) (by simp [isBlank]) hpiece
    (fun c hc => (w.head?_typeLine c hc).1) (fun _ hhead => (w.head?_typeLine _ hhead).2 rfl)
    (accepts_chars_nil (fun c hc => (w.head?_typeLine c hc).1) htype))

/-! ### The text of a parameter -/

theorem isTrimmed_fieldText : IsTrimmed w.fieldText.toList := by
  have hfield : IsTrimmed w.field.toList :=
    isTrimmed_of_forall fun c hc => isBlank_of_isFieldChar (w.field_chars c hc)
  have hdefault : IsTrimmed (w.initial.elim "" WrittenDefault.text).toList := by
    cases w.initial with
    | none => exact isTrimmed_of_forall (by simp)
    | some d => exact d.isTrimmed_text
  unfold fieldText
  dsimp only
  split_ifs
  · rw [String.toList_append]
    exact .append_of_ne_nil (by simp [isBlank]) (isTrimmed_of_forall (by simp [isBlank])) (by simp)
  · rw [String.toList_append]
    exact hfield.append hdefault

theorem fieldText_ne_nil : w.fieldText.toList ≠ [] := by
  unfold fieldText
  dsimp only
  split_ifs
  · simp
  · simp [w.field_ne_empty]

/-- There are no blanks around the text. -/
theorem trim_text : trim w.text = w.text := by
  have hgroup : ∀ c ∈ (w.group.elim "" fun g => "(" ++ g ++ ") ").toList.head?, isBlank c = false := by
    cases w.group <;> simp [isBlank]
  have htype : ∀ c ∈ (w.type.elim "" fun t => t.text ++ " ").toList.head?, isBlank c = false := by
    cases w.type <;> simp [isBlank, WrittenType.text]
  have hfront : IsTrimmed ((w.group.elim "" fun g => "(" ++ g ++ ") ").toList ++
      (w.type.elim "" fun t => t.text ++ " ").toList ++ w.fieldText.toList) :=
    .append_of_ne_nil (isBlank_head?_append hgroup htype) w.isTrimmed_fieldText w.fieldText_ne_nil
  rw [trim_eq_self_iff, text, String.toList_append, String.toList_append, String.toList_append]
  split_ifs with hempty
  · exact hfront.append (isTrimmed_of_forall (by simp))
  · have hlast : (" " ++ w.description).toList = [' '] ++ w.description.toList := String.toList_append
    rw [hlast, ← List.append_assoc]
    refine .append_of_ne_nil ?_ (trim_eq_self_iff.mp w.trimmed) (mt String.toList_eq_nil_iff.mp hempty)
    rw [List.head?_append_of_ne_nil _ (List.append_ne_nil_of_right_ne_nil _ w.fieldText_ne_nil)]
    exact hfront.head

/-! ### Reading -/

/-- **The grammar finds the parts of a parameter.** -/
theorem exists_match : ∃ m, parameterPattern.find? (oneLine w.text) = some m ∧ m.captures = w.captures := by
  have hline : (oneLine w.text).toList = w.line := by
    rw [oneLine, w.trim_text, toList_flatten, flat_text]
  have hend : Accepts (fun there caps => some (Match.mk ⟨[], w.line⟩ there caps)) [] w.captures
      fun m => m.captures = w.captures := fun before => ⟨_, rfl, rfl⟩
  obtain ⟨m, hm, hcaps⟩ := w.accepts_line hend []
  have hmatch : matchAt? parameterPattern ⟨[], w.line⟩ = some m := run_alt_left hm
  exact ⟨m, by rw [find?, hline, search_of_matchAt? hmatch], hcaps⟩

/-- The default, if it stands in quotes or if it does not. -/
def valueIf (quoted : Bool) : Option String :=
  (w.initial.filter fun d => d.quoted == quoted).map (·.value)

/-- What a match holds of a parameter. -/
structure Found (m : Match) : Prop where
  group : restored m 1 = w.group
  type : restored m 2 = w.type.map (·.name)
  size : restored m 3 = w.type.bind (·.size)
  allowed : restored m 4 = w.type.bind (·.allowed)
  optional : (restored m 5).any (fun t => startsWith t "[") = w.optional
  field : restored m 6 = some w.field
  initial : [7, 8, 9].findSome? (restoredNonEmpty m) = w.initial.map (·.value)
  description : restored m 10 = some w.description

theorem held_default (rest : List Char) (k : Nat) : held (w.defaultForm.captures rest) k =
    (if 7 = k then w.valueIf true else none).or (if 9 = k then w.valueIf false else none) := by
  unfold defaultForm valueIf
  cases w.initial with
  | none => simp [DefaultForm.captures, held_nil]
  | some d =>
    rw [Option.elim_some, WrittenDefault.form]
    cases hquoted : d.quoted with
    | true => simp [DefaultForm.captures, held_cons, unflatten_span d.mark, held_nil, Option.filter, hquoted]
    | false => simp [DefaultForm.captures, held_cons, unflatten_span d.mark, held_nil, Option.filter, hquoted]

theorem held_type (rest : List Char) (k : Nat) :
    held (w.type.elim [] fun t => t.form.captures rest) k =
      (if 4 = k then w.type.bind (·.allowed) else none).or ((if 3 = k then w.type.bind (·.size) else none).or
        (if 2 = k then w.type.map (·.name) else none)) := by
  cases w.type with
  | none => simp [held_nil]
  | some t =>
    have hname : lineMark ∉ t.name.toList := fun h => absurd (t.chars _ h) (by decide)
    rw [Option.elim_some, TypeForm.captures, held_append, held_append, WrittenType.form,
      held_bracket fun a ha => (t.allowed_piece a ha).mark, held_bracket fun s hs => (t.size_piece s hs).mark,
      held_cons, unflatten_span hname, held_nil, Option.bind_some, Option.bind_some, Option.map_some]

/-- What each group of the match holds. -/
theorem restored_eq {m : Match} (hm : m.captures = w.captures) (k : Nat) : restored m k =
    if 10 = k then some w.description
    else if 5 = k then some (unflatten (Span.mk w.fieldLine (flat w.description)).text)
    else (((if 7 = k then w.valueIf true else none).or (if 9 = k then w.valueIf false else none)).or
        (if 6 = k then some w.field else none)).or
      (((if 4 = k then w.type.bind (·.allowed) else none).or ((if 3 = k then w.type.bind (·.size) else none).or
        (if 2 = k then w.type.map (·.name) else none))).or (if 1 = k then w.group else none)) := by
  have hdescription : unflatten (Span.mk (flat w.description) []).text = w.description := by
    simpa using unflatten_span w.mark []
  have hfield : lineMark ∉ w.field.toList := fun h => absurd (w.field_chars _ h) (by decide)
  rw [restored_eq_held, hm, captures, held_cons, hdescription, held_append, fieldCaptures, held_cons,
    held_append, held_default, held_cons, unflatten_span hfield, held_nil, held_append, held_type,
    held_bracket fun g hg => (w.group_piece g hg).mark]
  split_ifs <;> rfl

/-- The field starts with its bracket if it has one. -/
theorem startsWith_field :
    startsWith (unflatten (Span.mk w.fieldLine (flat w.description)).text) "[" = w.optional := by
  obtain ⟨gap, hbehind, -⟩ := behind_eq (flat w.description)
  have hline : w.fieldLine =
      opener w.optional ++ (flat w.field ++ (w.defaultForm.text ++ (closer w.optional ++ gap))) ++
        flat w.description := by
    simp only [fieldLine, Tag.fieldText, hbehind, List.append_assoc]
  rw [hline, text_span]
  refine startsWith_opener (fun hnil => w.field_ne_empty (flat_eq_nil.mp hnil)) ?_ _
  rw [flat_field]
  exact w.field_chars

theorem found {m : Match} (hm : m.captures = w.captures) : w.Found m where
  group := by simp [w.restored_eq hm]
  type := by simp [w.restored_eq hm]
  size := by simp [w.restored_eq hm]
  allowed := by simp [w.restored_eq hm]
  optional := by simp [w.restored_eq hm, startsWith_field]
  field := by simp [w.restored_eq hm]
  initial := by
    have hdouble : restored m 7 = w.valueIf true := by simp [w.restored_eq hm]
    have hsingle : restored m 8 = none := by simp [w.restored_eq hm]
    have hbare : restored m 9 = w.valueIf false := by simp [w.restored_eq hm]
    simp only [List.findSome?, restoredNonEmpty, hdouble, hsingle, hbare, valueIf]
    cases w.initial with
    | none => rfl
    | some d => cases hquoted : d.quoted <;> simp [Option.filter, hquoted, d.ne_empty]
  description := by simp [w.restored_eq hm]

end WrittenParameter

/-- **Reading a parameter gives its parts back.** -/
theorem readParameter_text (w : WrittenParameter) (defaultGroup : String) (memory : Memory) :
    (readParameter defaultGroup w.text memory).1 = some (w.value defaultGroup memory.parents) ∧
      (readParameter defaultGroup w.text memory).2.paramGroup = w.group.getD defaultGroup := by
  obtain ⟨m, hm, hcaps⟩ := w.exists_match
  have hfound := w.found hcaps
  have hgroup : (restoredNonEmpty m 1).getD defaultGroup = w.group.getD defaultGroup := by
    rw [restoredNonEmpty, hfound.group]
    cases hcase : w.group with
    | none => rfl
    | some g =>
      have hne := (w.group_piece g hcase).ne_empty
      simp [Option.filter, hne]
  rw [readParameter, hm]
  dsimp only
  rw [hgroup, hfound.type, hfound.size, hfound.allowed, hfound.optional, hfound.field, hfound.initial,
    hfound.description]
  refine ⟨?_, rfl⟩
  rw [WrittenParameter.value]
  simp only [Option.map_map, Option.any_map]
  rfl

/-- A parameter with all its parts. -/
def sizeParameter : WrittenParameter where
  group := some "Login form"
  type := some {
    name := "String[]", size := some "1..5", allowed := some "\"small\",\"huge\"", ne_empty := by decide
    chars := by decide
    size_piece := by rintro s ⟨⟩; exact ⟨by decide, by decide, by decide, by decide⟩
    allowed_piece := by rintro s ⟨⟩; exact ⟨by decide, by decide, by decide, by decide⟩ }
  field := "size"
  optional := true
  initial := some { value := "small", quoted := false, ne_empty := by decide, mark := by decide, ends := by decide }
  description := "Size\nof it"
  group_piece := by rintro g ⟨⟩; exact ⟨by decide, by decide, by decide, by decide⟩
  field_ne_empty := by decide
  field_chars := by decide
  trimmed := by decide
  equals := by decide
  close := by decide
  mark := by decide

theorem readParameter_text_size :
    sizeParameter.text = "(Login form) \x7bString[]\x7b1..5\x7d=\"small\",\"huge\"\x7d [size=small] Size\nof it" ∧
      (readParameter "Parameter" sizeParameter.text {}).1 = some (sizeParameter.value "Parameter" []) :=
  ⟨by decide, (readParameter_text sizeParameter "Parameter" {}).1⟩

end Tag
end Docblock
