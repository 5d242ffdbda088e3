/-
# Reading back what was written

The reader makes the same of an indented value whatever its lines end with,
as long as the ends are blanks: `readBack`, which follows the value and not
its text (`parse?_written`). It is the value itself exactly if the value is
readable (`readBack_eq_some_iff`): the reader goes deep enough, no key is
there twice, whole numbers fit in 64 bits and doubles are read as they were.

Key definitions: `Json.readBack`, `Json.Readable`.
Key theorems: `Json.readValue_pieces`, `Json.parse?_written`,
`Json.readBack_eq_some_iff`.
-/
import Docblock.Proofs.Json.Fields
import Docblock.Proofs.Json.Layout
import Docblock.Proofs.Json.Same

namespace Docblock
namespace Json

/-! ### What is read back -/

mutual

/-- What the reader makes of a value, with `depth` levels of nesting left. -/
def readBack : (depth : Nat) → Json → Option Json
  | _, .null => some .null
  | _, .bool b => some (.bool b)
  | _, .num n => (readNumber n.render.toList).map fun p => .num p.1
  | _, .str s => some (.str s)
  | 0, .arr _ => none
  | depth + 1, .arr xs => (readBackElems depth xs).map .arr
  | 0, .obj _ => none
  | depth + 1, .obj fields => (readBackFields depth fields).map fun read => .obj (Fields.setAll [] read)

/-- `readBack` on arrays. -/
def readBackElems (depth : Nat) : List Json → Option (List Json)
  | [] => some []
  | x :: xs => do return (← readBack depth x) :: (← readBackElems depth xs)

/-- `readBack` on entries. -/
def readBackFields (depth : Nat) : List (String × Json) → Option (List (String × Json))
  | [] => some []
  | (k, v) :: rest => do return (k, ← readBack depth v) :: (← readBackFields depth rest)

end

/-! ### Blanks -/

/-- Blanks only. -/
def Blank (cs : List Char) : Prop := ∀ c ∈ cs, isSpace c = true

theorem skipSpace_append {front : List Char} (h : Blank front) (rest : List Char) :
    skipSpace (front ++ rest) = skipSpace rest :=
  List.dropWhile_append_of_pos h

theorem skipSpace_cons {c : Char} (h : isSpace c = false) (cs : List Char) : skipSpace (c :: cs) = c :: cs := by
  simp [skipSpace, h]

theorem readValue_append_of_blank {front : List Char} (h : Blank front) (gather : List (String × Json) → Fields)
    (depth : Nat) (cs : List Char) : readValue gather depth (front ++ cs) = readValue gather depth cs := by
  rw [readValue, readValue, skipSpace_append h]

theorem readEntry_append_of_blank {front : List Char} (h : Blank front)
    (value : List Char → Option (Json × List Char)) (cs : List Char) :
    readEntry value (front ++ cs) = readEntry value cs := by
  rw [readEntry, readEntry, skipSpace_append h]

theorem blank_nextLine {ending : List Char} (h : Blank ending) (depth : Nat) :
    Blank (charsOf ending (nextLine depth)) := by
  intro c hc
  simp only [nextLine, charsOf_cons, charsOf_nil, Piece.chars, List.append_nil, List.mem_append] at hc
  rcases hc with hc | hc
  · exact h c hc
  · rw [List.eq_of_mem_replicate hc]
    rfl

theorem Ends.of_blank {front rest : List Char} (h : Blank front) (hrest : Ends rest) : Ends (front ++ rest) := by
  cases front with
  | nil => exact hrest
  | cons c front =>
    rintro d ⟨⟩
    exact .inl (h c List.mem_cons_self)

/-! ### The reader at the start of a value -/

/-- The first character of a value: it is there, it is no blank and it closes
nothing. -/
def Starts (cs : List Char) : Prop := ∃ c ∈ cs.head?, isSpace c = false ∧ c ≠ ']'

theorem IsNumeral.exists_cons {cs : List Char} (h : IsNumeral cs) :
    ∃ c ds, cs = c :: ds ∧ (c.isDigit = true ∨ c = '-') := by
  cases h with
  | minus h => exact ⟨'-', _, rfl, .inr rfl⟩
  | unsigned h =>
    obtain ⟨d, ds, rfl, hd⟩ := h.exists_cons
    exact ⟨d, ds, rfl, .inl hd⟩

/-- No numeral starts like a blank, another value or the end of an array. -/
theorem not_mem_of_numeral {c : Char} (h : c.isDigit = true ∨ c = '-') :
    c ∉ [' ', '\n', '\t', '\r', ']', 'n', 't', 'f', '"', '[', '{'] := by
  intro hc
  simp only [List.mem_cons, List.not_mem_nil, or_false] at hc
  rcases hc with rfl | rfl | rfl | rfl | rfl | rfl | rfl | rfl | rfl | rfl | rfl <;> simp at h

theorem isSpace_of_numeral {c : Char} (h : c.isDigit = true ∨ c = '-') : isSpace c = false := by
  have hnot := not_mem_of_numeral h
  simp only [List.mem_cons, not_or] at hnot
  simp [isSpace, hnot]

theorem starts_pieces (ending : List Char) (k : Nat) (v : Json) (rest : List Char) :
    Starts (charsOf ending (pieces k v) ++ rest) := by
  match v with
  | .null => exact ⟨'n', rfl, by decide, by decide⟩
  | .bool true => exact ⟨'t', rfl, by decide, by decide⟩
  | .bool false => exact ⟨'f', rfl, by decide, by decide⟩
  | .num n =>
    obtain ⟨c, ds, hcons, hc⟩ := (isNumeral_render n).exists_cons
    refine ⟨c, by simp [pieces, Piece.chars, hcons], isSpace_of_numeral hc, ?_⟩
    rintro rfl
    exact not_mem_of_numeral hc (by decide)
  | .str s => exact ⟨'"', by simp [pieces, Piece.chars, toList_quote], by decide, by decide⟩
  | .arr [] => exact ⟨'[', rfl, by decide, by decide⟩
  | .arr (x :: xs) => exact ⟨'[', by simp [pieces, Piece.chars], by decide, by decide⟩
  | .obj [] => exact ⟨'{', rfl, by decide, by decide⟩
  | .obj ((key, v) :: fields) => exact ⟨'{', by simp [pieces, Piece.chars], by decide, by decide⟩

variable {gather : List (String × Json) → Fields} {depth : Nat}

theorem readValue_numeral {cs rest : List Char} (h : IsNumeral cs) (hrest : Ends rest) :
    readValue gather depth (cs ++ rest) = (readNumber cs).map fun p => (.num p.1, rest) := by
  have hnumber := h.readNumber_append hrest
  obtain ⟨c, ds, rfl, hc⟩ := h.exists_cons
  have hnot := not_mem_of_numeral hc
  simp only [List.mem_cons, not_or] at hnot
  rw [List.cons_append] at hnumber ⊢
  rw [readValue, skipSpace_cons (isSpace_of_numeral hc)]
  simp [hnot, hnumber, Function.comp_def]

theorem readValue_quote (s : String) (rest : List Char) :
    readValue gather depth ((quote s).toList ++ rest) = some (.str s, rest) := by
  have htext := readText_escape rest s.toList
  rw [toList_quote, List.cons_append, readValue, skipSpace_cons (by decide)]
  simp [htext]

/-- An array with elements: the first, then the others. -/
theorem readValue_bracket {front cs : List Char} (hfront : Blank front) (hcs : Starts cs) :
    readValue gather (depth + 1) ('[' :: (front ++ cs)) = (do
      let (x, rest) ← readValue gather depth cs
      let (xs, rest) ← readElems (readValue gather depth) (rest.length + 1) rest
      return (.arr (x :: xs), rest)) := by
  obtain ⟨c, hhead, hspace, hclose⟩ := hcs
  obtain ⟨ds, rfl⟩ := List.head?_eq_some_iff.mp hhead
  rw [readValue, skipSpace_cons (by decide)]
  simp only [skipSpace_append hfront, skipSpace_cons hspace]
  split
  · rename_i heq
    exact absurd (List.cons.inj heq).1 hclose
  · rfl

/-- An object with entries: the first, then the others. -/
theorem readValue_brace {front : List Char} (hfront : Blank front) (key : String) (cs : List Char) :
    readValue gather (depth + 1) ('{' :: (front ++ ((quote key).toList ++ cs))) = (do
      let (entry, rest) ← readEntry (readValue gather depth) ((quote key).toList ++ cs)
      let (entries, rest) ← readEntries (readValue gather depth) (rest.length + 1) rest
      return (.obj (gather (entry :: entries)), rest)) := by
  rw [readValue, skipSpace_cons (by decide), toList_quote, List.cons_append]
  simp only [skipSpace_append hfront, skipSpace_cons (show isSpace '"' = false by decide)]
  rfl

/-- An entry: its key, then its value. -/
theorem readEntry_quote {value : Option Json} {cs rest : List Char}
    (h : readValue gather depth cs = value.map (·, rest)) (key : String) :
    readEntry (readValue gather depth) ((quote key).toList ++ ':' :: (List.replicate 1 ' ' ++ cs)) =
      value.map fun v => ((key, v), rest) := by
  have htext := readText_escape (':' :: (List.replicate 1 ' ' ++ cs)) key.toList
  have hblank : Blank (List.replicate 1 ' ') := by simp [Blank, isSpace]
  rw [readEntry, toList_quote, List.cons_append, skipSpace_cons (by decide)]
  simp only [List.append_assoc, List.cons_append, List.nil_append, htext, Option.bind_eq_bind, Option.bind_some,
    skipSpace_cons (show isSpace ':' = false by decide), readValue_append_of_blank hblank, h]
  cases value <;> simp

/-! ### Reading a layout -/

theorem ends_close {ending : List Char} (he : Blank ending) (k : Nat) {c : Char} (hc : c ∈ [',', ']', '}'])
    (rest : List Char) : Ends (charsOf ending (nextLine k ++ [.token [c]]) ++ rest) := by
  rw [charsOf_append, List.append_assoc]
  refine .of_blank (blank_nextLine he k) ?_
  rintro d ⟨⟩
  exact .inr hc

theorem ends_elemPieces {ending : List Char} (he : Blank ending) (k : Nat) (rest : List Char) (xs : List Json) :
    Ends (charsOf ending (elemPieces k xs) ++ rest) := by
  cases xs with
  | nil =>
    rw [elemPieces]
    exact ends_close he k (by decide) rest
  | cons x xs => simp [elemPieces, Piece.chars, Ends]

theorem ends_fieldPieces {ending : List Char} (he : Blank ending) (k : Nat) (rest : List Char)
    (fields : List (String × Json)) : Ends (charsOf ending (fieldPieces k fields) ++ rest) := by
  cases fields with
  | nil =>
    rw [fieldPieces]
    exact ends_close he k (by decide) rest
  | cons entry fields => simp [fieldPieces, Piece.chars, Ends]

mutual

/-- The reader takes a value from its pieces, and leaves what follows. -/
theorem readValue_pieces {ending : List Char} (he : Blank ending) :
    ∀ (v : Json) (k depth : Nat) {rest : List Char}, Ends rest →
      readValue (Fields.setAll []) depth (charsOf ending (pieces k v) ++ rest) = (readBack depth v).map (·, rest)
  | .null, k, depth, rest, _ => by
    rw [readValue]
    simp [pieces, Piece.chars, readBack, skipSpace, isSpace, readWord]
  | .bool b, k, depth, rest, _ => by
    rw [readValue]
    cases b <;> simp [pieces, Piece.chars, readBack, skipSpace, isSpace, readWord]
  | .num n, k, depth, rest, hrest => by
    simp [pieces, Piece.chars, readBack, readValue_numeral (isNumeral_render n) hrest, Function.comp_def]
  | .str s, k, depth, rest, _ => by simp [pieces, Piece.chars, readBack, readValue_quote]
  | .arr xs, k, 0, rest, _ => by
    rw [readValue]
    cases xs <;> simp [pieces, Piece.chars, readBack, skipSpace, isSpace]
  | .arr [], k, depth + 1, rest, _ => by
    rw [readValue]
    simp [pieces, Piece.chars, readBack, readBackElems, skipSpace, isSpace]
  | .arr (x :: xs), k, depth + 1, rest, _ => by
    have hx := readValue_pieces he x (k + 1) depth (ends_elemPieces he k rest xs)
    -- the fuel is the length of what is left, enough for all elements
    have hxs := readElems_pieces he xs k depth rest ((charsOf ending (elemPieces k xs) ++ rest).length + 1)
      (by rw [List.length_append]; omega)
    have hbracket := @readValue_bracket (Fields.setAll []) depth _ _ (blank_nextLine he (k + 1))
      (starts_pieces ending (k + 1) x (charsOf ending (elemPieces k xs) ++ rest))
    simp only [pieces, charsOf_cons, charsOf_append, Piece.chars, List.append_assoc, List.cons_append,
      List.nil_append]
    rw [hbracket, hx]
    cases hread : readBack depth x <;> cases hreads : readBackElems depth xs <;>
      simp [readBack, readBackElems, hread, hreads, hxs, -List.length_append]
  | .obj fields, k, 0, rest, _ => by
    rw [readValue]
    cases fields <;> simp [pieces, Piece.chars, readBack, skipSpace, isSpace]
  | .obj [], k, depth + 1, rest, _ => by
    rw [readValue]
    simp [pieces, Piece.chars, readBack, readBackFields, skipSpace, isSpace, Fields.setAll]
  | .obj ((key, v) :: fields), k, depth + 1, rest, _ => by
    have hv := readValue_pieces he v (k + 1) depth (ends_fieldPieces he k rest fields)
    have hfields := readEntries_pieces he fields k depth rest
      ((charsOf ending (fieldPieces k fields) ++ rest).length + 1) (by rw [List.length_append]; omega)
    simp only [pieces, charsOf_cons, charsOf_append, Piece.chars, List.append_assoc, List.cons_append,
      List.nil_append]
    rw [readValue_brace (blank_nextLine he (k + 1)), readEntry_quote hv]
    cases hread : readBack depth v <;> cases hreads : readBackFields depth fields <;>
      simp [readBack, readBackFields, hread, hreads, hfields, -List.length_append]

theorem readElems_pieces {ending : List Char} (he : Blank ending) :
    ∀ (xs : List Json) (k depth : Nat) (rest : List Char) (fuel : Nat),
      (charsOf ending (elemPieces k xs)).length < fuel →
      readElems (readValue (Fields.setAll []) depth) fuel (charsOf ending (elemPieces k xs) ++ rest) =
        (readBackElems depth xs).map (·, rest)
  | xs, k, depth, rest, 0, h => absurd h (Nat.not_lt_zero _)
  | [], k, depth, rest, fuel + 1, _ => by
    simp [elemPieces, readElems, readBackElems, Piece.chars, skipSpace_append (blank_nextLine he k),
      skipSpace_cons (show isSpace ']' = false by decide)]
  | x :: xs, k, depth, rest, fuel + 1, h => by
    -- the comma pays for the round
    simp only [elemPieces, charsOf_cons, charsOf_append, Piece.chars, List.length_cons, List.length_append] at h
    have hx := readValue_pieces he x (k + 1) depth (ends_elemPieces he k rest xs)
    have hxs := readElems_pieces he xs k depth rest fuel (by omega)
    simp only [elemPieces, charsOf_cons, charsOf_append, Piece.chars, List.append_assoc, List.cons_append,
      List.nil_append]
    rw [readElems, skipSpace_cons (by decide)]
    simp only [readValue_append_of_blank (blank_nextLine he (k + 1)), hx]
    cases hread : readBack depth x <;> cases hreads : readBackElems depth xs <;>
      simp [readBackElems, hread, hreads, hxs]

theorem readEntries_pieces {ending : List Char} (he : Blank ending) :
    ∀ (fields : List (String × Json)) (k depth : Nat) (rest : List Char) (fuel : Nat),
      (charsOf ending (fieldPieces k fields)).length < fuel →
      readEntries (readValue (Fields.setAll []) depth) fuel (charsOf ending (fieldPieces k fields) ++ rest) =
        (readBackFields depth fields).map (·, rest)
  | fields, k, depth, rest, 0, h => absurd h (Nat.not_lt_zero _)
  | [], k, depth, rest, fuel + 1, _ => by
    simp [fieldPieces, readEntries, readBackFields, Piece.chars, skipSpace_append (blank_nextLine he k),
      skipSpace_cons (show isSpace '}' = false by decide)]
  | (key, v) :: fields, k, depth, rest, fuel + 1, h => by
    simp only [fieldPieces, charsOf_cons, charsOf_append, Piece.chars, List.length_cons, List.length_append] at h
    have hv := readValue_pieces he v (k + 1) depth (ends_fieldPieces he k rest fields)
    have hfields := readEntries_pieces he fields k depth rest fuel (by omega)
    simp only [fieldPieces, charsOf_cons, charsOf_append, Piece.chars, List.append_assoc, List.cons_append,
      List.nil_append]
    rw [readEntries, skipSpace_cons (by decide)]
    simp only [readEntry_append_of_blank (blank_nextLine he (k + 1)), readEntry_quote hv]
    cases hread : readBack depth v <;> cases hreads : readBackFields depth fields <;>
      simp [readBackFields, hread, hreads, hfields]

end

/-- What is read does not depend on the line ends. -/
theorem parse?_written {ending : String} (he : Blank ending.toList) (v : Json) :
    parse? (written ending (v.pieces 0)) = readBack maxDepth v := by
  have hread := readValue_pieces he v 0 maxDepth ends_nil
  rw [List.append_nil] at hread
  rw [parse?, parseWith?, written, String.toList_ofList, hread]
  cases readBack maxDepth v <;> simp [skipSpace]

/-! ### Readable values -/

/-- A value that the reader takes back as it is, with `depth` levels of
nesting left. -/
inductive Readable : Nat → Json → Prop
  | null {depth : Nat} : Readable depth .null
  | bool {depth : Nat} {b : Bool} : Readable depth (.bool b)
  | int {depth : Nat} {n : Int} (h : -2 ^ 63 ≤ n ∧ n < 2 ^ 64) : Readable depth (.num (.int n))
  | real {depth : Nat} {x : Binary64} (h : (readNumber x.render.toList).map Prod.fst = some (.real x)) :
    Readable depth (.num (.real x))
  | str {depth : Nat} {s : String} : Readable depth (.str s)
  | arr {depth : Nat} {xs : List Json} (h : ∀ x ∈ xs, Readable depth x) : Readable (depth + 1) (.arr xs)
  | obj {depth : Nat} {fields : Fields} (hkeys : fields.Distinct)
    (h : ∀ entry ∈ fields, Readable depth entry.2) : Readable (depth + 1) (.obj fields)

theorem keys_readBackFields {depth : Nat} : ∀ {fields read : Fields}, readBackFields depth fields = some read →
    read.keys = fields.keys
  | [], read, h => by
    simp only [readBackFields, Option.some.injEq] at h
    rw [← h]
  | (k, v) :: rest, read, h => by
    simp only [readBackFields, Option.bind_eq_bind, Option.pure_def, Option.bind_eq_some_iff, Option.some.injEq] at h
    obtain ⟨w, -, more, hmore, rfl⟩ := h
    simpa [Fields.keys] using keys_readBackFields hmore

theorem setAll_nil {fields : Fields} (h : fields.Distinct) : Fields.setAll [] fields = fields :=
  Fields.setAll_eq_append h (by simp [Fields.keys])

/-- Entries are put together again as they were read if no key is there
twice. -/
theorem setAll_readBackFields_iff {depth : Nat} {fields read : Fields} (h : readBackFields depth fields = some read) :
    Fields.setAll [] read = fields ↔ fields.Distinct ∧ read = fields := by
  have hkeys := keys_readBackFields h
  constructor
  · intro hset
    have hfields : fields.Distinct := by
      rw [← hset]
      exact Fields.Distinct.setAll List.nodup_nil
    have hread : read.Distinct := by
      rw [Fields.Distinct, hkeys]
      exact hfields
    exact ⟨hfields, (setAll_nil hread).symm.trans hset⟩
  · rintro ⟨hfields, rfl⟩
    exact setAll_nil hfields

mutual

/-- The readable values are those that are read back as they are. -/
theorem readBack_eq_some_iff : ∀ (depth : Nat) (v : Json), readBack depth v = some v ↔ Readable depth v
  | depth, .null => by simp [readBack, Readable.null]
  | depth, .bool b => by simp [readBack, Readable.bool]
  | depth, .str s => by simp [readBack, Readable.str]
  | depth, .num (.int n) => by
    have hint : Readable depth (.num (.int n)) ↔ -2 ^ 63 ≤ n ∧ n < 2 ^ 64 :=
      ⟨fun | .int h => h, .int⟩
    rw [hint, ← readNumber_renderInt_iff, readBack, Number.render]
    cases readNumber (renderInt n).toList <;> simp
  | depth, .num (.real x) => by
    have hreal : Readable depth (.num (.real x)) ↔ (readNumber x.render.toList).map Prod.fst = some (.real x) :=
      ⟨fun | .real h => h, .real⟩
    rw [hreal, readBack, Number.render]
    cases readNumber x.render.toList <;> simp
  | 0, .arr xs => by
    simp only [readBack, reduceCtorEq, false_iff]
    rintro ⟨⟩
  | depth + 1, .arr xs => by
    have harr : Readable (depth + 1) (.arr xs) ↔ ∀ x ∈ xs, Readable depth x := ⟨fun | .arr h => h, .arr⟩
    rw [harr, ← readBackElems_eq_some_iff depth xs, readBack]
    cases readBackElems depth xs <;> simp
  | 0, .obj fields => by
    simp only [readBack, reduceCtorEq, false_iff]
    rintro ⟨⟩
  | depth + 1, .obj fields => by
    have hobj : Readable (depth + 1) (.obj fields) ↔
        Fields.Distinct fields ∧ ∀ entry ∈ fields, Readable depth entry.2 :=
      ⟨fun | .obj hkeys h => ⟨hkeys, h⟩, fun h => .obj h.1 h.2⟩
    rw [hobj, ← readBackFields_eq_some_iff depth fields, readBack]
    cases hread : readBackFields depth fields with
    | none => simp
    | some read => simpa using setAll_readBackFields_iff hread

theorem readBackElems_eq_some_iff : ∀ (depth : Nat) (xs : List Json),
    readBackElems depth xs = some xs ↔ ∀ x ∈ xs, Readable depth x
  | depth, [] => by simp [readBackElems]
  | depth, x :: xs => by
    rw [List.forall_mem_cons, ← readBack_eq_some_iff depth x, ← readBackElems_eq_some_iff depth xs, readBackElems]
    cases readBack depth x <;> cases readBackElems depth xs <;> simp

theorem readBackFields_eq_some_iff : ∀ (depth : Nat) (fields : Fields),
    readBackFields depth fields = some fields ↔ ∀ entry ∈ fields, Readable depth entry.2
  | depth, [] => by simp [readBackFields]
  | depth, (k, v) :: rest => by
    rw [List.forall_mem_cons, ← readBack_eq_some_iff depth v, ← readBackFields_eq_some_iff depth rest,
      readBackFields]
    cases readBack depth v <;> cases readBackFields depth rest <;> simp

end

instance (depth : Nat) (v : Json) : Decidable (Readable depth v) :=
  decidable_of_iff _ (readBack_eq_some_iff depth v)

end Json
end Docblock
