/-
# The layout of an indented value

An indented value is a list of pieces: tokens, blanks and line ends
(`pretty_eq_written`). A token has no control characters
(`IsToken.printable`): texts have theirs escaped. So a line end stands where
the layout has one and nowhere else (`mem_charsOf`), and replacing the line
ends by others gives the same layout with the others (`replace_written`).

Key definitions: `Json.Piece`, `Json.written`, `Json.pieces`, `Json.IsToken`.
Key theorems: `Json.pretty_eq_written`, `Json.tokens_pieces`,
`Json.IsToken.printable`, `Json.replace_written`.
-/
import Docblock.Proofs.Json.Numeral
import Docblock.Proofs.Text.Cut

namespace Docblock

/-! ### Replacing a piece of text -/

namespace Text

theorem replaceChars_skip (piece new rest : List Char) : ∀ front : List Char,
    replaceChars piece new front.length (front ++ rest) = replaceChars piece new 0 rest
  | [] => rfl
  | _ :: front => replaceChars_skip piece new rest front

/-- The piece becomes the new one. -/
theorem replaceChars_piece (c : Char) (cs new rest : List Char) :
    replaceChars (c :: cs) new 0 ((c :: cs) ++ rest) = new ++ replaceChars (c :: cs) new 0 rest := by
  have hfound := dropPrefix?_append (c :: cs) rest
  rw [List.cons_append] at hfound ⊢
  rw [replaceChars, hfound]
  exact congrArg (new ++ ·) (replaceChars_skip (c :: cs) new rest cs)

/-- Where the first character of the piece does not occur, nothing changes. -/
theorem replaceChars_append_of_not_mem {c : Char} (cs new rest : List Char) : ∀ {front : List Char}, c ∉ front →
    replaceChars (c :: cs) new 0 (front ++ rest) = front ++ replaceChars (c :: cs) new 0 rest
  | [], _ => rfl
  | d :: front, h => by
    have hd : c ≠ d := fun hcd => h (hcd ▸ List.mem_cons_self)
    have hfront : c ∉ front := fun hc => h (List.mem_cons_of_mem d hc)
    have hnone : dropPrefix? (c :: cs) (d :: (front ++ rest)) = none := by simp [dropPrefix?, hd]
    rw [List.cons_append, replaceChars, hnone, List.cons_append]
    exact congrArg (d :: ·) (replaceChars_append_of_not_mem cs new rest hfront)

end Text

namespace Json

/-- A piece of an indented text. -/
inductive Piece where
  | token (cs : List Char)
  | blanks (count : Nat)
  | lineEnd
  deriving DecidableEq, Repr

/-- The characters of a piece, if lines end with `ending`. -/
def Piece.chars (ending : List Char) : Piece → List Char
  | token cs => cs
  | blanks count => List.replicate count ' '
  | lineEnd => ending

/-- The characters of pieces. -/
def charsOf (ending : List Char) (ps : List Piece) : List Char := ps.flatMap (Piece.chars ending)

/-- The pieces as a text. -/
def written (ending : String) (ps : List Piece) : String := String.ofList (charsOf ending.toList ps)

/-! ### The pieces of a value -/

/-- The end of a line and the indentation of the next. -/
def nextLine (depth : Nat) : List Piece := [.lineEnd, .blanks (2 * depth)]

mutual

/-- The pieces of a value, at an indentation depth. -/
def pieces (depth : Nat) : Json → List Piece
  | .null => [.token "null".toList]
  | .bool true => [.token "true".toList]
  | .bool false => [.token "false".toList]
  | .num n => [.token n.render.toList]
  | .str s => [.token (quote s).toList]
  | .arr [] => [.token ['['], .token [']']]
  | .arr (x :: xs) => .token ['['] :: (nextLine (depth + 1) ++ (pieces (depth + 1) x ++ elemPieces depth xs))
  | .obj [] => [.token ['{'], .token ['}']]
  | .obj ((k, v) :: rest) =>
    .token ['{'] :: (nextLine (depth + 1) ++ (.token (quote k).toList :: .token [':'] :: .blanks 1 ::
      (pieces (depth + 1) v ++ fieldPieces depth rest)))

/-- The elements after the first, and the closing bracket. -/
def elemPieces (depth : Nat) : List Json → List Piece
  | [] => nextLine depth ++ [.token [']']]
  | x :: xs => .token [','] :: (nextLine (depth + 1) ++ (pieces (depth + 1) x ++ elemPieces depth xs))

/-- The entries after the first, and the closing brace. -/
def fieldPieces (depth : Nat) : List (String × Json) → List Piece
  | [] => nextLine depth ++ [.token ['}']]
  | (k, v) :: rest =>
    .token [','] :: (nextLine (depth + 1) ++ (.token (quote k).toList :: .token [':'] :: .blanks 1 ::
      (pieces (depth + 1) v ++ fieldPieces depth rest)))

end

@[simp] theorem charsOf_nil (ending : List Char) : charsOf ending [] = [] := rfl

@[simp] theorem charsOf_cons (ending : List Char) (p : Piece) (ps : List Piece) :
    charsOf ending (p :: ps) = p.chars ending ++ charsOf ending ps := List.flatMap_cons

@[simp] theorem charsOf_append (ending : List Char) (ps qs : List Piece) :
    charsOf ending (ps ++ qs) = charsOf ending ps ++ charsOf ending qs := List.flatMap_append

theorem toList_newLine (depth : Nat) : (newLine depth).toList = charsOf ['\n'] (nextLine depth) := by
  simp [newLine, nextLine, Piece.chars]

mutual

theorem toList_prettyAt : ∀ (depth : Nat) (v : Json), (prettyAt depth v).toList = charsOf ['\n'] (pieces depth v)
  | _, .null | _, .bool true | _, .bool false | _, .arr [] | _, .obj [] => by simp [prettyAt, pieces, Piece.chars]
  | _, .num n => by simp [prettyAt, pieces, Piece.chars]
  | _, .str s => by simp [prettyAt, pieces, Piece.chars]
  | depth, .arr (x :: xs) => by
    simp [prettyAt, pieces, Piece.chars, toList_newLine, toList_prettyAt (depth + 1) x, toList_prettyElems depth xs]
  | depth, .obj ((k, v) :: rest) => by
    simp [prettyAt, pieces, Piece.chars, toList_newLine, toList_prettyAt (depth + 1) v,
      toList_prettyFields depth rest]

theorem toList_prettyElems : ∀ (depth : Nat) (xs : List Json),
    (prettyElems depth xs).toList = charsOf ['\n'] (elemPieces depth xs)
  | depth, [] => by simp [prettyElems, elemPieces, Piece.chars, toList_newLine]
  | depth, x :: xs => by
    simp [prettyElems, elemPieces, Piece.chars, toList_newLine, toList_prettyAt (depth + 1) x,
      toList_prettyElems depth xs]

theorem toList_prettyFields : ∀ (depth : Nat) (fields : List (String × Json)),
    (prettyFields depth fields).toList = charsOf ['\n'] (fieldPieces depth fields)
  | depth, [] => by simp [prettyFields, fieldPieces, Piece.chars, toList_newLine]
  | depth, (k, v) :: rest => by
    simp [prettyFields, fieldPieces, Piece.chars, toList_newLine, toList_prettyAt (depth + 1) v,
      toList_prettyFields depth rest]

end

theorem pretty_eq_written (v : Json) : v.pretty = written "\n" (v.pieces 0) := by
  rw [written, ← String.toList_inj, String.toList_ofList]
  exact toList_prettyAt 0 v

/-! ### Tokens -/

/-- A mark, a word, a number or a text in quotes. -/
inductive IsToken : List Char → Prop
  | mark {c : Char} (h : c ∈ ['[', ']', '{', '}', ',', ':']) : IsToken [c]
  | word {w : String} (h : w ∈ ["null", "true", "false"]) : IsToken w.toList
  | number {cs : List Char} (h : IsNumeral cs) : IsToken cs
  | text (s : String) : IsToken (quote s).toList

/-- All tokens among the pieces are tokens of JSON. -/
def Tokens (ps : List Piece) : Prop := ∀ cs, .token cs ∈ ps → IsToken cs

@[simp] theorem tokens_nil : Tokens [] := by simp [Tokens]

@[simp] theorem tokens_token (cs : List Char) (ps : List Piece) :
    Tokens (.token cs :: ps) ↔ IsToken cs ∧ Tokens ps := by
  simp [Tokens, or_imp, forall_and]

@[simp] theorem tokens_blanks (count : Nat) (ps : List Piece) : Tokens (.blanks count :: ps) ↔ Tokens ps := by
  simp [Tokens]

@[simp] theorem tokens_lineEnd (ps : List Piece) : Tokens (.lineEnd :: ps) ↔ Tokens ps := by
  simp [Tokens]

@[simp] theorem tokens_append (ps qs : List Piece) : Tokens (ps ++ qs) ↔ Tokens ps ∧ Tokens qs := by
  simp [Tokens, or_imp, forall_and]

@[simp] theorem tokens_nextLine (depth : Nat) : Tokens (nextLine depth) := by simp [nextLine]

mutual

theorem tokens_pieces : ∀ (depth : Nat) (v : Json), Tokens (pieces depth v)
  | _, .null => by simpa [pieces] using IsToken.word (w := "null") (by simp)
  | _, .bool true => by simpa [pieces] using IsToken.word (w := "true") (by simp)
  | _, .bool false => by simpa [pieces] using IsToken.word (w := "false") (by simp)
  | _, .num n => by simpa [pieces] using IsToken.number (isNumeral_render n)
  | _, .str s => by simpa [pieces] using IsToken.text s
  | _, .arr [] | _, .obj [] => by simp [pieces, IsToken.mark]
  | depth, .arr (x :: xs) => by
    simp [pieces, IsToken.mark, tokens_pieces (depth + 1) x, tokens_elemPieces depth xs]
  | depth, .obj ((k, v) :: rest) => by
    simp [pieces, IsToken.mark, IsToken.text, tokens_pieces (depth + 1) v, tokens_fieldPieces depth rest]

theorem tokens_elemPieces : ∀ (depth : Nat) (xs : List Json), Tokens (elemPieces depth xs)
  | depth, [] => by simp [elemPieces, IsToken.mark]
  | depth, x :: xs => by
    simp [elemPieces, IsToken.mark, tokens_pieces (depth + 1) x, tokens_elemPieces depth xs]

theorem tokens_fieldPieces : ∀ (depth : Nat) (fields : List (String × Json)), Tokens (fieldPieces depth fields)
  | depth, [] => by simp [fieldPieces, IsToken.mark]
  | depth, (k, v) :: rest => by
    simp [fieldPieces, IsToken.mark, IsToken.text, tokens_pieces (depth + 1) v, tokens_fieldPieces depth rest]

end

/-! ### Control characters -/

/-- No control characters. -/
def Printable (cs : List Char) : Prop := ∀ c ∈ cs, 32 ≤ c.toNat

@[simp] theorem printable_nil : Printable [] := by simp [Printable]

@[simp] theorem printable_cons {c : Char} {cs : List Char} : Printable (c :: cs) ↔ 32 ≤ c.toNat ∧ Printable cs := by
  simp [Printable]

@[simp] theorem printable_append {cs ds : List Char} : Printable (cs ++ ds) ↔ Printable cs ∧ Printable ds := by
  simp [Printable, or_imp, forall_and]

theorem IsDigits.printable {cs : List Char} (h : IsDigits cs) : Printable cs := fun c hc => by
  have hdigit := h.2 c hc
  simp only [Char.isDigit, ge_iff_le, Bool.and_eq_true, decide_eq_true_eq] at hdigit
  exact le_trans (by decide) (UInt32.le_iff_toNat_le.mp hdigit.1)

theorem IsUnsigned.printable {cs : List Char} (h : IsUnsigned cs) : Printable cs := by
  obtain ⟨hwhole, hfraction, hpower⟩ := h
  refine printable_append.mpr ⟨hwhole.printable, printable_append.mpr ⟨?_, ?_⟩⟩
  · cases hfraction with
    | absent => simp
    | digits h => simpa using h.printable
  · cases hpower with
    | absent => simp
    | digits hsign h => rcases hsign with rfl | rfl <;> simpa using h.printable

theorem printable_hexDigit : ∀ n < 32, 32 ≤ (hexDigit (n / 16)).toNat ∧ 32 ≤ (hexDigit (n % 16)).toNat := by
  decide

/-- The escape of a character has no control characters, whatever the
character is. -/
theorem printable_escapeChar (c : Char) : Printable (escapeChar c) := by
  unfold escapeChar
  split_ifs with hquote hback hb hf hn hr ht hcontrol
  iterate 7 (· simp)
  · simpa using printable_hexDigit c.toNat hcontrol
  · simpa using hcontrol

theorem IsToken.printable {cs : List Char} (h : IsToken cs) : Printable cs := by
  cases h with
  | mark h =>
    simp only [List.mem_cons, List.not_mem_nil, or_false] at h
    rcases h with rfl | rfl | rfl | rfl | rfl | rfl <;> simp
  | word h =>
    simp only [List.mem_cons, List.not_mem_nil, or_false] at h
    rcases h with rfl | rfl | rfl <;> simp
  | number h =>
    cases h with
    | unsigned h => exact h.printable
    | minus h => simpa using h.printable
  | text s =>
    have hbody : Printable (s.toList.flatMap escapeChar) := fun c hc => by
      obtain ⟨d, -, hd⟩ := List.mem_flatMap.mp hc
      exact printable_escapeChar d c hd
    rw [toList_quote, printable_cons, printable_append]
    exact ⟨by decide, hbody, by simp⟩

/-- A control character of the written pieces stands in a line end. -/
theorem mem_charsOf {ps : List Piece} (hps : Tokens ps) {ending : List Char} {c : Char}
    (h : c ∈ charsOf ending ps) (hc : c.toNat < 32) : c ∈ ending := by
  obtain ⟨p, hp, hcp⟩ := List.mem_flatMap.mp h
  cases p with
  | token cs => exact absurd ((hps cs hp).printable c hcp) (by omega)
  | blanks count =>
    rw [List.eq_of_mem_replicate hcp] at hc
    exact absurd hc (by decide)
  | lineEnd => exact hcp

/-! ### Other line ends -/

theorem replaceChars_charsOf {c : Char} (hc : c.toNat < 32) (cs new : List Char) :
    ∀ {ps : List Piece}, Tokens ps →
      Text.replaceChars (c :: cs) new 0 (charsOf (c :: cs) ps) = charsOf new ps
  | [], _ => rfl
  | .token ds :: ps, h => by
    obtain ⟨hds, hps⟩ := (tokens_token ds ps).mp h
    have hnot : c ∉ ds := fun hmem => absurd (hds.printable c hmem) (by omega)
    rw [charsOf_cons, charsOf_cons, Piece.chars, Piece.chars, Text.replaceChars_append_of_not_mem cs new _ hnot,
      replaceChars_charsOf hc cs new hps]
  | .blanks count :: ps, h => by
    have hnot : c ∉ List.replicate count ' ' := fun hmem => by
      rw [List.eq_of_mem_replicate hmem] at hc
      exact absurd hc (by decide)
    rw [charsOf_cons, charsOf_cons, Piece.chars, Piece.chars, Text.replaceChars_append_of_not_mem cs new _ hnot,
      replaceChars_charsOf hc cs new ((tokens_blanks count ps).mp h)]
  | .lineEnd :: ps, h => by
    rw [charsOf_cons, charsOf_cons, Piece.chars, Piece.chars, Text.replaceChars_piece,
      replaceChars_charsOf hc cs new ((tokens_lineEnd ps).mp h)]

/-- Replacing the line ends of a layout by others gives the layout with the
others. -/
theorem replace_written {old : String} {c : Char} {cs : List Char} (hold : old.toList = c :: cs)
    (hc : c.toNat < 32) (new : String) {ps : List Piece} (hps : Tokens ps) :
    Text.replace old new (written old ps) = written new ps := by
  rw [Text.replace, written, written, String.toList_ofList, hold, replaceChars_charsOf hc cs new.toList hps]

end Json
end Docblock
