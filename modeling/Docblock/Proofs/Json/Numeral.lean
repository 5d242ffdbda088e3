/-
# Written numbers

A number is written as a numeral: a sign, digits, a fraction and a power
(`isNumeral_render`). The reader of numbers takes a numeral as a whole, up to
the character that ends it (`IsNumeral.readNumber_append`). A whole number is
read back if it fits in 64 bits, and becomes a double otherwise
(`readNumber_renderInt_iff`).

Key definitions: `Json.IsNumeral`, `Json.Ends`.
Key theorems: `Json.isNumeral_render`, `Json.IsNumeral.readNumber_append`,
`Json.readNumber_renderInt_iff`.
-/
import Docblock.Proofs.Json.Quote

namespace Docblock
namespace Json

/-! ### Numerals -/

/-- At least one digit, and nothing else. -/
def IsDigits (cs : List Char) : Prop := cs ≠ [] ∧ ∀ c ∈ cs, c.isDigit = true

/-- The digits behind the point, if there is one. -/
inductive IsFraction : List Char → Prop
  | absent : IsFraction []
  | digits {ds : List Char} (h : IsDigits ds) : IsFraction ('.' :: ds)

/-- The power of ten, if there is one. -/
inductive IsPower : List Char → Prop
  | absent : IsPower []
  | digits {sign : Char} {ds : List Char} (hsign : sign = '+' ∨ sign = '-') (h : IsDigits ds) :
    IsPower ('e' :: sign :: ds)

/-- A number without its sign. -/
inductive IsUnsigned : List Char → Prop
  | mk {whole fraction power : List Char} (hwhole : IsDigits whole) (hfraction : IsFraction fraction)
    (hpower : IsPower power) : IsUnsigned (whole ++ (fraction ++ power))

/-- A written number. -/
inductive IsNumeral : List Char → Prop
  | unsigned {cs : List Char} (h : IsUnsigned cs) : IsNumeral cs
  | minus {cs : List Char} (h : IsUnsigned cs) : IsNumeral ('-' :: cs)

theorem isDigits_digitsOf (n : Nat) : IsDigits (Binary64.digitsOf n) :=
  ⟨Nat.toDigits_ne_nil, fun _ h => isDigit_of_mem_digitsOf h⟩

theorem IsDigits.append {cs ds : List Char} (h : IsDigits cs) (hds : ∀ d ∈ ds, d.isDigit = true) :
    IsDigits (cs ++ ds) := by
  refine ⟨by simp [h.1], fun c hc => ?_⟩
  rcases List.mem_append.mp hc with hc | hc
  · exact h.2 c hc
  · exact hds c hc

theorem isDigit_of_mem_zeros {n : Nat} : ∀ c ∈ List.replicate n '0', c.isDigit = true := fun c hc => by
  rw [List.eq_of_mem_replicate hc]
  rfl

theorem IsDigits.isUnsigned {cs : List Char} (h : IsDigits cs) : IsUnsigned cs := by
  simpa using IsUnsigned.mk h .absent .absent

theorem IsUnsigned.plain {whole ds : List Char} (hwhole : IsDigits whole) (hds : IsDigits ds) :
    IsUnsigned (whole ++ '.' :: ds) := by
  simpa using IsUnsigned.mk hwhole (.digits hds) .absent

theorem isUnsigned_renderPlain {digits : List Char} (h : IsDigits digits) (point : Int) :
    IsUnsigned (Binary64.renderPlain Binary64.layout digits point).toList := by
  have hzero : IsDigits ['0'] := ⟨by simp, by simp⟩
  unfold Binary64.renderPlain
  split_ifs with hpoint hlength
  · have hds : IsDigits (List.replicate (-point).toNat '0' ++ digits) :=
      ⟨by simp [h.1], fun c hc => (List.mem_append.mp hc).elim (isDigit_of_mem_zeros c) (h.2 c)⟩
    simpa using IsUnsigned.plain hzero hds
  · simpa [Binary64.layout] using IsUnsigned.plain (h.append isDigit_of_mem_zeros) hzero
  · have hwhole : IsDigits (digits.take point.toNat) :=
      ⟨by simp [h.1, hpoint], fun c hc => h.2 c (List.mem_of_mem_take hc)⟩
    have hds : IsDigits (digits.drop point.toNat) :=
      ⟨by simpa using hlength, fun c hc => h.2 c (List.mem_of_mem_drop hc)⟩
    simpa using IsUnsigned.plain hwhole hds

theorem isUnsigned_renderExponent {digits : List Char} (h : IsDigits digits) (exponent : Int) :
    IsUnsigned (Binary64.renderExponent Binary64.layout digits exponent).toList := by
  have hpower : IsPower ('e' :: (if exponent < 0 then '-' else '+') :: Binary64.digitsOf exponent.natAbs) :=
    .digits (by split_ifs <;> simp) (isDigits_digitsOf _)
  have hsign : (if exponent < 0 then "-" else "+").toList = [if exponent < 0 then '-' else '+'] := by
    split_ifs <;> rfl
  match digits, h with
  | [d], h => simpa [Binary64.renderExponent, Binary64.layout, hsign] using IsUnsigned.mk h .absent hpower
  | d :: e :: ds, h =>
    have hd : IsDigits [d] := ⟨by simp, by simpa using h.2 d (by simp)⟩
    have hds : IsDigits (e :: ds) := ⟨by simp, fun c hc => h.2 c (List.mem_cons_of_mem d hc)⟩
    simpa [Binary64.renderExponent, Binary64.layout, hsign] using IsUnsigned.mk hd (.digits hds) hpower

theorem IsUnsigned.signed {cs : List Char} (h : IsUnsigned cs) (negative : Prop) [Decidable negative] :
    IsNumeral ((if negative then "-" else "").toList ++ cs) := by
  split_ifs
  · exact .minus h
  · exact .unsigned h

/-- Numbers are written as numerals. -/
theorem isNumeral_render (n : Number) : IsNumeral n.render.toList := by
  cases n with
  | int n => simpa [Number.render, renderInt] using (isDigits_digitsOf n.natAbs).isUnsigned.signed (n < 0)
  | real x =>
    have hdigits := isDigits_digitsOf x.shortest.digits
    simp only [Number.render, Binary64.render]
    split
    · have hzero : IsDigits ['0'] := ⟨by simp, by simp⟩
      rw [String.append_assoc, String.toList_append]
      exact (IsUnsigned.plain hzero hzero).signed (x.negative = true)
    · rw [String.toList_append]
      refine IsUnsigned.signed ?_ (x.negative = true)
      split
      · exact isUnsigned_renderPlain hdigits _
      · exact isUnsigned_renderExponent hdigits _

/-! ### Reading numerals -/

/-- No number goes on here: the text is at its end, or at a blank or a mark
that stands behind a value. -/
def Ends (rest : List Char) : Prop := ∀ c ∈ rest.head?, isSpace c = true ∨ c ∈ [',', ']', '}']

theorem Ends.head {rest : List Char} (h : Ends rest) :
    ∀ c ∈ rest.head?, c.isDigit = false ∧ c ≠ '.' ∧ c ≠ 'e' ∧ c ≠ 'E' := by
  intro c hc
  have hcases := h c hc
  simp only [isSpace, Bool.or_eq_true, beq_iff_eq, List.mem_cons, List.not_mem_nil, or_false] at hcases
  rcases hcases with (((rfl | rfl) | rfl) | rfl) | rfl | rfl | rfl <;> decide

theorem span_digits {ds rest : List Char} (hds : IsDigits ds) (hrest : ∀ c ∈ rest.head?, c.isDigit = false) :
    (ds ++ rest).takeWhile Char.isDigit = ds ∧ (ds ++ rest).dropWhile Char.isDigit = rest := by
  rw [List.takeWhile_append_of_pos hds.2, List.dropWhile_append_of_pos hds.2]
  cases rest with
  | nil => simp
  | cons c rest =>
    have hc : c.isDigit = false := hrest c rfl
    simp [hc]

theorem IsFraction.readFraction_append {fraction : List Char} (h : IsFraction fraction) :
    ∃ digits, ∀ rest : List Char, (∀ c ∈ rest.head?, c.isDigit = false ∧ c ≠ '.') →
      readFraction (fraction ++ rest) = some (digits, rest) := by
  cases h with
  | absent =>
    refine ⟨none, fun rest hrest => ?_⟩
    cases rest with
    | nil => rfl
    | cons c rest =>
      have hc : c ≠ '.' := (hrest c rfl).2
      simp [readFraction, hc]
  | @digits ds h =>
    refine ⟨some ds, fun rest hrest => ?_⟩
    obtain ⟨htake, hdrop⟩ := span_digits h fun c hc => (hrest c hc).1
    rw [List.cons_append, readFraction, htake, hdrop]
    split
    · exact absurd rfl h.1
    · rfl

theorem IsPower.readExponent_append {power : List Char} (h : IsPower power) :
    ∃ value, ∀ rest : List Char, Ends rest → readExponent (power ++ rest) = some (value, rest) := by
  cases h with
  | absent =>
    refine ⟨none, fun rest hrest => ?_⟩
    cases rest with
    | nil => rfl
    | cons c rest =>
      obtain ⟨-, -, he, hE⟩ := hrest.head c rfl
      simp [readExponent, he, hE]
  | @digits sign ds hsign h =>
    let n : Nat := min (digitsValue ds) 1000000
    refine ⟨some (if sign = '-' then -(n : Int) else n), fun rest hrest => ?_⟩
    obtain ⟨htake, hdrop⟩ := span_digits h fun c hc => (hrest.head c hc).1
    obtain ⟨d, ds, rfl⟩ := List.exists_cons_of_ne_nil h.1
    rcases hsign with rfl | rfl <;> simp only [List.cons_append] at htake hdrop ⊢ <;>
      simp [readExponent, htake, hdrop, n]

theorem IsPower.head {power rest : List Char} (h : IsPower power) (hrest : Ends rest) :
    ∀ c ∈ (power ++ rest).head?, c.isDigit = false ∧ c ≠ '.' := by
  cases h with
  | absent => exact fun c hc => ⟨(hrest.head c hc).1, (hrest.head c hc).2.1⟩
  | digits => simp

theorem IsFraction.head {fraction rest : List Char} (h : IsFraction fraction)
    (hrest : ∀ c ∈ rest.head?, c.isDigit = false) : ∀ c ∈ (fraction ++ rest).head?, c.isDigit = false := by
  cases h with
  | absent => exact hrest
  | digits => simp

theorem ends_nil : Ends [] := by simp [Ends]

theorem IsUnsigned.readUnsigned_append {cs rest : List Char} (h : IsUnsigned cs) (negative : Bool)
    (hrest : Ends rest) :
    readUnsigned negative (cs ++ rest) = (readUnsigned negative cs).map fun p => (p.1, rest) := by
  obtain ⟨hwhole, hfraction, hpower⟩ := h
  rename_i whole fraction power
  obtain ⟨digits, hdigits⟩ := hfraction.readFraction_append
  obtain ⟨exponent, hexponent⟩ := hpower.readExponent_append
  -- the reader takes the same parts with and without what follows
  have hparts : ∀ rest, Ends rest →
      (whole ++ (fraction ++ (power ++ rest))).takeWhile Char.isDigit = whole ∧
      readFraction ((whole ++ (fraction ++ (power ++ rest))).dropWhile Char.isDigit) = some (digits, power ++ rest) := by
    intro rest hrest
    have hhead := hpower.head hrest
    obtain ⟨htake, hdrop⟩ := span_digits hwhole (hfraction.head fun c hc => (hhead c hc).1)
    rw [hdrop]
    exact ⟨htake, hdigits _ hhead⟩
  obtain ⟨htake, hread⟩ := hparts rest hrest
  obtain ⟨htake', hread'⟩ := hparts [] ends_nil
  have hexponent' := hexponent [] ends_nil
  rw [List.append_nil] at htake' hread' hexponent'
  rw [List.append_assoc, List.append_assoc]
  simp only [readUnsigned, htake, hread, htake', hread']
  split
  · rfl
  · cases digits <;> cases exponent <;> simp [hexponent _ hrest, hexponent', Option.map_eq_bind, Option.bind_assoc]

theorem IsUnsigned.exists_cons {cs : List Char} (h : IsUnsigned cs) :
    ∃ d ds, cs = d :: ds ∧ d.isDigit = true := by
  obtain ⟨⟨hne, hall⟩, -, -⟩ := h
  obtain ⟨d, ds, rfl⟩ := List.exists_cons_of_ne_nil hne
  exact ⟨d, _, rfl, hall d (by simp)⟩

theorem readNumber_of_isDigit {d : Char} (hd : d.isDigit = true) (cs : List Char) :
    readNumber (d :: cs) = readUnsigned false (d :: cs) := by
  rw [readNumber]
  rintro rest ⟨⟩
  exact absurd hd (by decide)

/-- A numeral is read as a whole, and as the same number whatever follows. -/
theorem IsNumeral.readNumber_append {cs rest : List Char} (h : IsNumeral cs) (hrest : Ends rest) :
    readNumber (cs ++ rest) = (readNumber cs).map fun p => (p.1, rest) := by
  cases h with
  | minus h => exact h.readUnsigned_append true hrest
  | unsigned h =>
    have hread := h.readUnsigned_append false hrest
    obtain ⟨d, ds, rfl, hd⟩ := h.exists_cons
    rw [readNumber_of_isDigit hd, ← hread]
    exact readNumber_of_isDigit hd _

/-! ### Whole numbers -/

theorem digitsValue_digitsOf (n : Nat) : digitsValue (Binary64.digitsOf n) = n := by
  calc digitsValue (Binary64.digitsOf n) = Nat.ofDigitChars 10 (Nat.toDigits 10 n) 0 := by
        simp only [digitsValue, Binary64.digitsOf, Nat.ofDigitChars, Nat.mul_comm 10]
        rfl
    _ = n := Nat.ofDigitChars_ten_toDigits

theorem digitChar_ne_zero : ∀ n < 10, n ≠ 0 → n.digitChar ≠ '0' := by decide

/-- A number above zero has no zero in front. -/
theorem head?_digitsOf {n : Nat} (hn : n ≠ 0) : (Binary64.digitsOf n).head? ≠ some '0' := by
  unfold Binary64.digitsOf
  induction n using Nat.strongRecOn with
  | ind n ih =>
    by_cases hlt : n < 10
    · rw [Nat.toDigits_of_lt_base hlt]
      simpa using digitChar_ne_zero n hlt hn
    · rw [Nat.toDigits_of_base_le (by decide) (by omega), List.head?_append_of_ne_nil _ Nat.toDigits_ne_nil]
      exact ih (n / 10) (by omega) (by omega)

theorem readUnsigned_digitsOf (negative : Bool) (n : Nat) :
    readUnsigned negative (Binary64.digitsOf n) = (wholeNumber negative (Binary64.digitsOf n)).map (·, []) := by
  have hdigits := isDigits_digitsOf n
  obtain ⟨htake, hdrop⟩ := @span_digits _ [] hdigits (by simp)
  rw [List.append_nil] at htake hdrop
  have hzero : ¬ ((Binary64.digitsOf n).length > 1 && (Binary64.digitsOf n).head? == some '0') := by
    by_cases hn : n = 0
    · subst hn
      decide
    · simp [head?_digitsOf hn]
  simp [readUnsigned, htake, hdrop, hdigits.1, hzero, readFraction, readExponent, Option.map_eq_bind]

theorem readNumber_renderInt (n : Int) :
    readNumber (renderInt n).toList = (wholeNumber (decide (n < 0)) (Binary64.digitsOf n.natAbs)).map (·, []) := by
  rw [← readUnsigned_digitsOf]
  by_cases hneg : n < 0
  · simp [renderInt, hneg, readNumber]
  · obtain ⟨d, ds, hcons, hd⟩ := (isDigits_digitsOf n.natAbs).isUnsigned.exists_cons
    simp [renderInt, hneg, hcons, readNumber_of_isDigit hd]

theorem numberOf_ne_int (negative : Bool) (whole fraction : List Char) (power n : Int) :
    numberOf negative whole fraction power ≠ some (.int n) := by
  unfold numberOf
  split <;> simp

/-- A whole number is read back if it fits in 64 bits; any other becomes a
double. -/
theorem readNumber_renderInt_iff (n : Int) :
    (readNumber (renderInt n).toList).map Prod.fst = some (.int n) ↔ -2 ^ 63 ≤ n ∧ n < 2 ^ 64 := by
  have hfst : (Prod.fst ∘ fun m : Number => (m, ([] : List Char))) = id := rfl
  rw [readNumber_renderInt, Option.map_map, hfst, Option.map_id, id_eq]
  simp only [wholeNumber, digitsValue_digitsOf]
  simp only [Nat.pow_eq, Nat.reducePow, decide_eq_true_eq, Bool.and_eq_true, bne_iff_ne, ne_eq]
  split_ifs with hneg hfits hfits <;>
    simp only [Option.some.injEq, Number.int.injEq, numberOf_ne_int, false_iff] <;> omega

end Json
end Docblock
