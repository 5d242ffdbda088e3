/-
# Written texts

A text is written between quotes, with an escape for each character that
could not stand there itself. The reader of texts takes back what was
written (`readText_escape`), so different texts are written differently
(`quote_inj`), and no other value is written like a text
(`compact_eq_quote_iff`).

Key theorems: `Json.readText_escape`, `Json.quote_inj`,
`Json.compact_eq_quote_iff`.
-/
import Docblock.Json.Parser
import Docblock.Json.Printer
import Mathlib.Data.Nat.Digits.Lemmas

namespace Docblock
namespace Json

/-! ### Reading what was written -/

theorem readText_short {c e : Char} (h : shortEscape? c = some e) (rest : List Char) :
    readText ('\\' :: c :: rest) = (readText rest).map fun (t, r) => (e :: t, r) := by
  have hu : c ≠ 'u' := by
    rintro rfl
    simp [shortEscape?] at h
  rw [readText, h]
  · intro a b c d e f g h r hc
    exact absurd hc hu
  · intro a b c d r hc
    exact absurd hc hu

theorem readText_plain {c : Char} (hquote : c ≠ '"') (hback : c ≠ '\\') (h : ¬ c.toNat < 32)
    (rest : List Char) : readText (c :: rest) = (readText rest).map fun (t, r) => (c :: t, r) := by
  rw [readText, if_neg h]
  · exact hquote
  all_goals simp [hback]

theorem readText_control {a b : Char} {n : Nat} (h : hex4? '0' '0' a b = some n) (hn : n < 32)
    (rest : List Char) : readText ('\\' :: 'u' :: '0' :: '0' :: a :: b :: rest) =
      (readText rest).map fun (t, r) => (Char.ofNat n :: t, r) := by
  by_cases hpair : ∃ e f g i r, rest = '\\' :: 'u' :: e :: f :: g :: i :: r
  · obtain ⟨e, f, g, i, r, rfl⟩ := hpair
    rw [readText, h]
    simp [show ¬ 55296 ≤ n by omega, show ¬ 56320 ≤ n by omega]
  · rw [readText, h]
    · simp [show ¬ 55296 ≤ n by omega]
    · intro e f g i r hr
      exact hpair ⟨e, f, g, i, r, hr⟩

theorem hex4?_hexDigit : ∀ n < 32, hex4? '0' '0' (hexDigit (n / 16)) (hexDigit (n % 16)) = some n := by
  decide

/-- The reader takes back each character from its written form. -/
theorem readText_escapeChar (c : Char) (rest : List Char) :
    readText (escapeChar c ++ rest) = (readText rest).map fun (t, r) => (c :: t, r) := by
  unfold escapeChar
  split_ifs with hquote hback hb hf hn hr ht hcontrol
  · rw [beq_iff_eq.mp hquote]
    exact readText_short rfl rest
  · rw [beq_iff_eq.mp hback]
    exact readText_short rfl rest
  · rw [← Char.ofNat_toNat c, beq_iff_eq.mp hb]
    exact readText_short rfl rest
  · rw [← Char.ofNat_toNat c, beq_iff_eq.mp hf]
    exact readText_short rfl rest
  · rw [beq_iff_eq.mp hn]
    exact readText_short rfl rest
  · rw [beq_iff_eq.mp hr]
    exact readText_short rfl rest
  · rw [beq_iff_eq.mp ht]
    exact readText_short rfl rest
  · have h := readText_control (hex4?_hexDigit c.toNat hcontrol) hcontrol rest
    rwa [Char.ofNat_toNat] at h
  · exact readText_plain (by simpa using hquote) (by simpa using hback) hcontrol rest

/-- The reader takes back a text from its written form, up to the quote that
closes it. -/
theorem readText_escape (rest : List Char) : ∀ cs : List Char,
    readText (cs.flatMap escapeChar ++ '"' :: rest) = some (cs, rest)
  | [] => by simp [readText]
  | c :: cs => by
    rw [List.flatMap_cons, List.append_assoc, readText_escapeChar, readText_escape rest cs]
    rfl

theorem toList_quote (s : String) :
    (quote s).toList = '"' :: (s.toList.flatMap escapeChar ++ ['"']) := by
  simp [quote]

/-- Different texts are written differently. -/
theorem quote_inj {s t : String} (h : quote s = quote t) : s = t := by
  have hlist := congrArg String.toList h
  rw [toList_quote, toList_quote] at hlist
  have hread := congrArg readText (List.cons.inj hlist).2
  rw [readText_escape, readText_escape] at hread
  exact String.toList_inj.mp (Prod.mk.inj (Option.some.inj hread)).1

/-! ### Other values -/

theorem isDigit_of_mem_digitsOf {c : Char} {n : Nat} (h : c ∈ Binary64.digitsOf n) : c.isDigit :=
  Nat.isDigit_of_mem_toDigits (by decide) (by decide) h

theorem quote_not_mem_digitsOf (n : Nat) : '"' ∉ Binary64.digitsOf n := fun h =>
  absurd (isDigit_of_mem_digitsOf h) (by decide)

theorem quote_not_mem_renderPlain {digits : List Char} (h : '"' ∉ digits) (point : Int) :
    '"' ∉ (Binary64.renderPlain Binary64.layout digits point).toList := by
  unfold Binary64.renderPlain
  split_ifs
  · simp [h, List.mem_replicate]
  · simp [h, List.mem_replicate, Binary64.layout]
  · have htake : '"' ∉ digits.take point.toNat := fun hm => h (List.mem_of_mem_take hm)
    have hdrop : '"' ∉ digits.drop point.toNat := fun hm => h (List.mem_of_mem_drop hm)
    simp [htake, hdrop]

theorem quote_not_mem_renderExponent {digits : List Char} (h : '"' ∉ digits) (exponent : Int) :
    '"' ∉ (Binary64.renderExponent Binary64.layout digits exponent).toList := by
  have hdigits := quote_not_mem_digitsOf exponent.natAbs
  unfold Binary64.renderExponent
  rcases digits with _ | ⟨d, _ | ⟨e, ds⟩⟩ <;> split_ifs <;>
    simp_all [Binary64.layout]

theorem quote_not_mem_render (x : Binary64) : '"' ∉ x.render.toList := by
  have hdigits := quote_not_mem_digitsOf x.shortest.digits
  have hsign : '"' ∉ (if x.negative then "-" else "").toList := by split_ifs <;> decide
  unfold Binary64.render
  dsimp only
  by_cases hzero : x.isZero = true
  · rw [if_pos hzero, String.toList_append, String.toList_append, List.mem_append, List.mem_append,
      not_or, not_or]
    exact ⟨⟨hsign, by decide⟩, by decide⟩
  · rw [if_neg hzero, String.toList_append, List.mem_append, not_or]
    refine ⟨hsign, ?_⟩
    split_ifs
    · exact quote_not_mem_renderPlain hdigits _
    · exact quote_not_mem_renderExponent hdigits _

/-- No other value is written like a text. -/
theorem compact_eq_quote_iff (v : Json) (s : String) : v.compact = quote s ↔ v = .str s := by
  constructor
  · intro h
    have hlist := congrArg String.toList h
    rw [toList_quote] at hlist
    cases v with
    | str t => rw [quote_inj h]
    | num n =>
      have hmem : '"' ∈ n.render.toList := by
        rw [show n.render.toList = _ from hlist]
        exact List.mem_cons_self
      cases n with
      | real x => exact absurd hmem (quote_not_mem_render x)
      | int n =>
        have hdigits := quote_not_mem_digitsOf n.natAbs
        simp only [Number.render, renderInt] at hmem
        split_ifs at hmem <;> simp [hdigits] at hmem
    | null => simp [compact] at hlist
    | bool b => cases b <;> simp [compact] at hlist
    | arr xs => cases xs <;> simp [compact] at hlist
    | obj fields => cases fields <;> simp [compact] at hlist
  · rintro rfl
    rfl

end Json
end Docblock
