/-
# Bytes as text

UTF-8 with a replacement character for what is not UTF-8: each longest piece
that could have begun a character is replaced once. Latin-1 takes every byte
as a character.

Key definitions: `Bytes`, `utf8Chars`, `utf8Lossy`, `utf8?`, `latin1`.
-/

namespace Docblock

/-- The content of a file. -/
abbrev Bytes := List UInt8

namespace Text

/-- What a first byte announces: how many bytes follow, the range of the next
one, and the bits it carries. -/
structure LeadByte where
  more : Nat
  least : Nat
  most : Nat
  bits : Nat

/-- What a first byte of several announces. -/
def leadByte? (b : Nat) : Option LeadByte :=
  if 0xC2 ≤ b && b ≤ 0xDF then some ⟨1, 0x80, 0xBF, b - 0xC0⟩
  else if b == 0xE0 then some ⟨2, 0xA0, 0xBF, 0⟩
  else if b == 0xED then some ⟨2, 0x80, 0x9F, 13⟩
  else if 0xE1 ≤ b && b ≤ 0xEF then some ⟨2, 0x80, 0xBF, b - 0xE0⟩
  else if b == 0xF0 then some ⟨3, 0x90, 0xBF, 0⟩
  else if 0xF1 ≤ b && b ≤ 0xF3 then some ⟨3, 0x80, 0xBF, b - 0xF0⟩
  else if b == 0xF4 then some ⟨3, 0x80, 0x8F, 4⟩
  else none

/-- Whether a byte continues a character. -/
def isContinuation (b : UInt8) : Bool := 0x80 ≤ b.toNat && b.toNat ≤ 0xBF

/-- The characters of UTF-8 bytes; `none` stands for a piece that is no
character. -/
def utf8Chars : Bytes → List (Option Char)
  | [] => []
  | a :: rest =>
    if a.toNat < 0x80 then some (Char.ofNat a.toNat) :: utf8Chars rest
    else match leadByte? a.toNat with
      | none => none :: utf8Chars rest
      | some lead =>
        match rest with
        | [] => [none]
        | b :: rest₁ =>
          if b.toNat < lead.least || lead.most < b.toNat then none :: utf8Chars (b :: rest₁)
          else
            let n := lead.bits * 64 + (b.toNat - 0x80)
            if lead.more == 1 then some (Char.ofNat n) :: utf8Chars rest₁
            else match rest₁ with
              | [] => [none]
              | c :: rest₂ =>
                if !isContinuation c then none :: utf8Chars (c :: rest₂)
                else
                  let n := n * 64 + (c.toNat - 0x80)
                  if lead.more == 2 then some (Char.ofNat n) :: utf8Chars rest₂
                  else match rest₂ with
                    | [] => [none]
                    | d :: rest₃ =>
                      if !isContinuation d then none :: utf8Chars (d :: rest₃)
                      else some (Char.ofNat (n * 64 + (d.toNat - 0x80))) :: utf8Chars rest₃

/-- The replacement character. -/
def replacement : Char := Char.ofNat 0xFFFD

/-- The text of UTF-8 bytes, with replacement characters. -/
def utf8Lossy (bytes : Bytes) : String :=
  String.ofList ((utf8Chars bytes).map fun c => c.getD replacement)

/-- The text of UTF-8 bytes, if all of them are. -/
def utf8? (bytes : Bytes) : Option String :=
  ((utf8Chars bytes).mapM id).map String.ofList

/-- The text of Latin-1 bytes. -/
def latin1 (bytes : Bytes) : String :=
  String.ofList (bytes.map fun b => Char.ofNat b.toNat)

/-- The UTF-8 bytes of a text. -/
def utf8Bytes (s : String) : Bytes := s.toUTF8.toList

end Text
end Docblock
