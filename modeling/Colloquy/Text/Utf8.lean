/-!
# UTF-8

Texts are written as UTF-8 and read leniently: every longest run of bytes that starts a character
but cannot be completed becomes one replacement character, so each byte sequence has a reading and
damage stays where it is.

* `decodeUtf8_utf8`: a text that was written is read back unchanged.
-/

namespace Colloquy.Text

/-! ## Writing -/

/-- The UTF-8 bytes of a text. -/
def utf8 (text : String) : List UInt8 := text.toList.flatMap String.utf8EncodeChar

theorem utf8_append (text more : String) : utf8 (text ++ more) = utf8 text ++ utf8 more := by
  rw [utf8, String.toList_append, List.flatMap_append]
  rfl

/-! ## Reading -/

/-- Stands for bytes that are no character. -/
def replacement : Char := '\uFFFD'

/-- A character whose first bytes have been read: the value of their payload bits, the number of
bytes still to come, and the least and the greatest value of the next one. -/
structure Partial where
  payload : Nat
  owed : Nat
  low : Nat
  high : Nat
  deriving DecidableEq, Repr

/-- The characters completed by one byte, and the character left incomplete by it. -/
abbrev Decoded := List Char × Option Partial

/-- Reads a byte, given as a number, where a character may start. Overlong forms, surrogates and code
points above U+10FFFF are shut out by the bounds on the second byte. -/
def decodeFirst (byte : Nat) : Decoded :=
  if byte < 0x80 then ([Char.ofNat byte], none)
  else if byte < 0xC2 then ([replacement], none)
  else if byte < 0xE0 then ([], some ⟨byte - 0xC0, 1, 0x80, 0xBF⟩)
  else if byte < 0xF0 then
    let low := if byte = 0xE0 then 0xA0 else 0x80
    let high := if byte = 0xED then 0x9F else 0xBF
    ([], some ⟨byte - 0xE0, 2, low, high⟩)
  else if byte < 0xF5 then
    let low := if byte = 0xF0 then 0x90 else 0x80
    let high := if byte = 0xF4 then 0x8F else 0xBF
    ([], some ⟨byte - 0xF0, 3, low, high⟩)
  else ([replacement], none)

/-- Reads a byte after the incomplete character `p`. A byte that does not continue it leaves a
replacement character and is read as the start of another. -/
def decodeNext (p : Partial) (byte : Nat) : Decoded :=
  if p.low ≤ byte ∧ byte ≤ p.high then
    let payload := p.payload * 64 + (byte - 0x80)
    if p.owed ≤ 1 then ([Char.ofNat payload], none)
    else ([], some ⟨payload, p.owed - 1, 0x80, 0xBF⟩)
  else (replacement :: (decodeFirst byte).1, (decodeFirst byte).2)

/-- Reads one byte. -/
def decodeByte : Option Partial → Nat → Decoded
  | none => decodeFirst
  | some p => decodeNext p

/-- The characters of a byte sequence that continues an incomplete character, if there is one. A
character still incomplete at the end is replaced. -/
def decodeFrom : Option Partial → List UInt8 → List Char
  | none, [] => []
  | some _, [] => [replacement]
  | state, b :: bytes =>
    (decodeByte state b.toNat).1 ++ decodeFrom (decodeByte state b.toNat).2 bytes

/-- The text of a byte sequence. -/
def decodeUtf8 (bytes : List UInt8) : String := String.ofList (decodeFrom none bytes)

/-! ## Reading what was written -/

theorem decodeFrom_cons (state : Option Partial) (b : UInt8) (bytes : List UInt8) :
    decodeFrom state (b :: bytes) =
      (decodeByte state b.toNat).1 ++ decodeFrom (decodeByte state b.toNat).2 bytes := by
  cases state <;> rfl

theorem decodeFrom_first {n : Nat} (hn : n < 256) (bytes : List UInt8) :
    decodeFrom none (UInt8.ofNat n :: bytes) =
      (decodeFirst n).1 ++ decodeFrom (decodeFirst n).2 bytes := by
  rw [decodeFrom_cons, UInt8.toNat_ofNat_of_lt' hn]
  rfl

/-- A byte within the bounds of an incomplete character adds its payload bits. -/
theorem decodeFrom_next {payload owed low high n : Nat} (hn : n < 256) (hlow : low ≤ n)
    (hhigh : n ≤ high) (bytes : List UInt8) :
    decodeFrom (some ⟨payload, owed + 2, low, high⟩) (UInt8.ofNat n :: bytes) =
      decodeFrom (some ⟨payload * 64 + (n - 0x80), owed + 1, 0x80, 0xBF⟩) bytes := by
  rw [decodeFrom_cons, UInt8.toNat_ofNat_of_lt' hn]
  simp [decodeByte, decodeNext, hlow, hhigh]

/-- The last byte of a character completes it. -/
theorem decodeFrom_last {payload low high n : Nat} (hn : n < 256) (hlow : low ≤ n)
    (hhigh : n ≤ high) (bytes : List UInt8) :
    decodeFrom (some ⟨payload, 1, low, high⟩) (UInt8.ofNat n :: bytes) =
      Char.ofNat (payload * 64 + (n - 0x80)) :: decodeFrom none bytes := by
  rw [decodeFrom_cons, UInt8.toNat_ofNat_of_lt' hn]
  simp [decodeByte, decodeNext, hlow, hhigh]

theorem decodeFrom_encodeChar (c : Char) (bytes : List UInt8) :
    decodeFrom none (String.utf8EncodeChar c ++ bytes) = c :: decodeFrom none bytes := by
  have hvalid : c.val.toNat < 0xD800 ∨ 0xDFFF < c.val.toNat ∧ c.val.toNat < 0x110000 := c.valid
  have hback : Char.ofNat c.val.toNat = c := Char.ofNat_toNat c
  simp only [String.utf8EncodeChar]
  generalize c.val.toNat = v at hvalid hback ⊢
  rw [← hback]
  split
  · rw [List.singleton_append, decodeFrom_first (by omega), decodeFirst, if_pos (by omega)]
    rfl
  · split
    · rw [List.cons_append, List.singleton_append, decodeFrom_first (by omega), decodeFirst,
        if_neg (by omega), if_neg (by omega), if_pos (by omega), List.nil_append,
        decodeFrom_last (by omega) (by omega) (by omega)]
      rw [show (v / 64 % 32 + 192 - 0xC0) * 64 + (v % 64 + 128 - 0x80) = v by omega]
    · split
      · have hlow : (if v / 4096 % 16 + 224 = 0xE0 then 0xA0 else 0x80) ≤ v / 64 % 64 + 128 := by
          split <;> omega
        have hhigh : v / 64 % 64 + 128 ≤ (if v / 4096 % 16 + 224 = 0xED then 0x9F else 0xBF) := by
          split <;> omega
        rw [List.cons_append, List.cons_append, List.singleton_append,
          decodeFrom_first (by omega), decodeFirst, if_neg (by omega), if_neg (by omega),
          if_neg (by omega), if_pos (by omega)]
        dsimp only
        rw [List.nil_append, decodeFrom_next (by omega) hlow hhigh,
          decodeFrom_last (by omega) (by omega) (by omega)]
        rw [show ((v / 4096 % 16 + 224 - 0xE0) * 64 + (v / 64 % 64 + 128 - 0x80)) * 64 +
          (v % 64 + 128 - 0x80) = v by omega]
      · have hlow : (if v / 262144 % 8 + 240 = 0xF0 then 0x90 else 0x80) ≤
            v / 4096 % 64 + 128 := by
          split <;> omega
        have hhigh : v / 4096 % 64 + 128 ≤
            (if v / 262144 % 8 + 240 = 0xF4 then 0x8F else 0xBF) := by
          split <;> omega
        rw [List.cons_append, List.cons_append, List.cons_append, List.singleton_append,
          decodeFrom_first (by omega), decodeFirst, if_neg (by omega), if_neg (by omega),
          if_neg (by omega), if_neg (by omega), if_pos (by omega)]
        dsimp only
        rw [List.nil_append, decodeFrom_next (by omega) hlow hhigh,
          decodeFrom_next (by omega) (by omega) (by omega),
          decodeFrom_last (by omega) (by omega) (by omega)]
        rw [show (((v / 262144 % 8 + 240 - 0xF0) * 64 + (v / 4096 % 64 + 128 - 0x80)) * 64 +
          (v / 64 % 64 + 128 - 0x80)) * 64 + (v % 64 + 128 - 0x80) = v by omega]

theorem decodeUtf8_utf8 (text : String) : decodeUtf8 (utf8 text) = text := by
  have h : ∀ cs : List Char, decodeFrom none (cs.flatMap String.utf8EncodeChar) = cs := by
    intro cs
    induction cs with
    | nil => rfl
    | cons c cs ih => rw [List.flatMap_cons, decodeFrom_encodeChar, ih]
  rw [decodeUtf8, utf8, h, String.ofList_toList]

end Colloquy.Text
