/-
# Texts through their bytes

The bytes of a text are read as this text (`decode_toUTF8`).  The form of a character has one to
four bytes; reading them puts the character in front of what was read before, wherever it stands
(`decodeFrom_encodeChar`).
-/
import Mathlib
import SchemaTypes.Text.Utf8

namespace SchemaTypes.Text.Utf8

variable {position : Nat} {done : List Char} {rest : List UInt8}

/-! ## 1. Bytes as numbers -/

theorem toNat_ofNat_of_lt {n : Nat} (h : n < 256) : (UInt8.ofNat n).toNat = n := by
  rw [UInt8.toNat_ofNat']
  omega

/-- What the first byte announces, by its number. -/
theorem lead?_ofNat (position : Nat) {n : Nat} (h : n < 256) :
    lead? (UInt8.ofNat n) position =
      if n < 0xC2 then none
      else if n < 0xE0 then some ⟨UInt8.ofNat n, position, n - 0xC0, 1, 0x80, 0xBF⟩
      else if n < 0xF0 then
        some ⟨UInt8.ofNat n, position, n - 0xE0, 2, if n = 0xE0 then 0xA0 else 0x80,
          if n = 0xED then 0x9F else 0xBF⟩
      else if n < 0xF5 then
        some ⟨UInt8.ofNat n, position, n - 0xF0, 3, if n = 0xF0 then 0x90 else 0x80,
          if n = 0xF4 then 0x8F else 0xBF⟩
      else none := by
  rw [lead?]
  simp only [UInt8.lt_iff_toNat_lt, ← UInt8.toNat_inj, toNat_ofNat_of_lt h, UInt8.reduceToNat]

/-- The last byte of a form. -/
theorem decodeFrom_last {first low high : UInt8} {start value n : Nat} (hn : n < 64)
    (hlow : low.toNat ≤ n + 128) (hhigh : n + 128 ≤ high.toNat) :
    decodeFrom position (some ⟨first, start, value, 1, low, high⟩) done
        (UInt8.ofNat (n + 128) :: rest)
      = decodeFrom (position + 1) none (Char.ofNat (value * 64 + n) :: done) rest := by
  have hmod : (n + 128) % 64 = n := by omega
  rw [decodeFrom]
  simp only [UInt8.le_iff_toNat_le, toNat_ofNat_of_lt (show n + 128 < 256 by omega), hmod, hlow,
    hhigh, decide_true, Bool.and_self, if_true]

/-- A byte between the first one and the last one. -/
theorem decodeFrom_middle {first low high : UInt8} {start value more n : Nat} (hn : n < 64)
    (hlow : low.toNat ≤ n + 128) (hhigh : n + 128 ≤ high.toNat) :
    decodeFrom position (some ⟨first, start, value, more + 2, low, high⟩) done
        (UInt8.ofNat (n + 128) :: rest)
      = decodeFrom (position + 1) (some ⟨first, start, value * 64 + n, more + 1, 0x80, 0xBF⟩) done
          rest := by
  have hmod : (n + 128) % 64 = n := by omega
  rw [decodeFrom]
  simp only [UInt8.le_iff_toNat_le, toNat_ofNat_of_lt (show n + 128 < 256 by omega), hmod, hlow,
    hhigh, decide_true, Bool.and_self, if_true]
  rw [if_neg (by omega)]
  rfl

/-- A byte that stands for itself. -/
theorem decodeFrom_alone {n : Nat} (hn : n < 128) :
    decodeFrom position none done (UInt8.ofNat n :: rest)
      = decodeFrom (position + 1) none (Char.ofNat n :: done) rest := by
  have hbyte := toNat_ofNat_of_lt (n := n) (by omega)
  have hsmall : UInt8.ofNat n < 0x80 := by
    simp only [UInt8.lt_iff_toNat_lt, hbyte, UInt8.reduceToNat]
    exact hn
  rw [decodeFrom, if_pos hsmall, hbyte]

/-- A first byte that announces more. -/
theorem decodeFrom_lead {n : Nat} {p : Partial} (h : 128 ≤ n) (hn : n < 256)
    (hlead : lead? (UInt8.ofNat n) position = some p) :
    decodeFrom position none done (UInt8.ofNat n :: rest)
      = decodeFrom (position + 1) (some p) done rest := by
  have hlarge : ¬UInt8.ofNat n < 0x80 := by
    simp only [UInt8.lt_iff_toNat_lt, toNat_ofNat_of_lt hn, UInt8.reduceToNat]
    omega
  rw [decodeFrom, if_neg hlarge, hlead]

/-! ## 2. Characters -/

theorem toNat_continuation_le {n : Nat} : (0x80 : UInt8).toNat ≤ n % 64 + 128 :=
  Nat.le_add_left 128 _

theorem le_toNat_continuation {n : Nat} : n % 64 + 128 ≤ (0xBF : UInt8).toNat := by
  simp only [UInt8.reduceToNat]
  omega

/-- **The form of a character** is read as the character. -/
theorem decodeFrom_encodeChar (c : Char) :
    decodeFrom position none done (String.utf8EncodeChar c ++ rest)
      = decodeFrom (position + (String.utf8EncodeChar c).length) none (c :: done) rest := by
  have hvalid : c.val.toNat < 0xD800 ∨ 0xDFFF < c.val.toNat ∧ c.val.toNat < 0x110000 := c.valid
  have hchar : Char.ofNat c.val.toNat = c := Char.ofNat_toNat c
  generalize hv : c.val.toNat = v at hvalid hchar
  simp only [String.utf8EncodeChar, hv]
  split
  · next h =>
    rw [List.singleton_append, decodeFrom_alone (by omega), hchar]
    rfl
  split
  · next h₁ h =>
    have hlead := lead?_ofNat position (n := v / 64 % 32 + 192) (by omega)
    rw [if_neg (by omega), if_pos (by omega)] at hlead
    have hvalue : (v / 64 % 32 + 192 - 0xC0) * 64 + v % 64 = v := by omega
    simp only [List.cons_append, List.nil_append]
    rw [decodeFrom_lead (by omega) (by omega) hlead,
      decodeFrom_last (by omega) toNat_continuation_le le_toNat_continuation, hvalue, hchar]
    rfl
  split
  · next h₁ h₂ h =>
    have hlead := lead?_ofNat position (n := v / 4096 % 16 + 224) (by omega)
    rw [if_neg (by omega), if_neg (by omega), if_pos (by omega)] at hlead
    have hvalue : ((v / 4096 % 16 + 224 - 0xE0) * 64 + v / 64 % 64) * 64 + v % 64 = v := by omega
    -- The second byte rules out overlong forms and surrogates.
    have hlow : (if v / 4096 % 16 + 224 = 0xE0 then 0xA0 else 0x80 : UInt8).toNat
        ≤ v / 64 % 64 + 128 := by
      split <;> simp only [UInt8.reduceToNat] <;> omega
    have hhigh : v / 64 % 64 + 128
        ≤ (if v / 4096 % 16 + 224 = 0xED then 0x9F else 0xBF : UInt8).toNat := by
      split <;> simp only [UInt8.reduceToNat] <;> omega
    simp only [List.cons_append, List.nil_append]
    rw [decodeFrom_lead (by omega) (by omega) hlead, decodeFrom_middle (by omega) hlow hhigh,
      decodeFrom_last (by omega) toNat_continuation_le le_toNat_continuation, hvalue, hchar]
    rfl
  · next h₁ h₂ h₃ =>
    have hlead := lead?_ofNat position (n := v / 262144 % 8 + 240) (by omega)
    rw [if_neg (by omega), if_neg (by omega), if_neg (by omega), if_pos (by omega)] at hlead
    have hvalue : (((v / 262144 % 8 + 240 - 0xF0) * 64 + v / 4096 % 64) * 64 + v / 64 % 64) * 64
        + v % 64 = v := by omega
    have hlow : (if v / 262144 % 8 + 240 = 0xF0 then 0x90 else 0x80 : UInt8).toNat
        ≤ v / 4096 % 64 + 128 := by
      split <;> simp only [UInt8.reduceToNat] <;> omega
    have hhigh : v / 4096 % 64 + 128
        ≤ (if v / 262144 % 8 + 240 = 0xF4 then 0x8F else 0xBF : UInt8).toNat := by
      split <;> simp only [UInt8.reduceToNat] <;> omega
    simp only [List.cons_append, List.nil_append]
    rw [decodeFrom_lead (by omega) (by omega) hlead, decodeFrom_middle (by omega) hlow hhigh,
      decodeFrom_middle (by omega) toNat_continuation_le le_toNat_continuation,
      decodeFrom_last (by omega) toNat_continuation_le le_toNat_continuation, hvalue, hchar]
    rfl

/-! ## 3. Texts -/

theorem decodeFrom_flatMap (cs : List Char) :
    decodeFrom position none done (cs.flatMap String.utf8EncodeChar)
      = .ok (done.reverse ++ cs) := by
  induction cs generalizing position done with
  | nil => rw [List.flatMap_nil, decodeFrom, List.append_nil]
  | cons c cs ih =>
    rw [List.flatMap_cons, decodeFrom_encodeChar, ih, List.reverse_cons, List.append_assoc]
    rfl

/-- **The bytes of a text** are read as the text. -/
theorem decode_toUTF8 (s : String) : decode s.toUTF8.data.toList = .ok s.toList := by
  have hbytes : s.toUTF8 = s.toList.utf8Encode := String.utf8Encode_toList.symm
  have hlist : s.toList.utf8Encode.data.toList = s.toList.flatMap String.utf8EncodeChar := by
    rw [List.utf8Encode, List.data_toByteArray]
  rw [hbytes, hlist, decode, decodeFrom_flatMap, List.reverse_nil, List.nil_append]

end SchemaTypes.Text.Utf8
