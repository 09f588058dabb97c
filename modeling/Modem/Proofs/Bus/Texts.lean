import Modem.Bus.Wire.Layout

/-! # Bytes of texts

A text is the bytes of its characters, one character after the other. Only the NUL character has a
zero byte, and the smaller of two texts is the one with the smaller byte where they first differ. -/

namespace Modem.Bus.Wire

/-! ## Characters -/

theorem ofNat_lt_ofNat_iff {m n : Nat} : UInt8.ofNat m < UInt8.ofNat n ↔ m % 256 < n % 256 := by
  rw [UInt8.lt_iff_toNat_lt, UInt8.toNat_ofNat', UInt8.toNat_ofNat']

theorem ofNat_eq_ofNat_iff {m n : Nat} : UInt8.ofNat m = UInt8.ofNat n ↔ m % 256 = n % 256 := by
  rw [← UInt8.toNat_inj, UInt8.toNat_ofNat', UInt8.toNat_ofNat']

/-- The bytes of a number by its digits to the base 64. The first byte says how many follow, and no
number has more of them than it needs. -/
inductive Encoded : Nat → List UInt8 → Prop
  | one {a : Nat} (short : a < 128) : Encoded a [.ofNat a]
  | two {a b : Nat} (lead : a < 32) (digit : b < 64) (long : 128 ≤ 64 * a + b) :
    Encoded (64 * a + b) [.ofNat (a + 192), .ofNat (b + 128)]
  | three {a b c : Nat} (lead : a < 16) (digits : b < 64 ∧ c < 64)
      (long : 2048 ≤ 4096 * a + 64 * b + c) :
    Encoded (4096 * a + 64 * b + c) [.ofNat (a + 224), .ofNat (b + 128), .ofNat (c + 128)]
  | four {a b c d : Nat} (lead : a < 8) (digits : b < 64 ∧ c < 64 ∧ d < 64)
      (long : 65536 ≤ 262144 * a + 4096 * b + 64 * c + d) :
    Encoded (262144 * a + 4096 * b + 64 * c + d)
      [.ofNat (a + 240), .ofNat (b + 128), .ofNat (c + 128), .ofNat (d + 128)]

namespace Encoded

variable {m n : Nat} {bytes others : List UInt8}

theorem of_eq (encoded : Encoded m bytes) (same : m = n) : Encoded n bytes := same ▸ encoded

theorem ne_nil (encoded : Encoded n bytes) : bytes ≠ [] := by
  cases encoded <;> exact List.cons_ne_nil _ _

/-- The bytes of two numbers differ before either of them ends. -/
theorem append_lt (encoded : Encoded m bytes) (encoded' : Encoded n others) (less : m < n)
    (rest rest' : List UInt8) : bytes ++ rest < others ++ rest' := by
  cases encoded <;> cases encoded' <;>
    simp only [List.cons_append, List.nil_append, List.cons_lt_cons_iff, ofNat_lt_ofNat_iff,
      ofNat_eq_ofNat_iff] <;>
    omega

theorem zero_mem_iff (encoded : Encoded n bytes) : 0 ∈ bytes ↔ n = 0 := by
  have zero (m : Nat) : 0 = UInt8.ofNat m ↔ 0 = m % 256 := ofNat_eq_ofNat_iff (m := 0)
  cases encoded <;> simp only [List.mem_cons, List.not_mem_nil, or_false, zero] <;> omega

end Encoded

theorem toNat_val_lt (c : Char) : c.val.toNat < 0x110000 := by
  rcases c.valid with small | ⟨-, large⟩
  · have below : c.val.toNat < 0xd800 := small
    omega
  · exact large

theorem encoded_char (c : Char) : Encoded c.val.toNat (String.utf8EncodeChar c) := by
  have bound := toNat_val_lt c
  unfold String.utf8EncodeChar
  dsimp only
  split
  next short => exact .one (by omega)
  next =>
    split
    next short => exact (Encoded.two (by omega) (by omega) (by omega)).of_eq (by omega)
    next =>
      split
      next short => exact (Encoded.three (by omega) (by omega) (by omega)).of_eq (by omega)
      next => exact (Encoded.four (by omega) (by omega) (by omega)).of_eq (by omega)

/-! ## Texts -/

theorem textBytes_eq_flatMap (text : String) :
    textBytes text = text.toList.flatMap String.utf8EncodeChar := by
  rw [textBytes, String.toUTF8_eq_toByteArray, ← String.utf8Encode_toList]
  simp [List.utf8Encode]

/-- Only the NUL character is encoded with a zero byte. -/
theorem zero_mem_textBytes_iff (text : String) : 0 ∈ textBytes text ↔ '\x00' ∈ text.toList := by
  have nul (c : Char) : 0 ∈ String.utf8EncodeChar c ↔ c = '\x00' := by
    rw [(encoded_char c).zero_mem_iff, Char.ext_iff, ← UInt32.toNat_inj]
    rfl
  simp [textBytes_eq_flatMap, nul]

theorem flatMap_utf8EncodeChar_lt {cs ds : List Char} (less : cs < ds) :
    cs.flatMap String.utf8EncodeChar < ds.flatMap String.utf8EncodeChar := by
  induction cs generalizing ds with
  | nil =>
    cases ds with
    | nil => exact absurd less (List.lt_irrefl _)
    | cons d ds =>
      have some : (d :: ds).flatMap String.utf8EncodeChar ≠ [] := by
        rw [List.flatMap_cons]
        exact List.append_ne_nil_of_left_ne_nil (encoded_char d).ne_nil _
      exact (List.le_iff_lt_or_eq.1 (List.nil_le _)).resolve_right some.symm
  | cons c cs ih =>
    cases ds with
    | nil => exact absurd less (List.not_lt_nil _)
    | cons d ds =>
      rw [List.flatMap_cons, List.flatMap_cons]
      rcases List.cons_lt_cons_iff.1 less with smaller | ⟨rfl, later⟩
      · exact (encoded_char c).append_lt (encoded_char d) (UInt32.lt_iff_toNat_lt.1 smaller) _ _
      · exact List.append_left_lt (ih later)

/-- The order of texts is the order of their bytes. -/
theorem textBytes_lt_textBytes_iff {s t : String} : textBytes s < textBytes t ↔ s < t := by
  have mono {x y : String} (less : x < y) : textBytes x < textBytes y := by
    rw [textBytes_eq_flatMap, textBytes_eq_flatMap]
    exact flatMap_utf8EncodeChar_lt less
  refine ⟨fun less => String.not_le.1 fun notLess => ?_, mono⟩
  by_cases greater : t < s
  · exact List.lt_asymm less (mono greater)
  · obtain rfl := String.le_antisymm notLess (String.not_lt.1 greater)
    exact List.lt_irrefl _ less

theorem textBytes_le_textBytes_iff {s t : String} : textBytes s ≤ textBytes t ↔ s ≤ t := by
  rw [← List.not_lt, textBytes_lt_textBytes_iff, String.not_lt]

end Modem.Bus.Wire
