import Modem.Bus.Wire.Unmarshal
import Modem.Proofs.Bus.Offsets
import Modem.Proofs.Bus.Words

/-! # Words and text read back

What is read at some position of a message, from the bytes that have been written there, is what has
been written. The bytes that follow are left alone. -/

namespace Modem.Bus.Wire

/-- From some bytes at a position, whatever follows them, just this is read. -/
def Reads {α : Type} (read : Reader → Option (α × Reader)) (position : Nat) (bytes : List UInt8)
    (a : α) : Prop :=
  ∀ rest, read ⟨position, bytes ++ rest⟩ = some (a, ⟨position + bytes.length, rest⟩)

namespace Reader

/-! ## Bytes and padding -/

theorem take_append {n : Nat} {bytes : List UInt8} (length : bytes.length = n) (position : Nat)
    (rest : List UInt8) :
    take n ⟨position, bytes ++ rest⟩ = some (bytes, ⟨position + n, rest⟩) := by
  subst length
  simp [take, skip]

theorem align_zeros (alignment position : Nat) (rest : List UInt8) :
    align alignment ⟨position, zeros alignment position ++ rest⟩ =
      some ⟨position + padding alignment position, rest⟩ := by
  have length := length_zeros alignment position
  have zero : (zeros alignment position).all (· == 0) = true := by simp [zeros]
  simp [align, take_append length, zero, -List.all_eq_true]

/-! ## Words and text -/

theorem reads_word (order : ByteOrder) {width n : Nat} (fits : n < 256 ^ width) (position : Nat) :
    Reads (word order width) position (marshalWord order width n position) n := by
  intro rest
  have width_eq := order.length_wordBytes width n
  have value : order.ofWordBytes (order.wordBytes width n) = n := by
    rw [order.ofWordBytes_wordBytes, Nat.mod_eq_of_lt fits]
  simp [word, marshalWord, align_zeros, take_append width_eq, value, width_eq, Nat.add_assoc]

theorem textOf_append {text : String} (legible : 0 ∉ textBytes text) (position : Nat)
    (rest : List UInt8) :
    textOf (textBytes text).length ⟨position, textBytes text ++ 0 :: rest⟩ =
      some (text, ⟨position + (textBytes text).length + 1, rest⟩) := by
  simp [textOf, take_append rfl, ofTextBytes?_textBytes, legible, skip]

theorem reads_text {order : ByteOrder} {s : String} {position : Nat} {bytes : List UInt8}
    (written : marshalText order s position = some bytes) :
    Reads (text order) position bytes s := by
  intro rest
  simp only [marshalText] at written
  split at written
  · cases written
  next allowed =>
    simp only [Bool.or_eq_true, List.contains_iff_mem, decide_eq_true_eq, not_or,
      Nat.not_le] at allowed
    obtain ⟨legible, fits⟩ := allowed
    obtain rfl := Option.some.inj written
    have fits : (textBytes s).length < 256 ^ 4 := fits
    have length := reads_word order fits position (textBytes s ++ 0 :: rest)
    simp [text, length, textOf_append legible, Nat.add_assoc]

theorem reads_signature {s : Option Signature} {bytes : List UInt8}
    (readable : Signature.ofText? (signatureText s) = some s)
    (legible : 0 ∉ textBytes (signatureText s))
    (written : marshalSignature (signatureText s) = some bytes) (position : Nat) :
    Reads signature position bytes s := by
  intro rest
  simp only [marshalSignature] at written
  split at written
  · cases written
  next short =>
    obtain rfl := Option.some.inj written
    have head : (UInt8.ofNat (textBytes (signatureText s)).length).toNat =
        (textBytes (signatureText s)).length := by
      rw [UInt8.toNat_ofNat']
      omega
    have single : [UInt8.ofNat (textBytes (signatureText s)).length].length = 1 := rfl
    have length := take_append single position (textBytes (signatureText s) ++ 0 :: rest)
    simp only [List.singleton_append] at length
    simp [signature, length, ofLowBytes, head, textOf_append legible, readable]
    omega

end Reader

/-! ## Basic values -/

/-- A signature is read back only if it is inside its grammar. -/
def LegibleSignature (s : Option Signature) : Prop :=
  Signature.ofText? (signatureText s) = some s ∧ 0 ∉ textBytes (signatureText s)

theorem marshalWord_byte (order : ByteOrder) (n : UInt8) (position : Nat) :
    marshalWord order 1 n.toNat position = [n] := by
  have byte : lowBytes 1 n.toNat = [n] := by simp [lowBytes]
  have gap : zeros 1 position = [] := by simp [zeros, padding, Nat.mod_one]
  cases order <;> simp [marshalWord, ByteOrder.wordBytes, byte, gap]

theorem marshalBasic_ne_nil {order : ByteOrder} {b : Basic} {position : Nat} {bytes : List UInt8}
    (written : marshalBasic order b position = some bytes) : bytes ≠ [] := by
  have word (width n : Nat) (positive : 0 < width) :
      marshalWord order width n position ≠ [] := by
    have length := order.length_wordBytes width n
    intro nothing
    have empty := congrArg List.length nothing
    simp only [marshalWord, List.length_append, length, List.length_nil] at empty
    omega
  have text (t : String) (marshalled : marshalText order t position = some bytes) :
      bytes ≠ [] := by
    simp only [marshalText] at marshalled
    split at marshalled
    · cases marshalled
    · obtain rfl := Option.some.inj marshalled
      simp
  cases b with
  | byte n =>
    obtain rfl := Option.some.inj written
    simp
  | string s => exact text s written
  | objectPath path => exact text path written
  | signature s =>
    simp only [marshalBasic, marshalSignature] at written
    split at written
    · cases written
    · obtain rfl := Option.some.inj written
      simp
  | handle descriptor => cases written
  | _ =>
    obtain rfl := Option.some.inj written
    exact word _ _ (by decide)

theorem reads_basic {order : ByteOrder} {b : Basic} {position : Nat} {bytes : List UInt8}
    (legible : ∀ s, b = .signature s → LegibleSignature s)
    (written : marshalBasic order b position = some bytes) :
    Reads (unmarshalBasic order b.type) position bytes b := by
  intro rest
  have word {width n : Nat} (fits : n < 256 ^ width) :=
    Reader.reads_word order fits position rest
  cases b with
  | byte n =>
    obtain rfl := Option.some.inj written
    rw [← marshalWord_byte order n position]
    have fits : n.toNat < 256 ^ 1 := n.toNat_lt
    simp [Basic.type, unmarshalBasic, word fits]
  | boolean b =>
    obtain rfl := Option.some.inj written
    have zero : 0 < 256 ^ 4 := by decide
    have one : 1 < 256 ^ 4 := by decide
    cases b with
    | false => simp [Basic.type, unmarshalBasic, word zero]
    | true => simp [Basic.type, unmarshalBasic, word one]
  | int16 n =>
    obtain rfl := Option.some.inj written
    have fits : n.toUInt16.toNat < 256 ^ 2 := n.toUInt16.toNat_lt
    have same : Int16.ofNat n.toUInt16.toNat = n := congrArg Int16.ofUInt16 UInt16.ofNat_toNat
    simp [Basic.type, unmarshalBasic, word fits, same]
  | uint16 n =>
    obtain rfl := Option.some.inj written
    have fits : n.toNat < 256 ^ 2 := n.toNat_lt
    simp [Basic.type, unmarshalBasic, word fits]
  | int32 n =>
    obtain rfl := Option.some.inj written
    have fits : n.toUInt32.toNat < 256 ^ 4 := n.toUInt32.toNat_lt
    have same : Int32.ofNat n.toUInt32.toNat = n := congrArg Int32.ofUInt32 UInt32.ofNat_toNat
    simp [Basic.type, unmarshalBasic, word fits, same]
  | uint32 n =>
    obtain rfl := Option.some.inj written
    have fits : n.toNat < 256 ^ 4 := n.toNat_lt
    simp [Basic.type, unmarshalBasic, word fits]
  | int64 n =>
    obtain rfl := Option.some.inj written
    have fits : n.toUInt64.toNat < 256 ^ 8 := n.toUInt64.toNat_lt
    have same : Int64.ofNat n.toUInt64.toNat = n := congrArg Int64.ofUInt64 UInt64.ofNat_toNat
    simp [Basic.type, unmarshalBasic, word fits, same]
  | uint64 n =>
    obtain rfl := Option.some.inj written
    have fits : n.toNat < 256 ^ 8 := n.toNat_lt
    simp [Basic.type, unmarshalBasic, word fits]
  | double x =>
    obtain rfl := Option.some.inj written
    have fits : x.bits.toNat < 256 ^ 8 := x.bits.toNat_lt
    simp [Basic.type, unmarshalBasic, word fits]
  | string s => simp [Basic.type, unmarshalBasic, Reader.reads_text written rest]
  | objectPath path => simp [Basic.type, unmarshalBasic, Reader.reads_text written rest]
  | signature s =>
    obtain ⟨readable, clean⟩ := legible s rfl
    have read := Reader.reads_signature readable clean written position rest
    simp [Basic.type, unmarshalBasic, read]
  | handle descriptor => cases written

end Modem.Bus.Wire
