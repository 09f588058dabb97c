import Modem.Bus.Signature

/-! # Layout of marshalled values

Each value starts at a multiple of its alignment, counted from the start of the enclosing message.
Padding bytes are zero. -/

namespace Modem.Bus.Wire

inductive ByteOrder where
  | little
  | big
  deriving DecidableEq, Repr

/-! ## Alignment -/

/-- How many bytes lie between a position and the next multiple of the alignment. -/
def padding (alignment position : Nat) : Nat := (alignment - position % alignment) % alignment

def zeros (alignment position : Nat) : List UInt8 := List.replicate (padding alignment position) 0

def basicAlignment : BasicType → Nat
  | .byte | .signature => 1
  | .int16 | .uint16 => 2
  | .boolean | .int32 | .uint32 | .string | .objectPath | .handle => 4
  | .int64 | .uint64 | .double => 8

def alignment : Signature → Nat
  | .basic type => basicAlignment type
  | .variant => 1
  | .array _ | .dict _ _ => 4
  | .struct _ => 8

/-! ## Words -/

/-- The lowest `width` bytes of a number, the lowest first. -/
def lowBytes : Nat → Nat → List UInt8
  | 0, _ => []
  | width + 1, n => UInt8.ofNat (n % 256) :: lowBytes width (n / 256)

def ofLowBytes : List UInt8 → Nat
  | [] => 0
  | b :: rest => b.toNat + 256 * ofLowBytes rest

theorem length_lowBytes (width n : Nat) : (lowBytes width n).length = width := by
  induction width generalizing n with
  | zero => rfl
  | succ width ih => simp [lowBytes, ih]

namespace ByteOrder

def wordBytes (order : ByteOrder) (width n : Nat) : List UInt8 :=
  match order with
  | little => lowBytes width n
  | big => (lowBytes width n).reverse

def ofWordBytes (order : ByteOrder) (bytes : List UInt8) : Nat :=
  match order with
  | little => ofLowBytes bytes
  | big => ofLowBytes bytes.reverse

theorem length_wordBytes (order : ByteOrder) (width n : Nat) :
    (order.wordBytes width n).length = width := by
  cases order <;> simp [wordBytes, length_lowBytes]

end ByteOrder

/-! ## Text -/

def textBytes (text : String) : List UInt8 := text.toUTF8.data.toList

def ofTextBytes? (bytes : List UInt8) : Option String := String.fromUTF8? ⟨bytes.toArray⟩

theorem ofTextBytes?_textBytes (text : String) : ofTextBytes? (textBytes text) = some text := by
  simp [ofTextBytes?, textBytes, String.fromUTF8?]
  exact ⟨text.isValidUTF8, rfl⟩

end Modem.Bus.Wire
