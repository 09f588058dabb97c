import Modem.Bus.Value
import Modem.Bus.Wire.Layout

/-! # Marshalling

The bytes of a value that starts at a given position of its message, padding in front included.
Text with a NUL and lengths that do not fit their word have no bytes, nor have open files. -/

namespace Modem.Bus.Wire

/-- A word at its own alignment. -/
def marshalWord (order : ByteOrder) (width n position : Nat) : List UInt8 :=
  zeros width position ++ order.wordBytes width n

def marshalText (order : ByteOrder) (text : String) (position : Nat) : Option (List UInt8) :=
  let bytes := textBytes text
  if bytes.contains 0 || UInt32.size ≤ bytes.length then none
  else some (marshalWord order 4 bytes.length position ++ bytes ++ [0])

def marshalSignature (text : String) : Option (List UInt8) :=
  let bytes := textBytes text
  if 256 ≤ bytes.length then none else some (UInt8.ofNat bytes.length :: bytes ++ [0])

/-- The text of a possibly empty signature. -/
def signatureText : Option Signature → String
  | some s => s.text
  | none => ""

def marshalBasic (order : ByteOrder) (b : Basic) (position : Nat) : Option (List UInt8) :=
  match b with
  | .byte n => some [n]
  | .boolean b => some (marshalWord order 4 (if b then 1 else 0) position)
  | .int16 n => some (marshalWord order 2 n.toUInt16.toNat position)
  | .uint16 n => some (marshalWord order 2 n.toNat position)
  | .int32 n => some (marshalWord order 4 n.toUInt32.toNat position)
  | .uint32 n => some (marshalWord order 4 n.toNat position)
  | .int64 n => some (marshalWord order 8 n.toUInt64.toNat position)
  | .uint64 n => some (marshalWord order 8 n.toNat position)
  | .double x => some (marshalWord order 8 x.bits.toNat position)
  | .string s => marshalText order s position
  | .objectPath path => marshalText order path position
  | .signature s => marshalSignature (signatureText s)
  | .handle _ => none

/-- The length of the items, padding up to the first of them, and the items. -/
def marshalArray (order : ByteOrder) (itemAlignment : Nat)
    (items : Nat → Option (List UInt8)) (position : Nat) : Option (List UInt8) := do
  let lengthEnd := position + padding 4 position + 4
  let gap := zeros itemAlignment lengthEnd
  let bytes ← items (lengthEnd + gap.length)
  if UInt32.size ≤ bytes.length then none
  else some (marshalWord order 4 bytes.length position ++ gap ++ bytes)

def marshal (order : ByteOrder) : Value → Nat → Option (List UInt8)
  | .basic b, position => marshalBasic order b position
  | .variant content, position => do
    let head ← marshalSignature content.signature.text
    let body ← marshal order content (position + head.length)
    some (head ++ body)
  | .array element items, position =>
    marshalArray order (alignment element) (marshalAll items) position
  | .dict _ _ entries, position => marshalArray order 8 (marshalEntries entries) position
  | .struct fields, position => do
    let gap := zeros 8 position
    let bytes ← marshalAll fields (position + gap.length)
    some (gap ++ bytes)
where
  marshalAll : List Value → Nat → Option (List UInt8)
    | [], _ => some []
    | v :: rest, position => do
      let head ← marshal order v position
      let tail ← marshalAll rest (position + head.length)
      some (head ++ tail)
  marshalEntries : List (Value × Value) → Nat → Option (List UInt8)
    | [], _ => some []
    | (key, v) :: rest, position => do
      let gap := zeros 8 position
      let keyBytes ← marshal order key (position + gap.length)
      let bytes ← marshal order v (position + gap.length + keyBytes.length)
      let head := gap ++ keyBytes ++ bytes
      let tail ← marshalEntries rest (position + head.length)
      some (head ++ tail)

end Modem.Bus.Wire
