import Modem.Bus.Dictionary
import Modem.Bus.Wire.Layout

/-! # Unmarshalling

Reading a value of a given type from the front of some bytes. Malformed bytes have no value: padding
that is not zero, a boolean other than 0 and 1, text that is not UTF-8 or holds a NUL, signatures
outside their grammar, items that do not end where their array ends, and values nested too
deeply. -/

namespace Modem.Bus.Wire

/-! ## Reading from the front -/

/-- Bytes still to be read, and the position of the first of them in the message. -/
structure Reader where
  position : Nat
  rest : List UInt8
  deriving DecidableEq, Repr

namespace Reader

/-- Passes over bytes, whatever they are and whether they are there or not. -/
def skip (n : Nat) (r : Reader) : Reader := ⟨r.position + n, r.rest.drop n⟩

def take (n : Nat) (r : Reader) : Option (List UInt8 × Reader) :=
  let bytes := r.rest.take n
  if bytes.length = n then some (bytes, r.skip n) else none

def align (alignment : Nat) (r : Reader) : Option Reader := do
  let (gap, r) ← r.take (padding alignment r.position)
  if gap.all (· == 0) then some r else none

def word (order : ByteOrder) (width : Nat) (r : Reader) : Option (Nat × Reader) := do
  let r ← r.align width
  let (bytes, r) ← r.take width
  return (order.ofWordBytes bytes, r)

/-- Text of a known length. The byte behind it is passed over. -/
def textOf (length : Nat) (r : Reader) : Option (String × Reader) := do
  let (bytes, r) ← r.take length
  let text ← ofTextBytes? bytes
  if bytes.contains 0 then none else some (text, r.skip 1)

def text (order : ByteOrder) (r : Reader) : Option (String × Reader) := do
  let (length, r) ← r.word order 4
  r.textOf length

def signature (r : Reader) : Option (Option Signature × Reader) := do
  let (length, r) ← r.take 1
  let (text, r) ← r.textOf (ofLowBytes length)
  return (← Signature.ofText? text, r)

end Reader

/-! ## Basic values -/

def unmarshalBasic (order : ByteOrder) : BasicType → Reader → Option (Basic × Reader)
  | .byte, r => (r.word order 1).map fun (n, r) => (.byte (.ofNat n), r)
  | .boolean, r => do
    let (n, r) ← r.word order 4
    if n = 0 then some (.boolean false, r)
    else if n = 1 then some (.boolean true, r)
    else none
  | .int16, r => (r.word order 2).map fun (n, r) => (.int16 (.ofNat n), r)
  | .uint16, r => (r.word order 2).map fun (n, r) => (.uint16 (.ofNat n), r)
  | .int32, r => (r.word order 4).map fun (n, r) => (.int32 (.ofNat n), r)
  | .uint32, r => (r.word order 4).map fun (n, r) => (.uint32 (.ofNat n), r)
  | .int64, r => (r.word order 8).map fun (n, r) => (.int64 (.ofNat n), r)
  | .uint64, r => (r.word order 8).map fun (n, r) => (.uint64 (.ofNat n), r)
  | .double, r => (r.word order 8).map fun (n, r) => (.double ⟨.ofNat n⟩, r)
  | .string, r => (r.text order).map fun (s, r) => (.string s, r)
  | .objectPath, r => (r.text order).map fun (path, r) => (.objectPath path, r)
  | .signature, r => r.signature.map fun (s, r) => (.signature s, r)
  | .handle, _ => none

/-! ## Nesting -/

/-- How many more structures, arrays and containers of any kind may be entered. -/
structure Nesting where
  structs : Nat
  arrays : Nat
  total : Nat
  deriving DecidableEq, Repr

namespace Nesting

def outermost : Nesting := ⟨Signature.maxDepth, Signature.maxDepth, 64⟩

def enterStruct (room : Nesting) : Option Nesting :=
  if room.structs = 0 || room.total = 0 then none
  else some ⟨room.structs - 1, room.arrays, room.total - 1⟩

def enterArray (room : Nesting) : Option Nesting :=
  if room.arrays = 0 || room.total = 0 then none
  else some ⟨room.structs, room.arrays - 1, room.total - 1⟩

def enterVariant (room : Nesting) : Option Nesting :=
  if room.total = 0 then none
  else some ⟨room.structs, room.arrays, room.total - 1⟩

end Nesting

/-! ## Items -/

/-- Items up to a position, which the last of them has to reach exactly. The bound is on their
number. -/
def unmarshalItems {α : Type} (item : Reader → Option (α × Reader)) (stop : Nat) :
    Nat → Reader → Option (List α × Reader)
  | 0, r => if r.position = stop then some ([], r) else none
  | n + 1, r =>
    if r.position = stop then some ([], r)
    else if stop < r.position then none
    else do
      let (first, r) ← item r
      let (more, r) ← unmarshalItems item stop n r
      return (first :: more, r)

def unmarshalArray {α : Type} (order : ByteOrder) (itemAlignment : Nat)
    (item : Reader → Option (α × Reader)) (r : Reader) : Option (List α × Reader) := do
  let (length, r) ← r.word order 4
  let r ← r.align itemAlignment
  unmarshalItems item (r.position + length) length r

/-! ## Values -/

/-- A value of a type; `inside` reads the content of a variant whose type has been read. -/
def unmarshalTyped (order : ByteOrder)
    (inside : Nesting → Signature → Reader → Option (Value × Reader)) :
    Signature → Nesting → Reader → Option (Value × Reader)
  | .basic type, _, r => (unmarshalBasic order type r).map fun (b, r) => (.basic b, r)
  | .variant, room, r => do
    let (s, r) ← r.signature
    let (content, r) ← inside (← room.enterVariant) (← s) r
    return (.variant content, r)
  | .array element, room, r => do
    let room ← room.enterArray
    let (items, r) ←
      unmarshalArray order (alignment element) (unmarshalTyped order inside element room) r
    return (.array element items, r)
  | .dict key value, room, r => do
    let room ← room.enterArray
    let entry (r : Reader) : Option ((Value × Value) × Reader) := do
      let r ← r.align 8
      let (k, r) ← unmarshalTyped order inside key room r
      let (v, r) ← unmarshalTyped order inside value room r
      return ((k, v), r)
    let (entries, r) ← unmarshalArray order 8 entry r
    return (Value.ofEntries key value entries, r)
  | .struct fields, room, r => do
    let r ← r.align 8
    let (values, r) ← unmarshalFields fields (← room.enterStruct) r
    return (.struct values, r)
where
  unmarshalFields : List Signature → Nesting → Reader → Option (List Value × Reader)
    | [], _, r => some ([], r)
    | s :: rest, room, r => do
      let (v, r) ← unmarshalTyped order inside s room r
      let (more, r) ← unmarshalFields rest room r
      return (v :: more, r)

/-- A value inside at most so many variants. -/
def unmarshalWithin (order : ByteOrder) :
    Nat → Nesting → Signature → Reader → Option (Value × Reader)
  | 0, room, s, r => unmarshalTyped order (fun _ _ _ => none) s room r
  | n + 1, room, s, r => unmarshalTyped order (unmarshalWithin order n) s room r

def unmarshal (order : ByteOrder) (s : Signature) (r : Reader) : Option (Value × Reader) :=
  unmarshalWithin order Nesting.outermost.total Nesting.outermost s r

end Modem.Bus.Wire
