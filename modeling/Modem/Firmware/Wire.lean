import Modem.Bus.Wire.Marshal
import Modem.Bus.Wire.Unmarshal
import Modem.Firmware.Settings

/-! # Payloads on the wire -/

namespace Modem.Firmware.Payload

open Bus.Wire (ByteOrder)

/-- The bytes of a payload that starts at a position of the enclosing message. -/
def marshal (payload : Payload) (order : ByteOrder) (position : Nat) : Option (List UInt8) :=
  Bus.Wire.marshal order payload.toValue position

/-- A payload at the front of some bytes, and how many of them it takes. -/
def unmarshal (bytes : List UInt8) (order : ByteOrder) (position : Nat) :
    Option (Payload × Nat) := do
  let (value, r) ← Bus.Wire.unmarshal order .settings ⟨position, bytes⟩
  return (← ofValue? value, r.position - position)

end Modem.Firmware.Payload
