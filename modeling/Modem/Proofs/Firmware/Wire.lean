import Modem.Firmware.Wire
import Modem.Proofs.Bus.Legible
import Modem.Proofs.Bus.Texts
import Modem.Proofs.Firmware.Codec

/-! # Settings on the wire

The bytes of settings are laid out field by field. Whoever gets them, at whatever position of a
message and with whatever behind them, reads the payload that has been sent and takes no more than
its bytes. -/

namespace Modem.Firmware

open Bus (Signature Value)
open Bus.Wire

namespace Settings

/-! ## Layout -/

/-- The command, if there is one, has no NUL, and the word that counts the bytes of the fields can
hold their number. -/
def Sendable (s : Settings) : Prop :=
  ∀ command, s.command? = some command →
    '\x00' ∉ command.toList ∧ (textBytes command).length + 25 < UInt32.size

/-- The bytes of settings at the start of a message. -/
def layout (order : ByteOrder) (s : Settings) : List UInt8 :=
  order.wordBytes 4 s.method.code.toNat ++
    match s.command? with
    | none => order.wordBytes 4 0
    | some command =>
      order.wordBytes 4 ((textBytes command).length + 25) ++
        order.wordBytes 4 (textBytes commandKey).length ++ textBytes commandKey ++ [0] ++
        [1, 115, 0] ++ [0] ++
        order.wordBytes 4 (textBytes command).length ++ textBytes command ++ [0]

theorem marshalText_of_legible (order : ByteOrder) {text : String} (legible : 0 ∉ textBytes text)
    (fits : (textBytes text).length < UInt32.size) (position : Nat) :
    marshalText order text position =
      some (marshalWord order 4 (textBytes text).length position ++ textBytes text ++ [0]) := by
  simp [marshalText, legible, Nat.not_le.2 fits]

theorem length_textBytes_commandKey : (textBytes commandKey).length = 11 := by
  decide +kernel

theorem zero_not_mem_textBytes_commandKey : 0 ∉ textBytes commandKey := by
  decide +kernel

theorem marshalSignature_string :
    marshalSignature (Signature.basic .string).text = some [1, 115, 0] := by
  decide +kernel

/-- At the start of a message the settings have the bytes of their layout. -/
theorem marshal_encode_zero (order : ByteOrder) {s : Settings} (sendable : s.Sendable) :
    s.encode.marshal order 0 = some (s.layout order) := by
  cases has : s.command? with
  | none =>
    rw [encode_of_no_command has]
    simp [Payload.marshal, Payload.toValue, Fields.empty, Bus.Wire.marshal, marshal.marshalAll,
      marshal.marshalEntries, marshalArray, marshalBasic, marshalWord, layout, has, zeros, padding,
      order.length_wordBytes]
  | some command =>
    obtain ⟨clean, fits⟩ := sendable command has
    have method : s.method.code = 1 := by
      rw [← method_encode, encode_of_command has]
    have key := marshalText_of_legible order zero_not_mem_textBytes_commandKey
      (by rw [length_textBytes_commandKey]; decide) 8
    have value := marshalText_of_legible order
      (mt (zero_mem_textBytes_iff command).1 clean) (by omega) 27
    have length : 4 + (11 + (4 + ((textBytes command).length + 1) + 1 + 1 + 1 + 1 + 1)) =
        (textBytes command).length + 25 := by omega
    rw [encode_of_command has]
    simp [Payload.marshal, Payload.toValue, Fields.empty, Fields.insert, Entries.insert,
      Value.string, Value.signature, Bus.Basic.type, Bus.Wire.marshal, marshal.marshalAll,
      marshal.marshalEntries, marshalArray, marshalBasic, marshalWord, layout, has, zeros, padding,
      order.length_wordBytes, marshalSignature_string, key, value, method,
      length_textBytes_commandKey, length, Nat.not_le.2 fits]

/-- Settings take more bytes than they have at the start of a message only for the padding up to
the next multiple of eight. -/
theorem marshal_encode (order : ByteOrder) {s : Settings} (sendable : s.Sendable)
    (position : Nat) :
    s.encode.marshal order position = some (zeros 8 position ++ s.layout order) := by
  have start := marshal_encode_zero order sendable
  simp only [Payload.marshal, Payload.toValue] at start ⊢
  rw [marshal_struct, start]
  rfl

/-! ## Reading -/

theorem legibleSignature_string : LegibleSignature (some (.basic .string)) := by
  constructor <;> decide +kernel

theorem legible_string (n : Nat) (room : Nesting) (text : String) :
    Legible n room (.string text) :=
  .basic fun _ same => by cases same

theorem legible_encode (s : Settings) :
    Legible Nesting.outermost.total Nesting.outermost s.encode.toValue := by
  have method (room : Nesting) (n : UInt32) : Legible 64 room (.basic (.uint32 n)) :=
    .basic fun _ same => by cases same
  have inside : Nesting.outermost.enterStruct = some ⟨31, 32, 63⟩ := by decide
  have further : Nesting.enterArray ⟨31, 32, 63⟩ = some ⟨31, 31, 62⟩ := by decide
  refine .struct inside (List.cons_ne_nil _ _) ?_
  simp only [List.forall_mem_cons, List.not_mem_nil, false_implies, implies_true, and_true]
  refine ⟨method _ _, ?_⟩
  cases has : s.command? with
  | none =>
    rw [encode_of_no_command has]
    exact .dict further (fun _ no => by cases no)
      (fun _ no => by cases no) (fun _ no => by cases no) .nil
  | some command =>
    rw [encode_of_command has]
    have content : Legible 63 ⟨31, 31, 61⟩ (.string command) := legible_string _ _ command
    have value : Legible Nesting.outermost.total ⟨31, 31, 62⟩ (.variant (.string command)) :=
      .variant (by decide) legibleSignature_string content
    refine .dict further ?_ ?_ ?_ (List.pairwise_singleton _ _)
    · simp [Fields.empty, Fields.insert, Entries.insert, Value.string, Value.signature,
        Bus.Basic.type]
    · simpa [Fields.empty, Fields.insert, Entries.insert] using legible_string _ _ commandKey
    · simpa [Fields.empty, Fields.insert, Entries.insert] using value

theorem ofValue?_toValue_encode (s : Settings) :
    Payload.ofValue? s.encode.toValue = some s.encode := by
  cases s <;> rfl

theorem signature_toValue (payload : Payload) :
    payload.toValue.signature = Signature.settings := rfl

/-- What has been written is read from the front of any bytes that begin with it. -/
theorem unmarshal_append {order : ByteOrder} {s : Settings} {position : Nat} {bytes : List UInt8}
    (written : s.encode.marshal order position = some bytes) (rest : List UInt8) :
    Payload.unmarshal (bytes ++ rest) order position = some (s.encode, bytes.length) := by
  have read := ((legible_encode s).readsBack order position bytes written).2 rest
  rw [← unmarshalWithin_eq, signature_toValue] at read
  simp [Payload.unmarshal, Bus.Wire.unmarshal, read, ofValue?_toValue_encode]

/-! ## Settings that cross the wire -/

/-- Settings survive the wire. At every position of a message, in either byte order and whatever
follows, they are read back from exactly the bytes that have been written, and these bytes depend on
the position only for the padding in front. -/
theorem settings_cross_wire {s : Settings} (sendable : s.Sendable) (order : ByteOrder)
    (position : Nat) :
    ∃ bytes,
      s.encode.marshal order position = some bytes ∧
      (∀ rest,
        Payload.unmarshal (bytes ++ rest) order position = some (s.encode, bytes.length)) ∧
      decode s.encode = .ok s ∧
      ∃ atStart, s.encode.marshal order 0 = some atStart ∧
        bytes = List.replicate ((8 - position % 8) % 8) 0 ++ atStart := by
  have written := marshal_encode order sendable position
  exact ⟨_, written, unmarshal_append written, decode_encode s, s.layout order,
    marshal_encode_zero order sendable, rfl⟩

/-- A command crosses the wire behind five bytes of the message. -/
theorem reset_command_crosses_wire :
    ∃ bytes,
      (fastboot "AT^RESET").encode.marshal .big 5 = some bytes ∧
      Payload.unmarshal (bytes ++ [7]) .big 5 =
        some ((fastboot "AT^RESET").encode, bytes.length) ∧
      bytes.length = 44 := by
  have sendable : (fastboot "AT^RESET").Sendable := by
    rintro command same
    obtain rfl := Option.some.inj same
    decide +kernel
  obtain ⟨bytes, written, read, -, -⟩ := settings_cross_wire sendable .big 5
  refine ⟨bytes, written, read [7], ?_⟩
  have same := written.symm.trans (marshal_encode .big sendable 5)
  obtain rfl := Option.some.inj same
  decide +kernel

end Settings

end Modem.Firmware
