/-! # Update methods

The method that puts a module into firmware update mode, with its number on the bus. -/

namespace Modem.Firmware

inductive Method where
  | unknown
  /-- A command resets the module into fastboot mode. -/
  | fastboot
  | other (code : UInt32)
  deriving DecidableEq, Repr

namespace Method

def code : Method → UInt32
  | unknown => 0
  | fastboot => 1
  | other code => code

def ofCode (code : UInt32) : Method :=
  if code = 0 then unknown else if code = 1 then fastboot else other code

theorem code_ofCode (c : UInt32) : (ofCode c).code = c := by
  unfold ofCode
  split
  · simp_all [code]
  · split <;> simp_all [code]

def text : Method → String
  | unknown => "unknown"
  | fastboot => "fastboot"
  | other code => "unknown method (" ++ toString code.toNat ++ ")"

end Method

end Modem.Firmware
