/-! # Names on the bus

A well-known name has two elements or more with dots between them. An element is made of ASCII
letters, digits, underscores and hyphens, and does not begin with a digit. -/

namespace Modem.Bus.Name

/-! ## Names of modems -/

/-- The name under which modems are served. -/
def service : String := "org.freedesktop.ModemManager1"

def signalInterface : String := "org.freedesktop.ModemManager1.Modem.Signal"

def firmwareInterface : String := "org.freedesktop.ModemManager1.Modem.Firmware"

/-! ## Well-known names -/

def isElementChar (c : Char) : Bool := c.isAlphanum || c = '_' || c = '-'

/-- Reads element characters and the dots between elements; `started` says that the current element
has a character already. -/
def elementsFrom (started : Bool) : List Char → Bool
  | [] => started
  | c :: rest =>
    if c = '.' then started && elementsFrom false rest
    else isElementChar c && (started || !c.isDigit) && elementsFrom true rest

/-- The longest name, in bytes. -/
def maxSize : Nat := 255

def wellKnown (name : String) : Bool :=
  name.toList.contains '.' && elementsFrom false name.toList && name.utf8ByteSize ≤ maxSize

example : wellKnown service = true := by decide +kernel

example : wellKnown "a" = false ∧ wellKnown "a.1b" = false ∧ wellKnown ".a.b" = false ∧
    wellKnown "-a._-" = true := by decide +kernel

end Modem.Bus.Name
