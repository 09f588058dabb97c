/-! # Requesters and what they ask for -/

namespace Modem.Signal

/-- The bus name of the peer that issued a request. -/
structure Requester where
  name : String
  deriving DecidableEq, Repr

/-- Kinds of permission that a request may need. -/
inductive Permission where
  /-- Changing how the device operates. -/
  | deviceControl
  deriving DecidableEq, Repr

namespace Permission

def action : Permission → String
  | deviceControl => "org.freedesktop.ModemManager1.Device.Control"

end Permission

end Modem.Signal
