import Modem.Bus.ErrorReply

/-! # Faults

What can go wrong while an interface is driven or settings are read, and the error reply that a
caller on the bus gets for it. -/

namespace Modem

open Bus (ErrorReply StandardError)

/-! ## Causes on the bus -/

/-- A value that cannot be converted. -/
inductive ValueFault where
  | message (text : String)
  | incorrectType
  | outOfBounds
  | emptyStructure
  | invalidObjectPath
  deriving DecidableEq, Repr

namespace ValueFault

def text : ValueFault → String
  | message text => text
  | incorrectType => "incorrect type"
  | outOfBounds => "Out of bounds range specified"
  | emptyStructure => "Attempted to create an empty structure"
  | invalidObjectPath => "Invalid object path"

end ValueFault

/-- A failure of the bus connection. -/
inductive BusFault where
  | failure (text : String)
  | address (text : String)
  | handshake (text : String)
  | interfaceNotFound
  | invalidReply
  | nameTaken
  | missingField
  | unsupported
  | value (fault : ValueFault)
  | refused (reply : ErrorReply)
  deriving DecidableEq, Repr

namespace BusFault

def text : BusFault → String
  | failure text => text
  | address text => "address error: " ++ text
  | handshake text => "D-Bus handshake failed: " ++ text
  | interfaceNotFound => "Interface not found"
  | invalidReply => "Invalid D-Bus method reply"
  | nameTaken => "name already taken on the bus"
  | missingField => "A required field is missing from message headers"
  | unsupported => "Connection support is lacking"
  | value fault => fault.text
  | refused reply => reply.line

end BusFault

/-! ## Faults -/

inductive Fault where
  | bus (source : BusFault)
  | operation (context : String) (source : BusFault)
  | value (source : ValueFault)
  | unsupported (message : String)
  | unauthorized (message : String)
  | failed (message : String)
  | invalidArgument (message : String)
  deriving DecidableEq, Repr

namespace Fault

def text : Fault → String
  | bus source => "D-Bus error: " ++ source.text
  | operation context source => context ++ ": " ++ source.text
  | value source => "variant error: " ++ source.text
  | unsupported message => "unsupported: " ++ message
  | unauthorized message => "unauthorized: " ++ message
  | failed message => "failed: " ++ message
  | invalidArgument message => "invalid argument: " ++ message

/-- The text of the cause that the fault wraps. -/
def cause? : Fault → Option String
  | bus source => some source.text
  | operation _ source => some source.text
  | value source => some source.text
  | _ => none

/-- The answer to a call that fails so. -/
def toReply : Fault → ErrorReply
  | bus source => .standard .failed source.text
  | operation context source => .standard .failed (context ++ ": " ++ source.text)
  | value source => .standard .invalidArgs source.text
  | unsupported message => .standard .notSupported message
  | unauthorized message => .standard .accessDenied message
  | failed message => .standard .failed message
  | invalidArgument message => .standard .invalidArgs message

end Fault

end Modem
