/-! # Error replies

A refused call is answered with the name of an error and a text. -/

namespace Modem.Bus

/-- The standard errors that objects answer with. -/
inductive StandardError where
  | failed
  | accessDenied
  | invalidArgs
  | notSupported
  | unknownObject
  | unknownInterface
  | unknownProperty
  deriving DecidableEq, Repr

namespace StandardError

def name : StandardError → String
  | failed => "org.freedesktop.DBus.Error.Failed"
  | accessDenied => "org.freedesktop.DBus.Error.AccessDenied"
  | invalidArgs => "org.freedesktop.DBus.Error.InvalidArgs"
  | notSupported => "org.freedesktop.DBus.Error.NotSupported"
  | unknownObject => "org.freedesktop.DBus.Error.UnknownObject"
  | unknownInterface => "org.freedesktop.DBus.Error.UnknownInterface"
  | unknownProperty => "org.freedesktop.DBus.Error.UnknownProperty"

end StandardError

structure ErrorReply where
  name : String
  text : String
  deriving DecidableEq, Repr

namespace ErrorReply

def standard (error : StandardError) (text : String) : ErrorReply := ⟨error.name, text⟩

/-- Name and text on one line. -/
def line (reply : ErrorReply) : String := reply.name ++ ": " ++ reply.text

end ErrorReply

end Modem.Bus
