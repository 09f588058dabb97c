import Modem.Published.Client

/-! # A stand-in for a modem

A peer that serves fixed properties at one path and writes down the Setup calls that it gets. -/

namespace Modem.Published

open Bus (ErrorReply Value)

structure SetupCall where
  destination : String
  path : String
  interface : String
  rate : UInt32
  deriving DecidableEq, Repr

structure StandIn where
  path : String
  properties : List (String × Value)
  /-- How every Setup call is refused, if it is. -/
  refusal : Option ErrorReply
  /-- The calls in the order in which they came. -/
  calls : List SetupCall := []

namespace StandIn

def noObject : CallFault := .refused (.standard .unknownObject "no such object")

def peer : Peer StandIn where
  get s path _ property :=
    if path ≠ s.path then .error noObject
    else
      match s.properties.lookup property with
      | some value => .ok value
      | none => .error .unknownProperty
  setup s path rate :=
    if path ≠ s.path then (s, .error noObject)
    else
      let call : SetupCall := ⟨Bus.Name.service, path, Bus.Name.signalInterface, rate⟩
      ({ s with calls := s.calls ++ [call] },
        match s.refusal with
        | some reply => .error (.refused reply)
        | none => .ok ())

end StandIn

end Modem.Published
