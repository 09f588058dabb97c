import Modem.Published.Client
import Modem.Published.Served
import Modem.Session.Script

/-! # A station

A session whose interface is served as an object on the bus. Calls on the object become requests of
the session, and what the interface publishes changes the object. -/

namespace Modem.Published

open Bus (ErrorReply StandardError Value)
open Session (Entry Event Step)
open Signal (Answer Call Requester)

structure Station where
  path : String
  session : Session
  served : Served := {}
  /-- Whether the object has ever been exported, which leaves the nodes above it. -/
  everExported : Bool := false

/-- What is found at a path. -/
inductive Node where
  | missing
  /-- There is a node without the interface. -/
  | bare
  | object
  deriving DecidableEq, Repr

namespace Station

/-- An exporter refuses a path outside the grammar of paths. -/
def checkPath (path : String) : Except Signal.Config.Defect Unit :=
  if Bus.ObjectPath.valid path then .ok () else .error (.invalidPath path)

/-! ## What the session says to the object -/

def callOf? (e : Entry) : Option Call :=
  match e.event with
  | .call c _ => some c
  | _ => none

def absorb (s : Station) (calls : List Call) : Station × List Change :=
  let (served, changes) := s.served.applyAll calls
  ({ s with served, everExported := s.everExported || calls.contains .exportObject }, changes)

/-- Exports the object by hand. -/
def preexport (s : Station) : Station := (s.absorb [.exportObject]).1

/-- The service does not survive that its object is taken off the root: it ends there, and whoever
waits for it hears that it is gone. -/
def fall (s : Station) (answer : Option Answer) : Station × Option Answer :=
  ({ s with session := { s.session with service := s.session.service.abort } },
    answer.map fun _ => .error Session.Service.gone)

/-- Takes a step of the session. -/
def step (s : Station) (step : Step) : Station × Option Answer × List Change :=
  let (session, report) := s.session.step step
  let calls := report.entries.filterMap callOf?
  let (s, changes) := { s with session }.absorb calls
  let (s, answer) :=
    if s.path = "/" && calls.contains .unexportObject then s.fall report.answer
    else (s, report.answer)
  (s, answer, changes)

/-! ## Calls on the object -/

def node (s : Station) (path : String) : Node :=
  if path = s.path && s.served.exported then .object
  else if path = "/" || s.everExported && Bus.ObjectPath.isAncestor path s.path then .bare
  else .missing

def unknownObject (path : String) : ErrorReply :=
  .standard .unknownObject ("Unknown object '" ++ path ++ "'")

def unknownInterface (interface : String) : ErrorReply :=
  .standard .unknownInterface ("Unknown interface '" ++ interface ++ "'")

/-- How a call to an interface is refused where the interface is not found. -/
def refusal? (s : Station) (path interface : String) : Option ErrorReply :=
  match s.node path with
  | .missing => some (unknownObject path)
  | .bare => some (unknownInterface interface)
  | .object =>
    if interface = Bus.Name.signalInterface then none else some (unknownInterface interface)

/-- The properties of the object at a path. -/
def properties (s : Station) (path : String) : Except ErrorReply Served :=
  match s.refusal? path Bus.Name.signalInterface with
  | some reply => .error reply
  | none => .ok s.served

def get (s : Station) (path interface property : String) : Except CallFault Value :=
  match s.refusal? path interface with
  | some reply => .error (.refused reply)
  | none =>
    match Property.named? property with
    | some p => .ok (s.served.get p)
    | none => .error .unknownProperty

/-- A Setup call. A call without a sender is refused before anybody is asked. -/
def setup (s : Station) (path : String) (rate : UInt32) (sender : Option Requester) :
    Station × Except ErrorReply Unit × List Change :=
  match s.refusal? path Bus.Name.signalInterface, sender with
  | some reply, _ => (s, .error reply, [])
  | none, none => (s, .error (.standard .accessDenied "Request has no sender"), [])
  | none, some who =>
    let (s, answer, changes) := s.step (.request (.setup rate who))
    match answer with
    | some (.ok ()) => (s, .ok (), changes)
    | some (.error fault) => (s, .error fault.toReply, changes)
    | none => (s, .error Session.Service.gone.toReply, changes)

/-- The station as the peer of a client with a given name on the bus. -/
def peer (sender : Option Requester) : Peer Station where
  get := get
  setup s path rate :=
    let (s, result, _) := s.setup path rate sender
    (s, result.mapError .refused)

end Station

end Modem.Published
