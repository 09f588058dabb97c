import Modem.Signal.Reporting

/-! # The surroundings of an interface

Everything outside answers: the device to queries, the authorizer to requests, the bus to calls. An
answer says how long it takes and what it is. The world keeps the clock, counts what has been asked,
and writes down what has been said. -/

namespace Modem.Session

open Signal (Call Exchange Line Note Requester Snapshot)

/-! ## Answers -/

/-- What the device makes of a query. -/
structure Response where
  delay : Nat := 0
  lines : List Line := []
  result : Except Fault Snapshot

/-- What the authorizer makes of a request. -/
structure Verdict where
  delay : Nat := 0
  lines : List Line := []
  refusal : Option Fault := none

/-- What the bus makes of a call. -/
structure Delivery where
  delay : Nat := 0
  fault : Option Fault := none

/-- Each party answers by what it has been asked so far. -/
structure Surroundings where
  modem : State
  device : Nat → Response
  authorizer : Nat → Requester → Verdict
  bus : Nat → Call → Delivery
  /-- The longest that a call or an authorization takes. -/
  patience : Nat

/-! ## The world -/

inductive Event where
  | created
  /-- A call begins; what it fails with is fixed then. -/
  | call (c : Call) (fault : Option Fault)
  | authorize (who : Requester)
  /-- A query reaches the device. -/
  | query (number : Nat)
  | line (line : Line)
  deriving DecidableEq, Repr

structure Entry where
  time : Nat
  event : Event
  deriving DecidableEq, Repr

structure World where
  /-- The clock, in milliseconds. -/
  now : Nat := 0
  surroundings : Surroundings
  callsMade : Nat := 0
  authorizationsBegun : Nat := 0
  queriesBegun : Nat := 0
  /-- What has been said, the latest first. -/
  journal : List Entry := []

namespace World

def record (w : World) (event : Event) : World :=
  { w with journal := ⟨w.now, event⟩ :: w.journal }

def recordLines (w : World) (lines : List Line) : World :=
  lines.foldl (fun w line => w.record (.line line)) w

def beginCall (w : World) (c : Call) : World × Delivery :=
  let delivery := w.surroundings.bus w.callsMade c
  (({ w with callsMade := w.callsMade + 1 }).record (.call c delivery.fault), delivery)

def beginAuthorization (w : World) (who : Requester) : World × Verdict :=
  let verdict := w.surroundings.authorizer w.authorizationsBegun who
  let begun := { w with authorizationsBegun := w.authorizationsBegun + 1 }
  ((begun.record (.authorize who)).recordLines verdict.lines, verdict)

def beginQuery (w : World) : World × Response :=
  let response := w.surroundings.device w.queriesBegun
  let begun := { w with queriesBegun := w.queriesBegun + 1 }
  ((begun.record (.query begun.queriesBegun)).recordLines response.lines, response)

end World

/-! ## Carrying out an exchange -/

/-- How far an exchange gets without the clock moving. -/
inductive Progress (α : Type) where
  | finished (result : α)
  | waiting (time : Nat) (rest : Exchange α)

def eventOf : Note → Event
  | .created => .created
  | .line line => .line line

def proceed {α : Type} : Exchange α → World → World × Progress α
  | .done result, w => (w, .finished result)
  | .note n rest, w => proceed rest (w.record (eventOf n))
  | .call c rest, w =>
    let (w, delivery) := w.beginCall c
    if delivery.delay = 0 then proceed (rest delivery.fault) w
    else (w, .waiting (w.now + delivery.delay) (rest delivery.fault))
  | .authorize who rest, w =>
    let (w, verdict) := w.beginAuthorization who
    if verdict.delay = 0 then proceed (rest verdict.refusal) w
    else (w, .waiting (w.now + verdict.delay) (rest verdict.refusal))
  | .modem rest, w => proceed (rest w.surroundings.modem) w
  | .clock rest, w => proceed (rest w.now) w

end Modem.Session
