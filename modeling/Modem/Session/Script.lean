import Modem.Session.Clock

/-! # Scripts

A script plays the part of everybody who uses a service: it sends requests, lets time pass, and
changes how the surroundings answer. After each step everything that can happen at that instant has
happened. -/

namespace Modem

namespace Session

open Signal (Answer Call Request Requester Status)

inductive Step where
  /-- Sends a request and waits for its answer. -/
  | request (request : Request)
  /-- Sends a request under a label and does not wait. -/
  | background (label : String) (request : Request)
  | sleep (duration : Nat)
  | modem (state : State)
  /-- The device answers anew from the first response on. -/
  | device (response : Nat → Response)
  | authorizer (verdict : Nat → Requester → Verdict) (patience : Nat)
  | bus (delivery : Nat → Call → Delivery) (patience : Nat)
  /-- No further request is sent. -/
  | close
  | abort
  /-- Hands the interface to a service. -/
  | serve

/-- How the service looks from outside. -/
inductive View where
  | closed
  | stopped
  | busy
  | status (status : Status)
  deriving DecidableEq, Repr

/-- An answer to a request from the background. -/
structure LabelledReply where
  time : Nat
  label : String
  answer : Answer

/-- What a step brought about. -/
structure Report where
  time : Nat
  /-- The answer to a request that was waited for. -/
  answer : Option Answer
  entries : List Entry
  replies : List LabelledReply
  view : View

end Session

structure Session where
  service : Session.Service
  /-- The state of a fixed modem never changes. -/
  fixedModem : Bool := false
  /-- How many requests have been sent. Callers are numbered in this order. -/
  callers : Nat := 0
  /-- The callers in the background, with their labels. -/
  labels : List (Nat × String) := []

namespace Session

open Signal (Answer)

def view (s : Session) : View :=
  if !s.service.isOpen then .closed
  else if s.service.stage = .stopped then .stopped
  else if s.service.work.isSome then .busy
  else .status s.service.interface.status

def mapWorld (s : Session) (change : World → World) : Session :=
  { s with service := { s.service with world := change s.service.world } }

def mapSurroundings (s : Session) (change : Surroundings → Surroundings) : Session :=
  s.mapWorld fun w => { w with surroundings := change w.surroundings }

/-- What a step does before everything else happens that can happen at once. -/
def act (s : Session) : Step → Session × Option Nat
  | .request request =>
    ({ s with
        service := (s.service.send s.callers request).await s.callers
        callers := s.callers + 1 }, some s.callers)
  | .background label request =>
    ({ s with
        service := s.service.send s.callers request
        callers := s.callers + 1
        labels := (s.callers, label) :: s.labels }, none)
  | .sleep duration => ({ s with service := s.service.sleep duration }, none)
  | .modem state =>
    (if s.fixedModem then s else s.mapSurroundings fun w => { w with modem := state }, none)
  | .device response =>
    let begun := s.service.world.queriesBegun
    (s.mapSurroundings fun w => { w with device := fun n => response (n - begun) }, none)
  | .authorizer verdict patience =>
    (s.mapSurroundings fun w =>
      { w with authorizer := verdict, patience := max w.patience patience }, none)
  | .bus delivery patience =>
    (s.mapSurroundings fun w => { w with bus := delivery, patience := max w.patience patience },
      none)
  | .close => ({ s with service := { s.service with isOpen := false } }, none)
  | .abort => ({ s with service := s.service.abort }, none)
  | .serve =>
    (if s.service.stage = .direct then { s with service := { s.service with stage := .serving } }
      else s, none)

/-- The answers to requests from the background, by time and then by label. -/
def labelledReplies (s : Session) (replies : List Reply) : List LabelledReply :=
  let labelled := replies.filterMap fun r =>
    (s.labels.lookup r.caller).map fun label => ⟨r.time, label, r.answer⟩
  labelled.mergeSort fun a b => a.time < b.time || a.time = b.time && a.label ≤ b.label

/-- Takes a step and reports what it brought about. -/
def step (s : Session) (step : Step) : Session × Report :=
  let (acted, caller) := s.act step
  let after := { acted with service := acted.service.settle }
  let before := s.service
  let entries := after.service.world.journal.take
    (after.service.world.journal.length - before.world.journal.length)
  let replies := after.service.replies.take
    (after.service.replies.length - before.replies.length)
  (after,
    { time := after.service.now
      answer := caller.bind after.service.answerTo?
      entries := entries.reverse
      replies := after.labelledReplies replies.reverse
      view := after.view })

def run (s : Session) : List Step → List Report
  | [] => []
  | next :: rest =>
    let (s, report) := s.step next
    report :: s.run rest

end Session

end Modem
