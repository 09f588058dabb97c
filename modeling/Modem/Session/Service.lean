import Modem.Session.World
import Modem.Signal.Interface

/-! # The service of an interface

The service does one thing at a time: while a call waits for its answer, nothing else is handled.
Requests queue in order. A Setup request is set aside while its authorization is under way, and the
rate is applied when the authorization ends. Authorizations and queries take their own time. Whoever
waits for an answer keeps a handle, unless it leaves; when nobody has a handle any more, the service
shuts the interface down. -/

namespace Modem.Session

open Signal (Answer Config Exchange Interface Operation Query Request Requester Snapshot)

/-! ## What is under way -/

/-- A request that waits for its turn. -/
structure Queued where
  caller : Nat
  request : Request
  deriving DecidableEq, Repr

/-- An answer that has been fixed and arrives later. -/
structure Arrival (α : Type) where
  time : Nat
  content : α

/-- A Setup request that waits for its authorization, which has begun once its end is fixed. -/
structure Check where
  caller : Nat
  rate : UInt32
  who : Requester
  arrival : Option (Arrival (Option Fault)) := none

/-- A query that has reached the device. -/
structure Load where
  query : Query
  arrival : Arrival (Except Fault Snapshot)

/-- What the end of a piece of work is good for. -/
inductive Purpose where
  | answer (caller : Nat)
  | refresh
  | close
  deriving DecidableEq, Repr

/-- An operation that begins, and what its end is good for. -/
structure Job where
  purpose : Purpose
  operation : Operation

/-- An exchange that waits for the answer to a call. -/
structure Work where
  purpose : Purpose
  time : Nat
  rest : Exchange (Interface × Answer)

structure Reply where
  caller : Nat
  time : Nat
  answer : Answer

/-- Who drives the interface. -/
inductive Stage where
  /-- Requests act on the interface itself; nothing happens between them. -/
  | direct
  | serving
  | stopped
  deriving DecidableEq, Repr

structure Service where
  world : World
  interface : Interface
  stage : Stage
  /-- Whether requests can still be sent. -/
  isOpen : Bool := true
  /-- Callers that have let go of their handles, whatever they were waiting for. -/
  leavers : List Nat := []
  queue : List Queued := []
  checks : List Check := []
  loads : List Load := []
  work : Option Work := none
  /-- The latest first. -/
  replies : List Reply := []

namespace Service

def start (config : Config) (supported : Bool) (stage : Stage) (surroundings : Surroundings) :
    Except Config.Defect Service := do
  config.check
  return { world := { surroundings }, interface := .fresh config supported, stage }

def now (s : Service) : Nat := s.world.now

def gone : Fault := .failed "signal service is not running"

def reply (s : Service) (caller : Nat) (answer : Answer) : Service :=
  { s with replies := ⟨caller, s.now, answer⟩ :: s.replies }

def answerTo? (s : Service) (caller : Nat) : Option Answer :=
  (s.replies.find? fun r => r.caller = caller).map Reply.answer

/-- Queries that the device has not been asked yet. -/
def unbegun (s : Service) : List Query :=
  s.interface.reporting.inFlight.filter fun q => !s.loads.any fun l => l.query = q

/-! ## Work -/

def finish (s : Service) (purpose : Purpose) (result : Interface × Answer) : Service :=
  let s := { s with interface := result.1 }
  match purpose with
  | .answer caller => s.reply caller result.2
  | .refresh => s
  | .close => { s with stage := .stopped }

/-- Works on an exchange until it ends or has to wait. -/
def perform (s : Service) (purpose : Purpose) (exchange : Exchange (Interface × Answer)) :
    Service :=
  match proceed exchange s.world with
  | (world, .finished result) => { s with world }.finish purpose result
  | (world, .waiting time rest) => { s with world, work := some ⟨purpose, time, rest⟩ }

/-! ## Occurrences -/

/-- What can happen next. -/
inductive Occurrence where
  /-- A call is answered. -/
  | resume
  | request
  /-- The authorization of a caller's request begins or ends. -/
  | check (caller : Nat)
  | tick
  /-- A query reaches the device, or its answer arrives. -/
  | load (query : Query)
  | close
  deriving DecidableEq, Repr

/-- The things whose answers have arrived, in the order of arrival. -/
def arrived {α β : Type} (arrival : α → Option (Arrival β)) (now : Nat) (things : List α) :
    List α :=
  let due := things.filterMap fun a => (arrival a).bind fun arrival =>
    if arrival.time ≤ now then some (arrival.time, a) else none
  (due.mergeSort fun a b => a.1 ≤ b.1).map Prod.snd

def readyChecks (s : Service) : List Occurrence :=
  (arrived Check.arrival s.now s.checks ++ (s.checks.filter fun c => c.arrival.isNone).take 1).map
    fun c => .check c.caller

def readyTick (s : Service) : List Occurrence :=
  if s.interface.reporting.timer.any fun t => t.isDue s.now then [.tick] else []

def readyLoads (s : Service) : List Occurrence :=
  ((arrived (fun l => some l.arrival) s.now s.loads).map Load.query ++ s.unbegun.take 1).map .load

/-- Once the queue is empty, everybody has gone if nobody can send a request and nobody waits for an
authorization with a handle of its own. -/
def readyClose (s : Service) : List Occurrence :=
  if !s.isOpen && s.queue.isEmpty && s.checks.all (fun c => s.leavers.contains c.caller) then
    [.close]
  else []

def readyRequest (s : Service) : List Occurrence :=
  if s.queue.isEmpty then [] else [.request]

/-- What can happen at this instant. Where several things can, the first goes first. -/
def ready (s : Service) : List Occurrence :=
  match s.work with
  | some work => if work.time ≤ s.now then [.resume] else []
  | none =>
    match s.stage with
    | .direct => s.readyRequest
    | .serving =>
      s.readyRequest ++ s.readyChecks ++ s.readyTick ++ s.readyLoads ++ s.readyClose
    | .stopped => []

/-! ## Handling an occurrence -/

/-- Takes a request from the queue. -/
def dispatch (s : Service) (queued : Queued) : Service × Option Job :=
  match s.stage, queued.request with
  | .serving, .setup rate who =>
    ({ s with
      world := s.world.record (.line ⟨.debug,
        "Setup request from " ++ who.name ++ ": rate " ++ toString rate.toNat⟩)
      checks := s.checks ++ [⟨queued.caller, rate, who, none⟩] }, none)
  | _, request => (s, some ⟨.answer queued.caller, .serve request⟩)

/-- Handles the end of an authorization. -/
def conclude (s : Service) (c : Check) (refusal : Option Fault) : Service × Option Job :=
  ({ s with checks := s.checks.filter fun d => d.caller ≠ c.caller },
    some ⟨.answer c.caller, .conclude c.rate refusal⟩)

/-- Begins an authorization. One that ends at once is handled at once. -/
def beginCheck (s : Service) (c : Check) : Service × Option Job :=
  let (world, verdict) := s.world.beginAuthorization c.who
  let s := { s with world }
  if verdict.delay = 0 then s.conclude c verdict.refusal
  else
    let begun : Check := { c with arrival := some ⟨world.now + verdict.delay, verdict.refusal⟩ }
    ({ s with checks := s.checks.map fun d => if d.caller = c.caller then begun else d }, none)

/-- Handles the answer of the device. -/
def concludeLoad (s : Service) (query : Query) (result : Except Fault Snapshot) :
    Service × Option Job :=
  ({ s with loads := s.loads.filter fun l => l.query ≠ query },
    some ⟨.refresh, .loaded query result⟩)

/-- Asks the device. An answer that comes at once is handled at once. -/
def beginLoad (s : Service) (query : Query) : Service × Option Job :=
  let (world, response) := s.world.beginQuery
  let s := { s with world }
  if response.delay = 0 then s.concludeLoad query response.result
  else
    ({ s with loads := s.loads ++ [⟨query, world.now + response.delay, response.result⟩] }, none)

/-- What an occurrence comes to before anything is carried out: the service by then, and the job
that begins, if one does. -/
def prepare (s : Service) : Occurrence → Service × Option Job
  | .resume => (s, none)
  | .request =>
    match s.queue with
    | queued :: rest => { s with queue := rest }.dispatch queued
    | [] => (s, none)
  | .check caller =>
    match s.checks.find? fun c => c.caller = caller with
    | some c =>
      match c.arrival with
      | some arrival => s.conclude c arrival.content
      | none => s.beginCheck c
    | none => (s, none)
  | .tick => (s, some ⟨.refresh, .tick⟩)
  | .load query =>
    match s.loads.find? fun l => l.query = query with
    | some l => s.concludeLoad query l.arrival.content
    | none => s.beginLoad query
  | .close =>
    ({ s with world := s.world.record (.line ⟨.debug,
        "All signal handles dropped, stopping service"⟩) },
      some ⟨.close, .serve .shutDown⟩)

def carryOut (s : Service) (job : Job) : Service :=
  s.perform job.purpose (s.interface.carryOut job.operation)

def take (s : Service) : Occurrence → Service
  | .resume =>
    match s.work with
    | some work => { s with work := none }.perform work.purpose work.rest
    | none => s
  | occurrence =>
    match s.prepare occurrence with
    | (s, some job) => s.carryOut job
    | (s, none) => s

/-! ## From outside -/

/-- Sends a request for a caller. Nobody answers once the service has stopped. -/
def send (s : Service) (caller : Nat) (request : Request) : Service :=
  match s.stage with
  | .stopped => s.reply caller (.error gone)
  | _ => { s with queue := s.queue ++ [⟨caller, request⟩] }

/-- The callers that wait for an answer. -/
def unanswered (s : Service) : List Nat :=
  (match s.work with
    | some ⟨.answer caller, _, _⟩ => [caller]
    | _ => []) ++ s.queue.map Queued.caller ++ s.checks.map Check.caller

/-- Stops the service in the middle of whatever it does. An interface on which requests act directly
has none that could be stopped. -/
def abort (s : Service) : Service :=
  if s.stage = .direct then s
  else
    let s := s.unanswered.foldl (fun s caller => s.reply caller (.error gone)) s
    { s with stage := .stopped, queue := [], checks := [], loads := [], work := none }

end Service

end Modem.Session
