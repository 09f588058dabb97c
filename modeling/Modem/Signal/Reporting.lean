import Modem.Signal.Exchange
import Modem.Signal.Timer

/-! # Reporting

Everything that changes while measurements are reported: the rate, the timer, the snapshot that is
shown, and the queries under way. A query cannot be called back. It carries the generation in which
it was launched instead, and each teardown begins a new generation, so values that arrive late are
told apart. -/

namespace Modem.Signal

/-- A query of the device, launched and not answered yet. -/
structure Query where
  /-- Queries are numbered in the order in which they are launched. -/
  number : Nat
  generation : Nat
  deriving DecidableEq, Repr

structure Reporting where
  /-- Whether the device can be queried at all. -/
  supported : Bool
  rate : UInt32
  timer : Option Timer := none
  shown : Snapshot := .empty
  /-- Whether there is an object to publish on. -/
  attached : Bool := false
  inFlight : List Query := []
  generation : Nat := 0
  timersStarted : Nat := 0
  queriesStarted : Nat := 0
  deriving DecidableEq, Repr

namespace Reporting

/-! ## Publishing -/

def publishShown (r : Reporting) (complaint : String) : Exchange Unit :=
  if r.attached then Exchange.attempt (.publish r.shown) complaint else pure ()

def clear (r : Reporting) : Exchange Reporting := do
  let r := { r with shown := .empty }
  r.publishShown "Couldn't publish cleared extended signal information"
  return r

/-- Stops the timer and disowns the queries under way. -/
def teardown (r : Reporting) : Exchange Reporting :=
  clear { r with timer := none, generation := r.generation + 1 }

def disable (r : Reporting) : Exchange Reporting := do
  Exchange.debug "Extended signal information reporting disabled"
  r.teardown

/-! ## Queries -/

def launch (r : Reporting) : Reporting :=
  if r.supported then
    { r with
      queriesStarted := r.queriesStarted + 1
      inFlight := r.inFlight ++ [⟨r.queriesStarted, r.generation⟩] }
  else r

/-- Handles a tick of the timer. -/
def tick (r : Reporting) (now : Nat) : Reporting :=
  match r.timer with
  | none => r
  | some timer => launch { r with timer := some (timer.ticked now) }

/-- Handles the answer to a query. -/
def loaded (r : Reporting) (query : Query) (result : Except Fault Snapshot) :
    Exchange Reporting := do
  let r := { r with inFlight := r.inFlight.erase query }
  if query.generation ≠ r.generation then
    Exchange.debug "Discarding extended signal values loaded before reporting was disabled"
    return r
  else
    match result with
    | .ok values =>
      if r.attached then
        let r := { r with shown := values }
        r.publishShown "Couldn't publish extended signal information"
        return r
      else
        Exchange.log .warn "Cannot update extended signal information: interface not available"
        return { r with shown := .empty }
    | .error fault =>
      Exchange.log .warn ("Couldn't load extended signal information: " ++ fault.text)
      r.clear

/-! ## Rates -/

/-- Starts a timer at the stored rate and queries the device at once. -/
def startTimer (r : Reporting) : Exchange Reporting := do
  let now ← Exchange.now
  let timer := Timer.start r.timersStarted r.rate now
  Exchange.debug ("Extended signal information reporting enabled (rate: " ++
    toString r.rate.toNat ++ " seconds, " ++ timer.label ++ ")")
  return launch { r with timer := some timer, timersStarted := r.timersStarted + 1 }

/-- Brings the timer in line with the stored rate, as far as the modem allows. -/
def schedule (r : Reporting) (modem : State) : Exchange Reporting :=
  if r.rate = 0 then do
    if r.timer.isSome then
      Exchange.debug "Extended signal information reporting disabled (rate 0)"
    r.teardown
  else if !modem.isEnablingOrLater then do
    Exchange.debug ("Extended signal refresh deferred until the modem is enabled (state: " ++
      modem.text ++ ")")
    return r
  else if !r.supported then do
    Exchange.debug ("Extended signal information not supported, ignoring rate " ++
      toString r.rate.toNat)
    return r
  else if r.timer.map Timer.rate = some r.rate then pure r
  else r.startTimer

/-- Stores a rate, which is published before anything else happens. -/
def setRate (r : Reporting) (rate : UInt32) (modem : State) : Exchange Reporting := do
  let r := { r with rate }
  if r.attached then
    Exchange.attempt (.setRate rate) "Couldn't publish extended signal refresh rate"
  r.schedule modem

end Reporting

end Modem.Signal
