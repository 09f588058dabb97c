import Modem.Signal.Config
import Modem.Signal.Reporting

/-! # The signal interface of a device

The interface ties reporting to the life of the device: it is created and exported when the device
comes up, refreshes while the device is enabled, and is gone for good after it is shut down. -/

namespace Modem.Signal

/-! ## Lifecycle -/

inductive Lifecycle where
  | uninitialized
  /-- The object exists. It is exported only if the device is supported. -/
  | initialized
  | enabled
  | disabled
  | shutDown
  deriving DecidableEq, Repr

namespace Lifecycle

def text : Lifecycle → String
  | uninitialized => "uninitialized"
  | initialized => "initialized"
  | enabled => "enabled"
  | disabled => "disabled"
  | shutDown => "shut down"

end Lifecycle

/-- What the interface can be asked to do. -/
inductive Request where
  | bringUp
  | enable
  | disable
  | shutDown
  | setup (rate : UInt32) (who : Requester)
  /-- Asks how the interface looks. -/
  | status
  deriving DecidableEq, Repr

/-- How a request ends. -/
abbrev Answer := Except Fault Unit

structure Interface where
  lifecycle : Lifecycle
  reporting : Reporting
  exported : Bool
  deriving DecidableEq, Repr

/-- What can be seen of an interface from outside. -/
structure Status where
  lifecycle : Lifecycle
  supported : Bool
  rate : UInt32
  timer : Option Timer
  queriesStarted : Nat
  shown : Snapshot
  deriving DecidableEq, Repr

namespace Interface

def noObject : Fault := .failed "Couldn't get interface skeleton"

def notSupportedText : String := "Extended signal information reporting not supported"

def notSupported : Fault := .unsupported notSupportedText

def fresh (config : Config) (supported : Bool) : Interface :=
  ⟨.uninitialized, { supported, rate := config.initialRate }, false⟩

def status (i : Interface) : Status where
  lifecycle := i.lifecycle
  supported := i.reporting.supported
  rate := i.reporting.rate
  timer := i.reporting.timer
  queriesStarted := i.reporting.queriesStarted
  shown := i.reporting.shown

/-! ## Requests -/

/-- Creates the object, once, with the stored rate on it. -/
def create (i : Interface) : Exchange Interface := do
  if i.reporting.attached then return i
  else
    Exchange.note .created (pure ())
    Exchange.attempt (.setRate i.reporting.rate) "Couldn't publish initial refresh rate"
    return { i with reporting := { i.reporting with attached := true } }

/-- Exports the object with nothing shown on it. -/
def exportCleared (i : Interface) : Exchange (Interface × Answer) := do
  let reporting ← i.reporting.clear
  let i := { i with reporting }
  match ← Exchange.ask .exportObject with
  | some fault => return (i, .error fault)
  | none =>
    Exchange.debug "Extended signal interface exported"
    return ({ i with exported := true }, .ok ())

def bringUp (i : Interface) : Exchange (Interface × Answer) := do
  if i.lifecycle = .shutDown then return (i, .error noObject)
  else
    let i ← i.create
    let i := { i with
      lifecycle := if i.lifecycle = .uninitialized then .initialized else i.lifecycle }
    if !i.reporting.supported then
      Exchange.debug notSupportedText
      return (i, .error notSupported)
    else if i.exported then return (i, .ok ())
    else i.exportCleared

def enable (i : Interface) : Exchange (Interface × Answer) := do
  if !i.reporting.supported then return (i, .error notSupported)
  else if !i.reporting.attached then return (i, .error noObject)
  else
    let modem ← Exchange.modemState
    let reporting ← i.reporting.schedule modem
    return ({ i with reporting, lifecycle := .enabled }, .ok ())

def disable (i : Interface) : Exchange (Interface × Answer) := do
  if i.lifecycle = .shutDown then return (i, .ok ())
  else
    let reporting ← i.reporting.disable
    let lifecycle := if i.lifecycle = .enabled then .disabled else i.lifecycle
    return ({ i with reporting, lifecycle }, .ok ())

def shutDown (i : Interface) : Exchange (Interface × Answer) := do
  if i.lifecycle = .shutDown then return (i, .ok ())
  else
    let reporting ← i.reporting.disable
    if i.exported then
      Exchange.attempt .unexportObject "Couldn't unexport extended signal interface"
    Exchange.debug "Extended signal interface shut down"
    return (⟨.shutDown, { reporting with attached := false }, false⟩, .ok ())

/-- Applies a rate to which the requester has a right. -/
def setup (i : Interface) (rate : UInt32) : Exchange (Interface × Answer) := do
  if !i.reporting.attached then return (i, .error noObject)
  else
    let modem ← Exchange.modemState
    Exchange.debug ("Setting up extended signal refresh rate: " ++ toString rate.toNat ++
      " (modem " ++ modem.text ++ ")")
    let reporting ← i.reporting.setRate rate modem
    return ({ i with reporting }, .ok ())

/-- Applies a rate if the requester has a right to it. -/
def setupFor (i : Interface) (rate : UInt32) (who : Requester) : Exchange (Interface × Answer) :=
  .authorize who fun
    | some fault => pure (i, .error fault)
    | none => i.setup rate

def serve (i : Interface) : Request → Exchange (Interface × Answer)
  | .bringUp => i.bringUp
  | .enable => i.enable
  | .disable => i.disable
  | .shutDown => i.shutDown
  | .setup rate who => i.setupFor rate who
  | .status => pure (i, .ok ())

/-! ## Refreshing -/

def tick (i : Interface) (now : Nat) : Interface :=
  { i with reporting := i.reporting.tick now }

def loaded (i : Interface) (query : Query) (result : Except Fault Snapshot) :
    Exchange (Interface × Answer) := do
  let reporting ← i.reporting.loaded query result
  return ({ i with reporting }, .ok ())

end Interface

/-! ## Operations -/

/-- What is carried out on an interface with nothing else in between. -/
inductive Operation where
  | serve (request : Request)
  /-- The authorization of a Setup request has ended. -/
  | conclude (rate : UInt32) (refusal : Option Fault)
  | tick
  /-- A query has been answered. -/
  | loaded (query : Query) (result : Except Fault Snapshot)

def Interface.carryOut (i : Interface) : Operation → Exchange (Interface × Answer)
  | .serve request => i.serve request
  | .conclude rate none => i.setup rate
  | .conclude _ (some fault) => do
    Exchange.debug ("Setup request rejected: " ++ fault.text)
    return (i, .error fault)
  | .tick => do
    let now ← Exchange.now
    return (i.tick now, .ok ())
  | .loaded query result => i.loaded query result

end Modem.Signal
