import Modem.Bus.Name
import Modem.Bus.ObjectPath
import Modem.Firmware.Settings
import Modem.Published.Property
import Modem.Signal.Assembly

/-! # The client

A client sets the rate of a modem and reads its rate, its measurements and its firmware update
settings, over a bus that a peer answers on. -/

namespace Modem.Published

open Bus (ErrorReply Value)
open Firmware (Settings)
open Signal (Measurement Reading Snapshot)

/-! ## Faults -/

/-- Why a call on the bus has no result. -/
inductive CallFault where
  | refused (reply : ErrorReply)
  | unknownProperty
  | wrongType
  deriving DecidableEq, Repr

inductive ClientFault where
  /-- There is no bus to connect to. -/
  | noBus
  /-- The path of the modem is no object path. -/
  | invalidPath
  | operation (context : String) (source : CallFault)
  | settings (defect : Firmware.Defect)
  /-- A structure ends before a part that has to be there, and the client ends with it. -/
  | missingPart
  deriving DecidableEq

/-- The last words of a client that ends for lack of a part. -/
def missingPartText : String := "removal index (is 0) should be < len (is 0)"

/-! ## Peers -/

/-- Who answers on the other side of the bus. -/
structure Peer (σ : Type) where
  get : σ → (path interface property : String) → Except CallFault Value
  setup : σ → (path : String) → (rate : UInt32) → σ × Except CallFault Unit

namespace Client

variable {σ : Type}

/-- Connects to the bus, which is either there or not. -/
def connect (reachable : Bool) : Except ClientFault Unit :=
  if reachable then .ok () else .error .noBus

/-- Nothing is sent to an invalid path. -/
def checkPath (path : String) : Except ClientFault Unit :=
  if Bus.ObjectPath.valid path then .ok () else .error .invalidPath

/-- Reads a property and converts it. -/
def read {α : Type} (peer : Peer σ) (s : σ) (path interface property what : String)
    (convert : Value → Except Mismatch α) : Except ClientFault α := do
  checkPath path
  let failed (source : CallFault) : ClientFault :=
    .operation ("failed to read " ++ what ++ " of " ++ path) source
  match peer.get s path interface property with
  | .error source => .error (failed source)
  | .ok value =>
    match convert value with
    | .ok a => .ok a
    | .error .wrongType => .error (failed .wrongType)
    | .error .missingPart => .error .missingPart

/-! ## Requests -/

def rate (peer : Peer σ) (s : σ) (path : String) : Except ClientFault UInt32 :=
  read peer s path Bus.Name.signalInterface Property.rate.name "signal refresh rate" toRate

def reading (peer : Peer σ) (s : σ) (path : String) (m : Measurement) :
    Except ClientFault Reading :=
  let name := (Property.reading m).name
  read peer s path Bus.Name.signalInterface name name toReading

/-- Reads the measurements one after the other. -/
def values (peer : Peer σ) (s : σ) (path : String) : Except ClientFault Snapshot := do
  let readings ← Measurement.all.mapM fun m => do return (m, ← reading peer s path m)
  return .ofReadings fun m => (readings.lookup m).getD .absent

def settings (peer : Peer σ) (s : σ) (path : String) : Except ClientFault Settings := do
  let value ← read peer s path Bus.Name.firmwareInterface "UpdateSettings"
    "firmware update settings" .ok
  (Settings.ofValue (some value)).mapError .settings

def setup (peer : Peer σ) (s : σ) (path : String) (rate : UInt32) : σ × Except ClientFault Unit :=
  match checkPath path with
  | .error fault => (s, .error fault)
  | .ok () =>
    let (s, result) := peer.setup s path rate
    (s, result.mapError (.operation
      ("failed to set signal refresh rate " ++ toString rate.toNat ++ " on " ++ path)))

end Client

end Modem.Published
