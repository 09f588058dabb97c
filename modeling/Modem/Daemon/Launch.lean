import Modem.Daemon.Arguments
import Modem.Daemon.Lock
import Modem.Daemon.Simulated
import Modem.Published.Station

/-! # Launching the daemon

The daemon reads its command line, takes the lock for its path, owns its name on the bus, and serves
a simulated modem until it is interrupted. -/

namespace Modem.Daemon

open Published (Station)
open Session (Service)

/-- The bus as the daemon finds it. -/
inductive BusState where
  | unreachable (address : String)
  | nameTaken
  | granting
  deriving DecidableEq, Repr

/-- How a daemon ends that does not come to serve. -/
structure Exit where
  code : Nat
  stdout : String := ""
  /-- The wording is not fixed where the command line is not understood. -/
  stderr : Option String := some ""
  deriving DecidableEq, Repr

inductive Outcome where
  | ended (exit : Exit)
  | serving (station : Station)

structure Launch where
  locks : LockDirectory
  /-- The names that the bus was asked for. -/
  names : List String := []
  outcome : Outcome

def config (arguments : Arguments) : Signal.Config :=
  { objectPath := arguments.objectPath, initialRate := arguments.rate }

/-- A simulated modem that is served but not brought up yet. -/
def station (arguments : Arguments) : Except Signal.Config.Defect Station := do
  let surroundings : Session.Surroundings := {
    modem := .disabled
    device := Simulated.respond
    authorizer := fun _ => Simulated.authorize !arguments.denySetup
    bus := fun _ _ => {}
    patience := 0 }
  let service ← Service.start (config arguments) true .serving surroundings
  return { path := arguments.objectPath, session := { service } }

/-- Brings the modem up and enables it. -/
def bringUp (station : Station) : Station :=
  [Session.Step.request .bringUp, .modem .enabled, .request .enable].foldl
    (fun station step => (station.step step).1) station

/-! ## Failures -/

/-- A message and what it comes from, numbered if there is more than one cause. -/
def failureText (message : String) (causes : List String) : String :=
  let lines := match causes with
    | [cause] => [cause]
    | _ => causes.mapIdx fun n cause => toString n ++ ": " ++ cause
  "Error: " ++ message ++ "\n" ++
    (if lines.isEmpty then ""
      else "\nCaused by:\n" ++ String.join (lines.map fun line => "    " ++ line ++ "\n"))

def failure (message : String) (causes : List String) : Exit :=
  { code := 1, stderr := some (failureText message causes) }

/-- Where the rules for names on the bus are written down. -/
def nameRules : String :=
  String.intercalate "/" ["https:", "", "dbus.freedesktop.org", "doc",
    "dbus-specification.html#message-protocol-names-bus"]

def invalidName : Exit :=
  let text := "Invalid well-known name. See " ++ nameRules
  failure text [text]

def notOwned (name : String) (causes : List String) : Exit :=
  failure ("failed to own bus name " ++ name) causes

def noBus (name address : String) : Exit :=
  let missing := "No such file or directory (os error 2)"
  notOwned name ["Failed to connect to address `" ++ address ++ "`: " ++ missing, missing]

/-! ## Serving -/

/-- Serves on a bus, once the lock is got. -/
def serve (arguments : Arguments) (locks : LockDirectory) (bus : BusState) : Launch :=
  let name := arguments.name
  match station arguments with
  | .error defect => { locks, outcome := .ended (failure defect.fault.text []) }
  | .ok station =>
    if !Bus.Name.wellKnown name then { locks, outcome := .ended invalidName }
    else
      match bus with
      | .unreachable address => { locks, outcome := .ended (noBus name address) }
      | .nameTaken =>
        { locks, names := [name], outcome := .ended (notOwned name [BusFault.nameTaken.text]) }
      | .granting => { locks, names := [name], outcome := .serving (bringUp station) }

/-- Shuts the modem down, which is what ends a daemon that serves. -/
def interrupt (station : Station) : Exit :=
  match station.step (.request .shutDown) with
  | (_, some (.error fault), _) => failure fault.text []
  | _ => { code := 0 }

def launch (arguments : List String) (locks : LockDirectory) (holder : Nat) (bus : BusState) :
    Launch :=
  match Arguments.parse arguments with
  | .error .help => { locks, outcome := .ended { code := 0, stdout := helpText } }
  | .error .invalid => { locks, outcome := .ended { code := 2, stderr := none } }
  | .ok arguments =>
    if arguments.version then { locks, outcome := .ended { code := 0, stdout := versionText } }
    else
      match locks.acquire holder arguments.objectPath with
      | (locks, .error fault) =>
        let text := "Failed to start: " ++ fault.message ++ "\n"
        { locks, outcome := .ended { code := 1, stderr := some text } }
      | (locks, .ok ()) => serve arguments locks bus

end Modem.Daemon
