import Modem.Bus.Name
import Modem.Signal.Config

/-! # Command line of the daemon

Arguments are read from left to right. An option takes its value after an equals sign or from the
next argument, which must not look like an option itself. Nothing may be given twice. Help is shown
as soon as it is reached; the version waits until everything has been read. -/

namespace Modem.Daemon

structure Arguments where
  version : Bool := false
  session : Bool := false
  name : String := Bus.Name.service
  objectPath : String := Bus.ObjectPath.defaultModem
  rate : UInt32 := ({} : Signal.Config).initialRate
  denySetup : Bool := false
  deriving DecidableEq, Repr

/-! ## Switches -/

inductive Switch where
  | version
  | session
  | name
  | objectPath
  | rate
  | denySetup
  | help
  deriving DecidableEq, Repr

namespace Switch

def all : List Switch := [version, session, name, objectPath, rate, denySetup, help]

def long : Switch → String
  | version => "version"
  | session => "session"
  | name => "name"
  | objectPath => "object-path"
  | rate => "rate"
  | denySetup => "deny-setup"
  | help => "help"

def short? : Switch → Option Char
  | version => some 'V'
  | help => some 'h'
  | _ => none

def takesValue : Switch → Bool
  | name | objectPath | rate => true
  | _ => false

def ofLong? (text : String) : Option Switch := all.find? fun s => s.long = text

def ofShort? (c : Char) : Option Switch := all.find? fun s => s.short? = some c

end Switch

/-! ## Numbers -/

def digitsValue (digits : List Char) : Option Nat :=
  if digits.isEmpty || !digits.all Char.isDigit then none
  else some (digits.foldl (fun n c => 10 * n + (c.toNat - '0'.toNat)) 0)

/-- A rate: digits, maybe with a sign, within 32 bits. -/
def rateOf? (text : String) : Option UInt32 :=
  let signed := match text.toList with
    | '+' :: digits => (digitsValue digits).map Int.ofNat
    | '-' :: digits => (digitsValue digits).map fun n => -Int.ofNat n
    | digits => (digitsValue digits).map Int.ofNat
  match signed with
  | some n => if 0 ≤ n ∧ n.toNat < UInt32.size then some (.ofNat n.toNat) else none
  | none => none

/-! ## Reading -/

/-- Why reading ends before the last argument. -/
inductive Stop where
  | help
  | invalid
  deriving DecidableEq, Repr

/-- What has been read so far. -/
structure Reading where
  arguments : Arguments := {}
  given : List Switch := []
  deriving DecidableEq, Repr

namespace Reading

def mark (r : Reading) (s : Switch) : Except Stop Reading :=
  if s ∈ r.given then .error .invalid else .ok { r with given := s :: r.given }

/-- Sets a switch that takes no value. -/
def setFlag (r : Reading) (s : Switch) : Except Stop Reading :=
  match s with
  | .help => .error .help
  | .version => (r.mark s).map fun r => { r with arguments := { r.arguments with version := true } }
  | .session => (r.mark s).map fun r => { r with arguments := { r.arguments with session := true } }
  | .denySetup =>
    (r.mark s).map fun r => { r with arguments := { r.arguments with denySetup := true } }
  | _ => .error .invalid

def setValue (r : Reading) (s : Switch) (value : String) : Except Stop Reading :=
  match s with
  | .name => (r.mark s).map fun r => { r with arguments := { r.arguments with name := value } }
  | .objectPath =>
    (r.mark s).map fun r => { r with arguments := { r.arguments with objectPath := value } }
  | .rate =>
    match rateOf? value with
    | some rate => (r.mark s).map fun r => { r with arguments := { r.arguments with rate } }
    | none => .error .invalid
  | _ => .error .invalid

def setShort (r : Reading) : List Char → Except Stop Reading
  | [] => .ok r
  | c :: rest =>
    match Switch.ofShort? c with
    | some s => do (← r.setFlag s).setShort rest
    | none => .error .invalid

end Reading

/-- Whether an argument can only be an option. -/
def looksLikeOption (argument : String) : Bool :=
  argument.startsWith "-" && argument ≠ "-"

/-- The part of an option in front of the first equals sign, and the value behind it. -/
def splitValue (option : List Char) : String × Option String :=
  match option.dropWhile (· ≠ '=') with
  | _ :: value => (String.ofList (option.takeWhile (· ≠ '=')), some (String.ofList value))
  | [] => (String.ofList option, none)

def readAll (r : Reading) : List String → Except Stop Reading
  | [] => .ok r
  | argument :: rest =>
    match argument.toList with
    | ['-', '-'] => if rest.isEmpty then .ok r else .error .invalid
    | '-' :: '-' :: option =>
      let (name, value) := splitValue option
      match Switch.ofLong? name, value with
      | none, _ => .error .invalid
      | some s, some value => do readAll (← r.setValue s value) rest
      | some s, none =>
        if s.takesValue then
          match rest with
          | [] => .error .invalid
          | value :: rest =>
            if looksLikeOption value then .error .invalid
            else do readAll (← r.setValue s value) rest
        else do readAll (← r.setFlag s) rest
    | '-' :: c :: shorts => do readAll (← r.setShort (c :: shorts)) rest
    | _ => .error .invalid

def Arguments.parse (arguments : List String) : Except Stop Arguments :=
  (readAll {} arguments).map Reading.arguments

/-! ## Texts -/

def versionText : String := "mmrs-signald 0.1.0\n"

def helpText : String :=
  "Usage: mmrs-signald [OPTIONS]\n\nOptions:\n" ++
  "  -V, --version                    \n" ++
  "      --session                    Serve on the session bus instead of the system bus\n" ++
  "      --name <NAME>                Well-known bus name to own [default: " ++
    Bus.Name.service ++ "]\n" ++
  "      --object-path <OBJECT_PATH>  Object path of the simulated modem [default: " ++
    Bus.ObjectPath.defaultModem ++ "]\n" ++
  "      --rate <RATE>                Refresh rate in seconds to start with " ++
    "(0 keeps reporting off) [default: 0]\n" ++
  "      --deny-setup                 Refuse every Setup request\n" ++
  "  -h, --help                       Print help\n"

end Modem.Daemon
