import Modem.Fault
import Modem.Firmware.Method
import Modem.Firmware.Payload

/-! # Firmware update settings

What a flashing tool has to know: the update method and, for fastboot, the command that resets the
module. Settings are complete for their method, so reading them back either gives such a value or
names the first defect. -/

namespace Modem.Firmware

open Bus (Signature Value)

inductive Settings where
  | unknown
  | fastboot (command : String)
  /-- A method without a name of its own. -/
  | other (code : UInt32) (unnamed : Method.ofCode code = .other code)
  deriving DecidableEq

/-- The name of the field that holds the fastboot command. -/
def commandKey : String := "fastboot-at"

/-! ## Defects -/

/-- Why something does not describe settings. -/
inductive Defect where
  | unexpectedKey (key : String)
  | notAString (signature : Signature)
  | missingCommand
  | misplacedCommand (method : Method)
  | noInput
  | invalidType
  deriving DecidableEq

namespace Defect

def message : Defect → String
  | unexpectedKey key => "Invalid settings dictionary, unexpected key '" ++ key ++ "'"
  | notAString signature =>
    "Invalid settings dictionary, '" ++ commandKey ++ "' must be a string (got '" ++
      signature.text ++ "')"
  | missingCommand => "Fastboot method requires the '" ++ commandKey ++ "' setting"
  | misplacedCommand method =>
    "'" ++ commandKey ++ "' is only valid with the fastboot method (method: " ++ method.text ++ ")"
  | noInput => "No input given"
  | invalidType => "Invalid input type"

def fault (defect : Defect) : Fault := .invalidArgument defect.message

end Defect

/-- Use of the fastboot command of settings that have none. -/
inductive Misuse where
  | reading (method : Method)
  | replacing (method : Method)
  deriving DecidableEq

namespace Misuse

def message : Misuse → String
  | reading method =>
    "fastboot_at is only available for fastboot settings (method: " ++ method.text ++ ")"
  | replacing method =>
    "with_fastboot_at is only valid for fastboot settings (method: " ++ method.text ++ ")"

end Misuse

namespace Settings

/-! ## Making and using settings -/

def default : Settings := unknown

def method : Settings → Method
  | unknown => .unknown
  | fastboot _ => .fastboot
  | other code _ => .other code

/-- The settings of a method that has no fields. The number of the method counts, not its form. -/
def ofMethod (method : Method) : Except Defect Settings :=
  match named : Method.ofCode method.code with
  | .unknown => .ok unknown
  | .fastboot => .error .missingCommand
  | .other code => .ok (other code (by
      have same : (Method.ofCode method.code).code = code := by rw [named]; rfl
      rw [← same, Method.code_ofCode, named, ← Method.code_ofCode method.code, named]; rfl))

def command? : Settings → Option String
  | fastboot command => some command
  | _ => none

def command (s : Settings) : Except Misuse String :=
  match s.command? with
  | some command => .ok command
  | none => .error (.reading s.method)

def withCommand (s : Settings) (command : String) : Except Misuse Settings :=
  match s with
  | fastboot _ => .ok (fastboot command)
  | _ => .error (.replacing s.method)

/-! ## Payloads -/

def encode (s : Settings) : Payload :=
  match s.command? with
  | some command => ⟨s.method.code, Fields.empty.insert commandKey (.string command)⟩
  | none => ⟨s.method.code, .empty⟩

/-- The string inside any number of wrappers. -/
def stringOf (value : Value) : Except Defect String :=
  match value.unwrap with
  | .basic (.string s) => .ok s
  | innermost => .error (.notAString innermost.signature)

/-- An unexpected key is reported before any value is looked at, and the smallest one first. -/
def decode (payload : Payload) : Except Defect Settings := do
  match payload.fields.names.find? (· ≠ commandKey) with
  | some key => .error (.unexpectedKey key)
  | none =>
    let command ← (payload.fields.get? commandKey).mapM stringOf
    let method := Method.ofCode payload.method
    match method, command with
    | .fastboot, some command => .ok (fastboot command)
    | .fastboot, none => .error .missingCommand
    | _, some _ => .error (.misplacedCommand method)
    | _, none => ofMethod method

/-! ## Values -/

/-- Settings from a value of a property; the value may be inside one wrapper. -/
def ofValue (value : Option Value) : Except Defect Settings :=
  match value with
  | none => .error .noInput
  | some value =>
    match Payload.ofValue? value.unwrapOnce with
    | some payload => decode payload
    | none => .error .invalidType

end Settings

end Modem.Firmware
