import Modem.Bus.ObjectPath
import Modem.Fault

/-! # Configuration of a signal interface -/

namespace Modem.Signal

structure Config where
  objectPath : String := Bus.ObjectPath.defaultModem
  /-- The rate to start with, in seconds; zero keeps reporting off. -/
  initialRate : UInt32 := 0
  queueCapacity : Nat := 16
  deriving DecidableEq, Repr

namespace Config

inductive Defect where
  | noCapacity
  | invalidPath (path : String)
  deriving DecidableEq, Repr

def Defect.fault : Defect → Fault
  | noCapacity => .invalidArgument "request queue capacity must be greater than zero"
  | invalidPath path =>
    .invalidArgument
      ("invalid object path '" ++ path ++ "': " ++ ValueFault.invalidObjectPath.text)

/-- A configuration without room for requests is refused before its path is looked at. -/
def check (config : Config) : Except Defect Unit :=
  if config.queueCapacity = 0 then .error .noCapacity
  else if Bus.ObjectPath.valid config.objectPath then .ok ()
  else .error (.invalidPath config.objectPath)

theorem check_eq_ok_iff (config : Config) :
    config.check = .ok () ↔
      config.queueCapacity ≠ 0 ∧ Bus.ObjectPath.valid config.objectPath = true := by
  unfold check
  split <;> simp_all

end Config

end Modem.Signal
