import Modem.Fault
import Modem.Signal.Requester
import Modem.Signal.Snapshot
import Modem.State

/-! # Exchanges

What an interface does is an exchange with its surroundings: calls on the published object, which
may fail, questions about the modem, the clock and the right to do something, and notes for whoever
looks on. An exchange fixes what is said; how long an answer takes is up to the surroundings. -/

namespace Modem.Signal

/-! ## What is said -/

inductive Severity where
  | debug
  | info
  | warn
  deriving DecidableEq, Repr

structure Line where
  severity : Severity
  text : String
  deriving DecidableEq, Repr

/-- A call on the published object. -/
inductive Call where
  | setRate (rate : UInt32)
  | publish (values : Snapshot)
  | exportObject
  | unexportObject
  deriving DecidableEq, Repr

inductive Note where
  /-- The object comes into being. -/
  | created
  | line (line : Line)
  deriving DecidableEq, Repr

/-! ## Exchanges -/

inductive Exchange (α : Type) where
  | done (result : α)
  | note (n : Note) (rest : Exchange α)
  | call (c : Call) (rest : Option Fault → Exchange α)
  | authorize (who : Requester) (rest : Option Fault → Exchange α)
  | modem (rest : State → Exchange α)
  | clock (rest : Nat → Exchange α)

namespace Exchange

def bind {α β : Type} (x : Exchange α) (f : α → Exchange β) : Exchange β :=
  match x with
  | done result => f result
  | note n rest => note n (rest.bind f)
  | call c rest => call c fun fault => (rest fault).bind f
  | authorize who rest => authorize who fun fault => (rest fault).bind f
  | modem rest => modem fun state => (rest state).bind f
  | clock rest => clock fun now => (rest now).bind f

instance : Monad Exchange where
  pure := done
  bind := bind

theorem bind_done {α : Type} (x : Exchange α) : x.bind done = x := by
  induction x with
  | done => rfl
  | note n rest ih => simp [bind, ih]
  | call c rest ih => simp [bind, ih]
  | authorize who rest ih => simp [bind, ih]
  | modem rest ih => simp [bind, ih]
  | clock rest ih => simp [bind, ih]

theorem bind_assoc {α β γ : Type} (x : Exchange α) (f : α → Exchange β) (g : β → Exchange γ) :
    (x.bind f).bind g = x.bind fun a => (f a).bind g := by
  induction x with
  | done => rfl
  | note n rest ih => simp [bind, ih]
  | call c rest ih => simp [bind, ih]
  | authorize who rest ih => simp [bind, ih]
  | modem rest ih => simp [bind, ih]
  | clock rest ih => simp [bind, ih]

instance : LawfulMonad Exchange :=
  .mk' Exchange bind_done (fun _ _ => rfl) bind_assoc

/-! ## Single moves -/

def log (severity : Severity) (text : String) : Exchange Unit :=
  note (.line ⟨severity, text⟩) (done ())

def debug (text : String) : Exchange Unit := log .debug text

def ask (c : Call) : Exchange (Option Fault) := call c done

def modemState : Exchange State := modem done

def now : Exchange Nat := clock done

/-- A call whose failure changes nothing but is complained about. -/
def attempt (c : Call) (complaint : String) : Exchange Unit :=
  call c fun
    | none => done ()
    | some fault => log .warn (complaint ++ ": " ++ fault.text)

end Exchange

end Modem.Signal
