import Modem.Session.World

/-! # How the parties answer

Devices, authorizers and buses that answer by a list or by a rule. -/

namespace Modem.Session

open Signal (Call Requester)

/-! ## Devices -/

/-- One response after the other; the last one repeats. -/
def Response.listed (first : Response) (rest : List Response) (n : Nat) : Response :=
  ((first :: rest).take (n + 1)).getLastD first

/-! ## Authorizers -/

/-- A rule for one requester or for all. -/
structure Rule where
  who : Option Requester
  verdict : Verdict

namespace Rule

def covers (rule : Rule) (who : Requester) : Bool :=
  rule.who.all fun named => named = who

/-- The first rule that covers the requester decides; without one the request is allowed. -/
def decide (rules : List Rule) (who : Requester) : Verdict :=
  match rules.find? fun rule => rule.covers who with
  | some rule => rule.verdict
  | none => {}

def patience (rules : List Rule) : Nat := (rules.map fun rule => rule.verdict.delay).foldl max 0

end Rule

/-! ## Buses -/

/-- A bus that answers by the kind of call. -/
structure Deliveries where
  setRate : Delivery := {}
  publish : Delivery := {}
  exportObject : Delivery := {}
  unexportObject : Delivery := {}

namespace Deliveries

def deliver (d : Deliveries) : Call → Delivery
  | .setRate _ => d.setRate
  | .publish _ => d.publish
  | .exportObject => d.exportObject
  | .unexportObject => d.unexportObject

def patience (d : Deliveries) : Nat :=
  max (max d.setRate.delay d.publish.delay) (max d.exportObject.delay d.unexportObject.delay)

end Deliveries

end Modem.Session
