import Modem.Published.Property
import Modem.Signal.Difference
import Modem.Signal.Exchange

/-! # The served object

What the object shows on the bus: the rate and the snapshot that were published last, before or
after it was exported. While it is exported, an update is announced by a change signal for each
property that it changes; a rate is announced in any case. -/

namespace Modem.Published

open Bus (Value)
open Signal (Call Snapshot)

structure Served where
  rate : UInt32 := 0
  shown : Snapshot := .empty
  exported : Bool := false
  deriving DecidableEq, Repr

/-- A change signal carries the value that the property has when it is sent. -/
structure Change where
  property : Property
  value : Value
  deriving DecidableEq, Repr

namespace Served

def get (s : Served) : Property → Value
  | .rate => ofRate s.rate
  | .reading m => ofReading (s.shown.reading m)

/-- The signals for properties, if there is anybody to see them. -/
def announce (s : Served) (properties : List Property) : List Change :=
  if s.exported then properties.map fun p => ⟨p, s.get p⟩ else []

def apply (s : Served) : Call → Served × List Change
  | .setRate rate =>
    let s := { s with rate }
    (s, s.announce [.rate])
  | .publish values =>
    let changed := values.changed s.shown
    let s := { s with shown := values }
    (s, s.announce (changed.map .reading))
  | .exportObject => ({ s with exported := true }, [])
  | .unexportObject => ({ s with exported := false }, [])

def applyAll (s : Served) : List Call → Served × List Change
  | [] => (s, [])
  | c :: rest =>
    let (s, changes) := s.apply c
    let (s, more) := s.applyAll rest
    (s, changes ++ more)

theorem applyAll_append (s : Served) (first second : List Call) :
    s.applyAll (first ++ second) =
      (((s.applyAll first).1.applyAll second).1,
        (s.applyAll first).2 ++ ((s.applyAll first).1.applyAll second).2) := by
  induction first generalizing s with
  | nil => rfl
  | cons c rest ih => simp [applyAll, ih, List.append_assoc]

end Served

end Modem.Published
