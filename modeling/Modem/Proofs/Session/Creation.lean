import Modem.Proofs.Session.Rates
import Modem.Proofs.Session.Record
import Modem.Proofs.Signal.Creation

/-! # The creation in the journal

The journal says that the object has been created exactly where a deed has created it. -/

namespace Modem.Session

open Signal

/-! ## Creations read off the journal -/

/-- How often the object has been created. -/
def World.creations (w : World) : Nat := w.journal.countP fun entry => entry.event = .created

/-- Reads off each creation of the object. -/
def creation : Reader Unit where
  read
    | .created => some ()
    | _ => none
  line _ := rfl
  authorize _ := rfl
  query _ := rfl

theorem World.creations_eq_length (w : World) : w.creations = (creation.world w).length := by
  rw [Reader.world, List.length_filterMap_eq_countP, creations]
  congr
  funext entry
  cases entry.event <;> rfl

theorem creations_eq_length (turns : List Turn) :
    Signal.creations turns = (creation.turns turns).length := by
  rw [Reader.turns, List.length_filterMap_eq_countP, Signal.creations, List.count]
  congr
  funext turn
  cases turn with
  | note n => cases n <;> rfl
  | _ => rfl

theorem Account.Reachable.creations {config : Config} {supported : Bool} {stage : Stage}
    {a : Account} (reachable : Reachable config supported stage a) :
    a.service.world.creations = Signal.creations (a.deeds.flatMap Deed.turns) := by
  rw [World.creations_eq_length, creation.world_eq reachable, creations_eq_length, Reader.turns,
    List.filterMap_flatMap, Reader.deeds, List.length_flatMap, List.length_flatMap]
  simp [Reader.turns]

/-! ## Creations of deeds -/

namespace Deed

theorem creations_of_ended {d : Deed} {result : Interface × Answer}
    (ended : d.rest = .done result) : Signal.creations d.turns = d.creates.toNat := by
  have leads := d.leads
  rw [ended] at leads
  exact d.found.creates_carryOut d.operation _ _ leads

/-- A deed creates no more than it does by the time it has ended. -/
theorem creations_le (d : Deed) : Signal.creations d.turns ≤ d.creates.toNat := by
  obtain ⟨more, result, ends⟩ := d.rest.exists_ends
  have whole : Signal.creations (d.turns ++ more) = d.creates.toNat :=
    d.found.creates_carryOut d.operation _ _ (d.leads.trans ends)
  rw [creations_append] at whole
  omega

end Deed

theorem History.creations_eq {start last : Interface} {deeds : List Deed}
    (history : History start deeds last) :
    Signal.creations (deeds.flatMap Deed.turns) = deeds.countP Deed.creates := by
  induction history with
  | nil => rfl
  | @cons earlier d i answer before expected ended ih =>
    rw [List.flatMap_cons, creations_append, ih, Deed.creations_of_ended ended, List.countP_cons]
    cases d.creates <;> simp [Nat.add_comm]

/-- Between operations, the journal tells of as many creations as there are deeds that create. -/
theorem Account.Reachable.creations_of_idle {config : Config} {supported : Bool} {stage : Stage}
    {a : Account} (reachable : Reachable config supported stage a)
    (idle : a.service.work = none) :
    a.service.world.creations = a.deeds.countP Deed.creates :=
  reachable.creations.trans (reachable.history idle).creations_eq

end Modem.Session
