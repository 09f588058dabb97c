import Modem.Proofs.Session.Creation
import Modem.Proofs.Signal.Object

/-! # What the object has been told

The rate and the snapshot that the object was told last are those of the interface, whatever has
become of the calls. They are written in several places, but each deed tells the object what it
leaves behind. -/

namespace Modem.Session

open Signal

namespace Deed

/-- The calls that a deed has made so far, the latest first. -/
def calls (d : Deed) : List Call := (Signal.calls d.turns).reverse

theorem calls_of_ended {d : Deed} {result : Interface × Answer} (ended : d.rest = .done result) :
    d.calls = (d.found.callsOf d.turns d.operation).reverse := by
  rw [calls, (effect ended).2]

/-- A deed that creates the object stores no rate. -/
theorem stored?_of_creates {d : Deed} (creates : d.creates = true) : d.stored? = none := by
  unfold Deed.creates Interface.createsBy at creates
  split at creates
  next bringUp => simp [stored?, Interface.storedBy, bringUp, Operation.granted?]
  · cases creates

end Deed

/-- The interface as the latest of some calls describe it. -/
structure Told (created : Bool) (calls : List Call) (i : Interface) : Prop where
  rate : created = true → calls.findSome? Call.rate? = some i.status.rate
  /-- Nothing is shown before the first snapshot. -/
  shown : (calls.findSome? Call.shown?).getD .empty = i.status.shown
  exported : i.exported = true → created = true ∧ calls.findSome? Call.exports? = some true

namespace History

variable {config : Config} {supported : Bool} {deeds : List Deed} {last : Interface}

/-- The rate that was announced last is the stored one. -/
theorem announced (history : History (.fresh config supported) deeds last)
    (created : deeds.any Deed.creates = true) :
    deeds.findSome? Deed.announced? = some last.status.rate := by
  induction history with
  | nil => cases created
  | @cons earlier d i answer before expected ended ih =>
    have rate : i.status.rate = d.stored?.getD d.found.status.rate := (Deed.effect ended).1.rate
    by_cases creates : d.creates = true
    · rw [List.findSome?_cons, Deed.announced?_of_creates creates, rate,
        Deed.stored?_of_creates creates]
      rfl
    · have other : d.creates = false := by simpa using creates
      rw [List.any_cons, other, Bool.false_or] at created
      rw [List.findSome?_cons, Deed.announced?_of_not_creates other, rate, ih created]
      cases d.stored? <;> rfl

theorem rate_told (history : History (.fresh config supported) deeds last)
    (created : deeds.any Deed.creates = true) :
    (deeds.flatMap Deed.calls).findSome? Call.rate? = some last.status.rate := by
  have rates : (deeds.flatMap Deed.calls).filterMap Call.rate? = deeds.flatMap Deed.rates := by
    rw [List.filterMap_flatMap]
    rfl
  rw [← List.head?_filterMap, rates, history.rates_eq, List.head?_filterMap,
    history.announced created]

theorem shown_told (history : History (.fresh config supported) deeds last) :
    ((deeds.flatMap Deed.calls).findSome? Call.shown?).getD .empty = last.status.shown := by
  induction history with
  | nil => rfl
  | @cons earlier d i answer before expected ended ih =>
    have sound := before.sound
    have shown : i.status.shown = _ := (Deed.effect ended).1.shown sound expected
    rw [List.flatMap_cons, List.findSome?_append, Option.getD_or, ih, Deed.calls_of_ended ended,
      shown]
    exact Interface.shown_callsOf sound d.turns expected

theorem attached_of_exported (history : History (.fresh config supported) deeds last)
    (exported : last.exported = true) : last.reporting.attached = true := by
  induction history with
  | nil => cases exported
  | cons before expected ended ih =>
    exact (Deed.effect ended).1.attached_of_exported ih exported

theorem created_of_attached (history : History (.fresh config supported) deeds last)
    (attached : last.reporting.attached = true) : deeds.any Deed.creates = true := by
  induction history with
  | nil => cases attached
  | @cons earlier d i answer before expected ended ih =>
    rw [List.any_cons, Bool.or_eq_true]
    rcases (Deed.effect ended).1.attached_or_creates attached with old | new
    · exact .inr (ih old)
    · exact .inl new

theorem exports_told (history : History (.fresh config supported) deeds last)
    (exported : last.exported = true) :
    (deeds.flatMap Deed.calls).findSome? Call.exports? = some true := by
  induction history with
  | nil => cases exported
  | @cons earlier d i answer before expected ended ih =>
    have exports := (Deed.effect ended).1.exports exported
    rw [List.flatMap_cons, List.findSome?_append, Deed.calls_of_ended ended]
    cases said : (d.found.callsOf d.turns d.operation).reverse.findSome? Call.exports? with
    | some exports' =>
      rw [said] at exports
      simpa using exports
    | none =>
      rw [said] at exports
      simpa using ih exports

/-- Between operations the object has been told what the interface holds. -/
theorem told (history : History (.fresh config supported) deeds last) :
    Told (deeds.any Deed.creates) (deeds.flatMap Deed.calls) last where
  rate := history.rate_told
  shown := history.shown_told
  exported exported :=
    ⟨history.created_of_attached (history.attached_of_exported exported),
      history.exports_told exported⟩

end History

namespace World

/-- The object has been created. -/
def created (w : World) : Bool := w.journal.any fun entry => entry.event = .created

theorem created_eq (w : World) : w.created = decide (0 < w.creations) := by
  rw [created, creations, Bool.eq_iff_iff, decide_eq_true_iff, List.countP_pos_iff,
    List.any_eq_true]

end World

/-- Between operations the object has been told what the interface of the service holds. -/
theorem Account.Reachable.told {config : Config} {supported : Bool} {stage : Stage} {a : Account}
    (reachable : Reachable config supported stage a) (idle : a.service.work = none) :
    Told a.service.world.created a.service.world.calls a.service.interface := by
  have history := reachable.history idle
  have created : a.service.world.created = a.deeds.any Deed.creates := by
    rw [World.created_eq, reachable.creations_of_idle idle, Bool.eq_iff_iff, decide_eq_true_iff,
      List.countP_pos_iff, List.any_eq_true]
  rw [created, reachable.tracks.calls]
  exact history.told

end Modem.Session
