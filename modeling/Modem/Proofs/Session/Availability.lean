import Modem.Proofs.Session.Account

/-! # Availability of readings

Between operations, nothing is available unless a timer runs. Queries that are still under way then
belong to earlier generations, so whatever order they are answered in, nothing becomes available
before the next timer starts. -/

namespace Modem.Session

open Signal

/-- Nothing is available and no timer runs. -/
def Quiet (i : Interface) : Prop :=
  i.reporting.timer = none ∧ ∀ m, (i.status.shown.reading m) = .absent

theorem quiet_of_sound {i : Interface} (sound : i.reporting.Sound)
    (still : i.reporting.timer = none) : Quiet i := by
  refine ⟨still, ?_⟩
  intro m
  rw [Interface.status, sound.cleared still]
  exact Snapshot.reading_empty m

/-- As long as no timer starts, a missing timer stays missing. -/
theorem History.still {first last : Interface} {deeds : List Deed}
    (history : History first deeds last)
    (same : last.reporting.timersStarted = first.reporting.timersStarted)
    (still : first.reporting.timer = none) : last.reporting.timer = none := by
  -- Counts only grow, so between two equal counts no timer can have started.
  have kept : first.reporting.timersStarted ≤ last.reporting.timersStarted ∧
      (last.reporting.timersStarted = first.reporting.timersStarted →
        last.reporting.timer = none) := by
    refine history.invariant
      (fun r => first.reporting.timersStarted ≤ r.timersStarted ∧
        (r.timersStarted = first.reporting.timersStarted → r.timer = none))
      ⟨Nat.le_refl _, fun _ => still⟩ fun {r s answered} kept becomes => ?_
    have step := becomes.timersStarted
    refine ⟨Nat.le_trans kept.1 step.1, fun same => ?_⟩
    have before : r.timersStarted = first.reporting.timersStarted := by omega
    exact step.2 (by omega) (kept.2 before)
  exact kept.2 same

/-- A timer governs what is available. -/
structure Governed (i : Interface) : Prop where
  absent : i.reporting.timer = none → ∀ m, i.status.shown.reading m = .absent
  disowned : i.reporting.timer = none →
    ∀ query ∈ i.reporting.inFlight, query.generation ≠ i.reporting.generation
  /-- Whatever is done next, nothing becomes available before a timer starts. -/
  dormant : i.reporting.timer = none → ∀ later j, History i later j →
    j.reporting.timersStarted = i.reporting.timersStarted → Quiet j
  available : ∀ m, (i.status.shown.reading m).valid = true → i.reporting.timer ≠ none
  off : i.reporting.rate = 0 → Quiet i

theorem governed_of_sound {i : Interface} (sound : i.reporting.Sound) : Governed i where
  absent still := (quiet_of_sound sound still).2
  disowned still query pending := Nat.ne_of_lt (sound.disowned still query pending)
  dormant still later j onward same := by
    have there : j.reporting.Sound :=
      onward.invariant Reporting.Sound sound fun sound becomes => sound.becomes becomes
    exact quiet_of_sound there (onward.still same still)
  available m valid still := by
    rw [(quiet_of_sound sound still).2 m] at valid
    cases valid
  off off := quiet_of_sound sound (sound.off off)

/-- A reading is available only while a timer runs, in whatever order operations are carried out on
an interface, by hand or by a service. -/
theorem readings_need_timer (config : Config) (supported : Bool) :
    (∀ deeds i, History (.fresh config supported) deeds i → Governed i) ∧
      ∀ stage a, Account.Reachable config supported stage a → a.service.work = none →
        Governed a.service.interface ∧
          (a.service.interface.reporting.timer = none → ∀ b, Account.Run a b →
            b.service.work = none →
            b.service.interface.reporting.timersStarted =
              a.service.interface.reporting.timersStarted →
            Quiet b.service.interface) := by
  constructor
  · intro deeds i history
    exact governed_of_sound history.sound
  · intro stage a reachable idle
    have governed := governed_of_sound (reachable.history idle).sound
    refine ⟨governed, ?_⟩
    intro still b run rest same
    obtain ⟨later, -, onward⟩ := run.history reachable.tracks idle rest
    exact governed.dormant still later _ onward same

/-- A query is launched, reporting is disabled, and the answer comes afterwards. -/
theorem absent_after_late_answer :
    let a := (Account.fresh { initialRate := 5 } true .serving
      (obliging .registered { gsm := some ⟨.zero⟩ })).afterAll
        [.send 0 .bringUp, .take .request, .send 1 .enable, .take .request, .send 2 .disable,
          .take .request]
    let b := a.afterAll [.take (.load ⟨0, 0⟩)]
    Quiet a.service.interface ∧ a.service.interface.reporting.inFlight = [⟨0, 0⟩] ∧
      Quiet b.service.interface ∧ b.service.interface.reporting.inFlight = [] := by
  intro a b
  have reachable : Account.Reachable { initialRate := 5 } true .serving a :=
    Account.reachable_afterAll rfl (by decide +kernel)
  have run : Account.Run a b := Account.run_afterAll (by decide +kernel)
  have idle : a.service.work = none := rfl
  have still : a.service.interface.reporting.timer = none := by decide
  obtain ⟨governed, onward⟩ :=
    (readings_need_timer { initialRate := 5 } true).2 .serving a reachable idle
  exact ⟨⟨still, governed.absent still⟩, by decide, onward still b run rfl (by decide), by decide⟩

end Modem.Session
