import Modem.Proofs.Signal.Turns
import Modem.Signal.Interface

/-! # Outcomes of operations

An operation asks, logs and calls on its way, but what it leaves behind depends on little: the
interface it finds, the state of the modem, the clock, and whether it is refused. The outcomes are
stated here without an exchange, and every end of an exchange is shown to be one of them. -/

namespace Modem.Signal

open Exchange

/-! ## Reporting -/

namespace Reporting

def cleared (r : Reporting) : Reporting := { r with shown := .empty }

def tornDown (r : Reporting) : Reporting :=
  { r with timer := none, shown := .empty, generation := r.generation + 1 }

def started (r : Reporting) (now : Nat) : Reporting :=
  launch { r with
    timer := some (Timer.start r.timersStarted r.rate now)
    timersStarted := r.timersStarted + 1 }

/-- Whether a timer is missing that the modem and the device allow. -/
def wantsTimer (r : Reporting) (modem : State) : Bool :=
  r.rate ≠ 0 && modem.isEnablingOrLater && r.supported && r.timer.map Timer.rate ≠ some r.rate

def scheduled (r : Reporting) (modem : State) (now : Nat) : Reporting :=
  if r.rate = 0 then r.tornDown
  else if r.wantsTimer modem then r.started now
  else r

/-- The snapshot that the answer to a query stands for. -/
def snapshotOf : Except Fault Snapshot → Snapshot
  | .ok values => values
  | .error _ => .empty

/-- The answer to a query of an earlier generation is only forgotten. -/
def received (r : Reporting) (query : Query) (result : Except Fault Snapshot) : Reporting :=
  let r := { r with inFlight := r.inFlight.erase query }
  if query.generation ≠ r.generation then r
  else { r with shown := if r.attached then snapshotOf result else .empty }

/-- The calls by which a snapshot is shown. -/
def showing (r : Reporting) (values : Snapshot) : List Call :=
  if r.attached then [.publish values] else []

theorem always_publishShown (r : Reporting) (complaint : String) :
    (r.publishShown complaint).Always fun turns _ => calls turns = r.showing r.shown := by
  unfold publishShown showing
  split
  · exact always_attempt rfl fun _ _ => rfl
  · exact always_pure rfl

theorem always_clear (r : Reporting) :
    r.clear.Always fun turns s => s = r.cleared ∧ calls turns = r.showing .empty := by
  refine always_bind ((always_publishShown _ _).mono fun turns _ shown => ?_)
  exact always_pure ⟨rfl, by simpa [showing] using shown⟩

theorem always_teardown (r : Reporting) :
    r.teardown.Always fun turns s => s = r.tornDown ∧ calls turns = r.showing .empty :=
  always_clear _

theorem always_disable (r : Reporting) :
    r.disable.Always fun turns s => s = r.tornDown ∧ calls turns = r.showing .empty := by
  refine always_bind (always_log ?_)
  exact (always_teardown r).mono fun turns s torn => ⟨torn.1, by simpa using torn.2⟩

theorem always_loaded (r : Reporting) (query : Query) (result : Except Fault Snapshot) :
    (r.loaded query result).Always fun turns s =>
      s = r.received query result ∧
        calls turns =
          if query.generation = r.generation then r.showing (snapshotOf result) else [] := by
  unfold loaded received
  by_cases current : query.generation = r.generation
  · simp only [current, ne_eq, not_true, if_false, if_true]
    cases result with
    | ok values =>
      by_cases attached : r.attached = true
      · simp only [attached, if_true]
        refine always_bind ((always_publishShown _ _).mono fun turns _ shown => ?_)
        exact always_pure ⟨rfl, by simpa [showing, attached, snapshotOf] using shown⟩
      · simp only [attached, Bool.false_eq_true, if_false]
        refine always_bind (always_log (always_pure ⟨rfl, ?_⟩))
        simp [showing, attached]
    | error fault =>
      refine always_bind (always_log ((always_clear _).mono fun turns s cleared => ?_))
      exact ⟨by simp [cleared.1, Reporting.cleared, snapshotOf],
        by simpa [showing, snapshotOf] using cleared.2⟩
  · simp only [current, ne_eq, not_false_eq_true, if_true, if_false]
    exact always_bind (always_log (always_pure ⟨rfl, by simp⟩))

theorem always_startTimer (r : Reporting) :
    r.startTimer.Always fun turns s => (∃ now, s = r.started now) ∧ calls turns = [] := by
  refine always_bind (always_clock fun now => always_done ?_)
  exact always_bind (always_log (always_pure ⟨⟨now, rfl⟩, by simp⟩))

theorem always_schedule (r : Reporting) (modem : State) :
    (r.schedule modem).Always fun turns s =>
      (∃ now, s = r.scheduled modem now) ∧
        calls turns = if r.rate = 0 then r.showing .empty else [] := by
  unfold schedule scheduled
  by_cases off : r.rate = 0
  · simp only [off, if_true]
    have torn := always_teardown r
    split
    · refine always_bind (always_log (torn.mono fun turns s torn => ?_))
      exact ⟨⟨0, torn.1⟩, by simpa using torn.2⟩
    · exact torn.mono fun turns s torn => ⟨⟨0, torn.1⟩, torn.2⟩
  simp only [off, if_false]
  by_cases deferred : modem.isEnablingOrLater = true
  · by_cases supported : r.supported = true
    · simp only [deferred, supported, Bool.not_true, Bool.false_eq_true, if_false]
      by_cases same : r.timer.map Timer.rate = some r.rate
      · simp only [same, if_true]
        exact always_pure ⟨⟨0, by simp [wantsTimer, same]⟩, rfl⟩
      · simp only [same, if_false]
        refine (always_startTimer r).mono fun turns s started => ⟨?_, started.2⟩
        simpa [wantsTimer, off, deferred, supported, same] using started.1
    · simp only [deferred, supported, Bool.not_true, Bool.not_false, Bool.false_eq_true,
        if_false, if_true]
      exact always_bind (always_log (always_pure ⟨⟨0, by simp [wantsTimer, supported]⟩, by simp⟩))
  · simp only [deferred, Bool.not_false, if_true]
    exact always_bind (always_log (always_pure ⟨⟨0, by simp [wantsTimer, deferred]⟩, by simp⟩))

theorem always_setRate (r : Reporting) (rate : UInt32) (modem : State) :
    (r.setRate rate modem).Always fun turns s =>
      (∃ now, s = { r with rate }.scheduled modem now) ∧
        calls turns = (if r.attached then [.setRate rate] else []) ++
          if rate = 0 then r.showing .empty else [] := by
  have scheduled := always_schedule { r with rate } modem
  unfold setRate
  dsimp only
  by_cases attached : r.attached = true
  · rw [if_pos attached, if_pos attached]
    refine always_bind (always_attempt ?_ fun fault line => ?_)
    · exact scheduled.mono fun turns s ends => ⟨ends.1, by simpa [showing] using ends.2⟩
    · exact scheduled.mono fun turns s ends => ⟨ends.1, by simpa [showing] using ends.2⟩
  · rw [if_neg attached, if_neg attached]
    exact scheduled.mono fun turns s ends => ⟨ends.1, by simpa [showing] using ends.2⟩

end Reporting

end Modem.Signal
