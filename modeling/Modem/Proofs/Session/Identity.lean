import Modem.Proofs.Session.Numbers

/-! # The numbers of timers

Timers are numbered as they start, and the timer that runs is the one that has started last. Whoever
sees the same number twice can therefore conclude that the timer has been running all the time, at
one rate, and that nothing between has asked for an end or for another rate. -/

namespace Modem.Session

open Signal

namespace Account

variable {config : Config} {supported : Bool} {stage : Stage} {a c : Account}

/-! ## Two moments of a run -/

/-- What the numbers of the timers that are shown at two moments of a run tell about what has been
done in between. -/
structure Tells (a c : Account) (later : List Deed) (t u : Timer) : Prop where
  grows : t.number ≤ u.number
  same_iff : u.number = t.number ↔ ∀ d ∈ later, d.Spares t.rate
  between : u.number = t.number → ∀ b, Run a b → Run b c →
    ∃ v, b.service.interface.status.timer = some v ∧ v.number = t.number ∧ v.period = t.period
  /-- Even if a timer starts again at the same rate. -/
  renewed :
    (∃ d ∈ later, d.operation = .serve .disable ∨ d.operation = .serve .shutDown ∨
      d.found.reporting.requested? d.turns d.operation = some 0) →
    t.number < u.number

theorem Reachable.tells {later : List Deed} {t u : Timer}
    (reachable : Reachable config supported stage a) (run : Run a c)
    (ended : c.ended = later ++ a.ended)
    (first : a.service.interface.status.timer = some t)
    (second : c.service.interface.status.timer = some u) : Tells a c later t u := by
  have given : t.number + 1 = a.service.interface.reporting.timersStarted :=
    reachable.ended.number_eq first
  have latest : u.number + 1 = c.service.interface.reporting.timersStarted :=
    (reachable.run run).ended.number_eq second
  have more := run.timersStarted_le reachable
  have grows : t.number ≤ u.number := by omega
  have rate_eq (same : u.number = t.number) : t.rate = u.rate := by
    obtain ⟨⟨v, shown, -, rate⟩, -⟩ := run.kept_of_number reachable second (by omega)
    obtain rfl := Option.some.inj (first.symm.trans shown)
    exact rate
  have same_iff : u.number = t.number ↔ ∀ d ∈ later, d.Spares t.rate := by
    constructor
    · intro same
      rw [rate_eq same]
      exact (run.kept_of_number reachable second (by omega)).2 later ended
    · intro spared
      obtain ⟨v, shown, number, -⟩ := run.kept_of_spared reachable first fun more split => by
        rwa [List.append_cancel_right (split.symm.trans ended)]
      obtain rfl := Option.some.inj (shown.symm.trans second)
      exact number
  refine ⟨grows, same_iff, ?_, ?_⟩
  · intro same b toward onward
    have least := toward.timersStarted_le reachable
    obtain ⟨⟨v, shown, number, rate⟩, -⟩ :=
      onward.kept_of_number (reachable.run toward) second (by omega)
    refine ⟨v, shown, number.trans same, ?_⟩
    rw [Timer.period, Timer.period, rate, rate_eq same]
  · rintro ⟨d, mem, asked⟩
    exact Nat.lt_of_le_of_ne grows fun same => (same_iff.1 same.symm d mem).goes_on asked

/-- Timers are numbered in the order in which they start, no number is given twice, and the timer
that runs is the latest. So wherever a number is shown at two moments of a run, the timer has been
running at one rate all the time between, and nothing has asked for anything else; and wherever
something has, another number is shown. -/
theorem timers_are_told_by_number (reachable : Reachable config supported stage a) :
    (∀ deeds i, a.Moment deeds i →
      (started deeds).map Timer.number = (List.range i.reporting.timersStarted).reverse ∧
      ∀ timer, i.status.timer = some timer →
        (started deeds).head?.map Timer.identity = some timer.identity) ∧
    ∀ c, Run a c → ∃ later, c.ended = later ++ a.ended ∧
      ∀ t u, a.service.interface.status.timer = some t →
        c.service.interface.status.timer = some u → Tells a c later t u := by
  constructor
  · intro deeds i moment
    have history := reachable.history_of_moment moment
    exact ⟨history.numbers_started, fun timer shown => history.latest_started shown⟩
  · intro c run
    obtain ⟨later, -, ended, -⟩ := run.ended reachable.tracks
    exact ⟨later, ended, fun t u => reachable.tells run ended⟩

/-- A rate of five seconds is set up. -/
def timerBegun : Account :=
  (fresh {} true .serving (obliging .enabled {})).afterAll
    [.send 0 .bringUp, .take .request, .send 1 (.setup 5 ⟨":1.5"⟩), .take .request,
      .take (.check 1)]

/-- While the modem is down another rate is stored, and the first one is set up again before the
next tick. -/
def timerKept : Account :=
  timerBegun.afterAll
    [.surround (obliging .disabled {}), .send 2 (.setup 10 ⟨":1.5"⟩), .take .request,
      .take (.check 2), .surround (obliging .enabled {}), .send 3 (.setup 5 ⟨":1.5"⟩),
      .take .request, .take (.check 3), .pass 5000, .take .tick]

/-- Reporting is disabled and enabled again. -/
def timerRenewed : Account :=
  timerKept.afterAll [.send 4 .disable, .take .request, .send 5 .enable, .take .request]

theorem reachable_timerBegun : Reachable {} true .serving timerBegun :=
  reachable_afterAll rfl (by decide +kernel)

/-- The same number is shown after the tick, and another one in the end, at the same rate. -/
theorem numbers_of_kept_and_renewed :
    (started timerRenewed.deeds).map Timer.number = [1, 0] ∧
      (∃ later, timerKept.ended = later ++ timerBegun.ended ∧ ∀ d ∈ later, d.Spares 5) ∧
      ∃ later, timerRenewed.ended = later ++ timerKept.ended ∧ ¬∀ d ∈ later, d.Spares 5 := by
  have toward : Run timerBegun timerKept := run_afterAll (by decide +kernel)
  have onward : Run timerKept timerRenewed := run_afterAll (by decide +kernel)
  have kept := reachable_timerBegun.run toward
  have idle : timerRenewed.service.work = none := Option.isNone_iff_eq_none.1 (by decide +kernel)
  have first : timerBegun.service.interface.status.timer = some ⟨0, 5, 5000⟩ := by decide +kernel
  have second : timerKept.service.interface.status.timer = some ⟨0, 5, 10000⟩ := by decide +kernel
  have third : timerRenewed.service.interface.status.timer = some ⟨1, 5, 10000⟩ := by
    decide +kernel
  refine ⟨?_, ?_, ?_⟩
  · have numbers := ((timers_are_told_by_number (kept.run onward)).1 _ _ (.idle idle)).1
    have all : timerRenewed.service.interface.reporting.timersStarted = 2 := by decide +kernel
    rw [all] at numbers
    exact numbers
  · obtain ⟨later, ended, tells⟩ :=
      (timers_are_told_by_number reachable_timerBegun).2 timerKept toward
    exact ⟨later, ended, (tells _ _ first second).same_iff.1 rfl⟩
  · obtain ⟨later, ended, tells⟩ := (timers_are_told_by_number kept).2 timerRenewed onward
    refine ⟨later, ended, fun spared => ?_⟩
    have same : 1 = 0 := (tells _ _ second third).same_iff.2 spared
    exact absurd same (by decide)

end Account

end Modem.Session
