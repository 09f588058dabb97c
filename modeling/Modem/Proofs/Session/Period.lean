import Modem.Proofs.Session.Account

/-! # Periods and rates

The rate is stored apart from the timer. A Setup request that finds the modem too far down stores
its rate and leaves a timer that runs at another one. The two differ from then on until the timer is
brought in line or stopped, and they differ in no other way. -/

namespace Modem.Session

open Signal

/-- The deed brings the timer in line with the rate. -/
def Deed.aligns (d : Deed) : Bool := d.found.alignedBy d.turns d.operation

/-- The rate that has been stored since the timer was last brought in line with the rate. -/
def deferredRate? : List Deed → Option UInt32
  | [] => none
  | d :: earlier => if d.aligns then none else d.stored?.or (deferredRate? earlier)

theorem History.rate_eq_deferredRate?_getD {config : Config} {supported : Bool}
    {deeds : List Deed} {last : Interface} {timer : Timer}
    (history : History (.fresh config supported) deeds last)
    (running : last.reporting.timer = some timer) :
    last.reporting.rate = (deferredRate? deeds).getD timer.rate := by
  induction history generalizing timer with
  | nil => cases running
  | @cons earlier d i answer before expected ended ih =>
    obtain ⟨effect, -⟩ := Deed.effect ended
    have ran := effect.timer before.sound running
    have rate : i.reporting.rate = d.stored?.getD d.found.reporting.rate := effect.rate
    rw [deferredRate?]
    by_cases aligned : d.aligns = true
    · rw [if_pos aligned]
      exact ((if_pos aligned).mp ran).symm
    · rw [if_neg aligned, rate]
      obtain ⟨old, ranBefore, same⟩ := (if_neg aligned).mp ran
      cases d.stored? with
      | some stored => rfl
      | none =>
        rw [same]
        exact ih ranBefore

/-- The period of the timer is the stored rate in seconds. -/
def PeriodIsRate (i : Interface) (timer : Timer) : Prop :=
  timer.period = i.status.rate.toNat * 1000

theorem History.periodIsRate_iff {config : Config} {supported : Bool} {deeds : List Deed}
    {last : Interface} {timer : Timer} (history : History (.fresh config supported) deeds last)
    (running : last.reporting.timer = some timer) :
    PeriodIsRate last timer ↔ ∀ rate, deferredRate? deeds = some rate → rate = timer.rate := by
  have stored := history.rate_eq_deferredRate?_getD running
  have periods : PeriodIsRate last timer ↔ timer.rate = last.reporting.rate := by
    rw [← UInt32.toNat_inj]
    simp only [PeriodIsRate, Timer.period, Interface.status]
    omega
  rw [periods, stored]
  cases deferredRate? deeds with
  | none => simp
  | some deferred => simp [eq_comm]

/-- The period of a timer is the stored rate exactly as long as no other rate has been stored since
the timer was last brought in line. -/
theorem period_is_rate_iff_not_deferred (config : Config) (supported : Bool) :
    (∀ deeds i timer, History (.fresh config supported) deeds i →
      i.reporting.timer = some timer →
      (PeriodIsRate i timer ↔ ∀ rate, deferredRate? deeds = some rate → rate = timer.rate)) ∧
      ∀ stage a timer, Account.Reachable config supported stage a → a.service.work = none →
        a.service.interface.reporting.timer = some timer →
        (PeriodIsRate a.service.interface timer ↔
          ∀ rate, deferredRate? a.deeds = some rate → rate = timer.rate) := by
  constructor
  · intro deeds i timer history running
    exact history.periodIsRate_iff running
  · intro stage a timer reachable idle running
    exact (reachable.history idle).periodIsRate_iff running

/-- A rate of five seconds is set up, the modem falls, and a rate of ten seconds is set up. -/
def rateDeferred : Account :=
  (Account.fresh {} true .serving (obliging .enabled {})).afterAll
    [.send 0 .bringUp, .take .request, .send 1 (.setup 5 ⟨":1.5"⟩), .take .request,
      .take (.check 1), .surround (obliging .disabled {}), .send 2 (.setup 10 ⟨":1.5"⟩),
      .take .request, .take (.check 2)]

theorem reachable_rateDeferred : Account.Reachable {} true .serving rateDeferred :=
  Account.reachable_afterAll rfl (by decide +kernel)

theorem idle_rateDeferred : rateDeferred.service.work = none :=
  Option.isNone_iff_eq_none.1 (by decide +kernel)

theorem timer_rateDeferred :
    rateDeferred.service.interface.reporting.timer = some ⟨0, 5, 5000⟩ := by
  decide +kernel

/-- The timer still runs every five seconds, and the period is found to differ from the rate. -/
theorem deferred_rate_of_falling_modem :
    deferredRate? rateDeferred.deeds = some 10 ∧
      ¬PeriodIsRate rateDeferred.service.interface ⟨0, 5, 5000⟩ := by
  have deferred : deferredRate? rateDeferred.deeds = some 10 := by decide +kernel
  refine ⟨deferred, ?_⟩
  intro same
  have exact_iff := (period_is_rate_iff_not_deferred {} true).2 .serving rateDeferred ⟨0, 5, 5000⟩
    reachable_rateDeferred idle_rateDeferred timer_rateDeferred
  exact absurd (exact_iff.1 same 10 deferred) (by decide)

/-- A timer does not always run at the stored rate. -/
theorem period_not_always_rate :
    ¬∀ a timer, Account.Reachable {} true .serving a → a.service.work = none →
      a.service.interface.reporting.timer = some timer →
      PeriodIsRate a.service.interface timer := by
  intro always
  have same := always rateDeferred ⟨0, 5, 5000⟩ reachable_rateDeferred idle_rateDeferred
    timer_rateDeferred
  have stored : rateDeferred.service.interface.reporting.rate = 10 := by decide +kernel
  rw [PeriodIsRate, Interface.status, stored] at same
  exact absurd same (by decide)

end Modem.Session
