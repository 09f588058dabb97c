import Modem.Proofs.Session.Deletion
import Modem.Proofs.Session.Numbers

/-! # The cadence of a timer

As long as its ticks are handled on time, a timer that has started keeps to one schedule, whatever
happens between the ticks, and queries the device once with every tick. If nothing keeps the service
from what there is to do, each tick is handled at the very time at which it is due. -/

namespace Modem.Signal.Timer

/-- What is expected of an interval at a rate: a tick that is handled on time leaves the schedule as
it is, and a late one starts it anew. -/
def Regular (rate : UInt32) : Prop :=
  ∀ timer : Timer, timer.rate = rate → ∀ now,
    (timer.ticked now).due =
      (if now ≤ timer.due + tolerance then timer.due else now) + timer.period

/-- Intervals are as expected up to thirty years. -/
theorem regular_iff {rate : UInt32} : Regular rate ↔ rate.toNat * 1000 ≤ reach := by
  constructor
  · intro regular
    have next := regular ⟨0, rate, 0⟩ rfl 0
    simp only [ticked, period, Nat.zero_le, if_true] at next
    omega
  · rintro inReach timer rfl now
    have shorter : timer.period ≤ reach := inReach
    by_cases onTime : now ≤ timer.due + tolerance
    · rw [due_ticked_of_le onTime shorter, if_pos onTime]
    · rw [due_ticked_of_lt (Nat.lt_of_not_le onTime) shorter, if_neg onTime]

/-- A tick is never due before the last one has been handled. -/
theorem le_due_ticked {timer : Timer} {now : Nat} (early : now ≤ timer.due) :
    now ≤ (timer.ticked now).due := by
  have onTime : now ≤ timer.due + tolerance := Nat.le_add_right_of_le early
  simp only [ticked, onTime, if_true]
  omega

end Modem.Signal.Timer

namespace Modem.Session

open Signal

/-- The service handles a tick. -/
def Move.isTick : Move → Bool
  | .take .tick => true
  | _ => false

theorem Move.isTick_eq_false {m : Move} (other : m ≠ .take .tick) : m.isTick = false := by
  cases m with
  | take occurrence =>
    cases occurrence with
    | tick => exact absurd rfl other
    | _ => rfl
  | _ => rfl

/-- How many ticks are handled in some moves. -/
def ticks (moves : List Move) : Nat := moves.countP Move.isTick

namespace Account

variable {config : Config} {supported : Bool} {stage : Stage} {a b : Account} {m : Move}
  {moves : List Move}

/-! ## The latest timer -/

/-- The timer with a number is running. -/
def Runs (a : Account) (number : Nat) : Prop :=
  a.service.interface.reporting.timer.map Timer.number = some number

/-- The timer that runs is the one started last. -/
theorem Reachable.number_eq (reachable : Reachable config supported stage a) {number : Nat}
    (runs : a.Runs number) : number + 1 = a.service.interface.reporting.timersStarted := by
  obtain ⟨timer, running, rfl⟩ := Option.map_eq_some_iff.1 runs
  exact reachable.ended.number_eq running

/-- A timer that runs has been running ever since it was started. -/
theorem Reachable.runs_of_afterAll (reachable : Reachable config supported stage a)
    (allowed : a.AllowsAll moves) {number : Nat}
    (old : number < a.service.interface.reporting.timersStarted)
    (runs : (a.afterAll moves).Runs number) : a.Runs number := by
  obtain ⟨timer, running, rfl⟩ := Option.map_eq_some_iff.1 runs
  obtain ⟨⟨same, shown, number, -⟩, -⟩ :=
    (run_afterAll allowed).kept_of_number reachable running old
  exact Option.map_eq_some_iff.2 ⟨same, shown, number⟩

/-! ## Ticks on time -/

/-- A tick is handled at most as late as does not move the schedule. -/
def Timely (a : Account) (m : Move) : Prop :=
  m = .take .tick → ∀ timer, a.service.interface.reporting.timer = some timer →
    a.service.now ≤ timer.due + Timer.tolerance

/-- A timer has started at a time, and has ticked so often since. -/
structure Paced (a : Account) (number : Nat) (rate : UInt32) (start queries ticks : Nat) :
    Prop where
  timer : a.service.interface.reporting.timer =
    some ⟨number, rate, start + (ticks + 1) * (rate.toNat * 1000)⟩
  queriesStarted : a.service.interface.reporting.queriesStarted = queries + 1 + ticks
  elapsed : start + ticks * (rate.toNat * 1000) ≤ a.service.now

section

variable {number start queries k : Nat} {rate : UInt32}

theorem Paced.runs (paced : a.Paced number rate start queries k) : a.Runs number := by
  rw [Runs, paced.timer]
  rfl

/-- Where time passes, no timer starts. -/
theorem Starts.now {d : Deed} {earlier : List Deed}
    (starts : Starts config supported stage a m d earlier) :
    (a.after m).service.now = a.service.now := by
  refine now_after ?_
  rintro time rfl
  exact absurd starts.timersStarted (Nat.ne_of_lt (Nat.lt_succ_self _))

theorem Starts.paced {d : Deed} {earlier : List Deed}
    (starts : Starts config supported stage a m d earlier) :
    (a.after m).Paced a.service.interface.reporting.timersStarted
      (a.after m).service.interface.status.rate a.service.now
      a.service.interface.reporting.queriesStarted 0 where
  timer := by
    rw [starts.timer, Nat.zero_add, Nat.one_mul]
    rfl
  queriesStarted := starts.queriesStarted
  elapsed := by simp [starts.now]

/-- As long as it is not replaced, a timer goes on ticking on schedule. -/
theorem Paced.after (paced : a.Paced number rate start queries k)
    (reachable : Reachable config supported stage a) (allowed : a.Allows m)
    (regular : Timer.Regular rate) (timely : a.Timely m) (lasts : (a.after m).Runs number) :
    (a.after m).Paced number rate start queries (k + m.isTick.toNat) := by
  have later := now_le_after a m
  cases reachable.timed allowed with
  | kept other timer timersStarted queriesStarted =>
    rw [Move.isTick_eq_false other]
    exact ⟨timer.trans paced.timer, queriesStarted.trans paced.queriesStarted,
      Nat.le_trans paced.elapsed later⟩
  | stopped other d earlier deeds idle off timer =>
    rw [Runs, timer] at lasts
    cases lasts
  | ticked timer tick running due reporting =>
    subst tick
    have same := Option.some.inj (running.symm.trans paced.timer)
    have next := regular timer (by rw [same]) a.service.now
    rw [if_pos (timely rfl timer running), same] at next
    rw [Reporting.tick_of_running running
      (reachable.ended.sound.supported (by simp [running]))] at reporting
    refine ⟨?_, ?_, ?_⟩
    · rw [reporting, same]
      have due_eq : (Timer.ticked ⟨number, rate, start + (k + 1) * (rate.toNat * 1000)⟩
          a.service.now).due = start + (k + 1 + 1) * (rate.toNat * 1000) := by
        rw [next, Timer.period, Nat.succ_mul (k + 1), Nat.add_assoc]
      exact congrArg (fun due => some (Timer.mk number rate due)) due_eq
    · rw [reporting]
      exact congrArg (· + 1) paced.queriesStarted
    · rw [same] at due
      exact Nat.le_trans due later
  | started d earlier other starts =>
    have same : number = a.service.interface.reporting.timersStarted := by
      rw [Runs, starts.timer] at lasts
      exact (Option.some.inj lasts).symm
    have latest := reachable.number_eq paced.runs
    omega

theorem Paced.afterAll (paced : a.Paced number rate start queries k)
    (reachable : Reachable config supported stage a) (allowed : a.AllowsAll moves)
    (regular : Timer.Regular rate) (timely : a.Always Timely moves)
    (lasts : (a.afterAll moves).Runs number) :
    (a.afterAll moves).Paced number rate start queries (k + ticks moves) := by
  induction moves generalizing a k with
  | nil => exact paced
  | cons m rest ih =>
    have moved := reachable.run (Run.refl.step allowed.1)
    have old : number < (a.after m).service.interface.reporting.timersStarted := by
      have latest := reachable.number_eq paced.runs
      have more := reachable.timersStarted_le allowed.1
      omega
    have next := paced.after reachable allowed.1 regular timely.1
      (moved.runs_of_afterAll allowed.2 old lasts)
    have counted : k + ticks (m :: rest) = k + m.isTick.toNat + ticks rest := by
      rw [ticks, ticks, List.countP_cons]
      cases m.isTick
      · simp
      · simp only [if_true, Bool.toNat_true]
        omega
    rw [counted]
    exact ih next moved allowed.2 timely.2 lasts

end

/-! ## The timer lasts -/

/-- A timer runs on as long as every deed that ends spares it. -/
theorem Reachable.runs_afterAll (reachable : Reachable config supported stage a)
    (allowed : a.AllowsAll moves) {timer : Timer}
    (running : a.service.interface.reporting.timer = some timer)
    (spared : ∀ later, (a.afterAll moves).ended = later ++ a.ended →
      ∀ d ∈ later, d.Spares timer.rate) : (a.afterAll moves).Runs timer.number := by
  obtain ⟨same, shown, number, -⟩ :=
    (run_afterAll allowed).kept_of_spared reachable running spared
  exact Option.map_eq_some_iff.2 ⟨same, shown, number⟩

/-! ## A service that is not blocked -/

/-- Time passes only while nothing is under way or ready, and no further than to the next time at
which something can be. -/
def Unblocked (a : Account) : Move → Prop
  | .pass time => a.service.work = none ∧ a.Prompt (.pass time)
  | _ => True

instance (a : Account) (m : Move) : Decidable (a.Unblocked m) :=
  match m with
  | .pass time => inferInstanceAs (Decidable (a.service.work = none ∧ a.Prompt (.pass time)))
  | .send .. | .surround _ | .close | .leave _ | .serve | .take _ =>
    inferInstanceAs (Decidable True)

theorem served_afterAll (served : a.service.stage ≠ .direct) (moves : List Move) :
    (a.afterAll moves).service.stage ≠ .direct := by
  induction moves generalizing a with
  | nil => exact served
  | cons m rest ih => exact ih (served_after served)

/-- No tick is late. -/
def Early (a : Account) : Prop :=
  ∀ timer, a.service.interface.reporting.timer = some timer → a.service.now ≤ timer.due

/-- A service stops with its interface, if it has ever been going. -/
theorem Reachable.still_of_stopped (reachable : Reachable config supported stage a)
    (stopped : a.service.stage = .stopped) : a.service.interface.reporting.timer = none := by
  induction reachable using Reachable.induct with
  | fresh surroundings _ => rfl
  | @step a m reachable allowed ih =>
    have kept (before : a.service.stage = .stopped) :
        (a.after m).service.interface.reporting.timer = none := by
      rcases reachable.goes allowed with ⟨-, same, -⟩ | ⟨occurrence, d, first, s, x, rfl, goes⟩
      · rw [same]
        exact ih before
      · exact absurd before (Service.going_of_mem_ready reachable.idle_of_stopped allowed)
    have shut {d : Deed} (moved : Reachable config supported stage (a.after m))
        (mem : d ∈ (a.after m).deeds) (close : d.purpose = .close)
        (idle : (a.after m).service.work = none) :
        (a.after m).service.interface.reporting.timer = none := by
      have owed := moved.requested.owed d mem
      rw [close] at owed
      have operation : d.operation = .serve .shutDown := by
        generalize d.operation = operation at owed
        cases owed
        rfl
      have history := moved.history idle
      exact (history.past (history.lifecycle_eq_shutDown_iff.2 ⟨d, mem, operation⟩)).still
    have moved := reachable.run (Run.refl.step allowed)
    cases m with
    | send caller request =>
      rw [after, Service.stage_send] at stopped
      exact kept stopped
    | serve =>
      simp only [after] at stopped
      split at stopped
      · cases stopped
      · exact kept stopped
    | take occurrence =>
      by_cases before : a.service.stage = .stopped
      · exact kept before
      have took := reachable.tracks.takes allowed
      generalize a.after (.take occurrence) = b at took stopped shut moved
      cases took with
      | moved s idle prepared => exact absurd (prepared.stage_eq.symm.trans stopped) before
      | began s t job world idle prepared calls performed =>
        rcases performed.stage_cases with same | ⟨close, -, work⟩
        · exact absurd (prepared.stage_eq.symm.trans (same.symm.trans stopped)) before
        · exact shut moved List.mem_cons_self close
            (work.trans (prepared.untouched.work.trans idle))
      | continued d earlier time t world w deeds busy calls performed =>
        rcases performed.stage_cases with same | ⟨close, -, work⟩
        · exact absurd (same.symm.trans stopped) before
        · exact shut moved List.mem_cons_self close work
    | _ => exact kept stopped

theorem Reachable.serving_of_running (reachable : Reachable config supported stage a)
    (served : a.service.stage ≠ .direct) {timer : Timer}
    (running : a.service.interface.reporting.timer = some timer) :
    a.service.stage = .serving := by
  cases here : a.service.stage with
  | direct => exact absurd here served
  | serving => rfl
  | stopped =>
    rw [reachable.still_of_stopped here] at running
    cases running

theorem quiet_of_serving {s : Service} (idle : s.work = none) (serving : s.stage = .serving)
    (quiet : s.ready = []) : s.readyTick = [] ∧ s.unbegun = [] := by
  simp only [Service.ready, idle, serving, List.append_eq_nil_iff] at quiet
  obtain ⟨⟨⟨-, tick⟩, loads⟩, -⟩ := quiet
  exact ⟨tick, (Service.readyLoads_eq_nil_iff.1 loads).1⟩

/-- While a service waits, it wakes for the next tick at the latest. -/
theorem le_due_of_unblocked {time : Nat} {timer : Timer} (serving : a.service.stage = .serving)
    (unblocked : a.Unblocked (.pass time))
    (running : a.service.interface.reporting.timer = some timer) :
    (a.after (.pass time)).service.now ≤ timer.due := by
  obtain ⟨idle, quiet, wakes⟩ := unblocked
  have undue := Service.readyTick_eq_nil_iff.1 (quiet_of_serving idle serving quiet).1 timer running
  have awake := (Service.le_of_early idle serving wakes).2.1 timer running
  exact Nat.max_le.2 ⟨Nat.le_of_lt undue, awake⟩

theorem Early.after (early : a.Early) (reachable : Reachable config supported stage a)
    (served : a.service.stage ≠ .direct) (allowed : a.Allows m) (unblocked : a.Unblocked m) :
    (a.after m).Early := by
  intro timer running
  by_cases passes : ∃ time, m = .pass time
  · obtain ⟨time, rfl⟩ := passes
    have before : a.service.interface.reporting.timer = some timer := running
    exact le_due_of_unblocked (reachable.serving_of_running served before) unblocked before
  · rw [now_after fun time same => passes ⟨time, same⟩]
    cases reachable.timed allowed with
    | kept other kept =>
      rw [kept] at running
      exact early timer running
    | stopped other d earlier deeds idle off none =>
      rw [none] at running
      cases running
    | ticked old tick ran due reporting =>
      rw [reporting, Reporting.timer_tick, ran] at running
      obtain rfl := Option.some.inj running
      exact Timer.le_due_ticked (early old ran)
    | started d earlier other starts =>
      obtain rfl := Option.some.inj (starts.timer.symm.trans running)
      exact Nat.le_add_right _ _

theorem Early.afterAll (early : a.Early) (reachable : Reachable config supported stage a)
    (served : a.service.stage ≠ .direct) (allowed : a.AllowsAll moves)
    (unblocked : a.Always Unblocked moves) : (a.afterAll moves).Early := by
  induction moves generalizing a with
  | nil => exact early
  | cons m rest ih =>
    exact ih (early.after reachable served allowed.1 unblocked.1)
      (reachable.run (Run.refl.step allowed.1)) (served_after served) allowed.2 unblocked.2

/-- A tick that is not late is handled when it is due. -/
theorem Early.now_eq (early : a.Early) (allowed : a.Allows (.take .tick)) {timer : Timer}
    (running : a.service.interface.reporting.timer = some timer) : a.service.now = timer.due := by
  obtain ⟨ticking, same, due⟩ := timer_of_tick allowed
  obtain rfl := Option.some.inj (same.symm.trans running)
  exact Nat.le_antisymm (early ticking running) due

theorem Early.timely (early : a.Early) (reachable : Reachable config supported stage a)
    (served : a.service.stage ≠ .direct) (allowed : a.AllowsAll moves)
    (unblocked : a.Always Unblocked moves) : a.Always Timely moves := by
  induction moves generalizing a with
  | nil => trivial
  | cons m rest ih =>
    refine ⟨fun tick timer running => Nat.le_add_right_of_le (early timer running), ?_⟩
    exact ih (early.after reachable served allowed.1 unblocked.1)
      (reachable.run (Run.refl.step allowed.1)) (served_after served) allowed.2 unblocked.2

/-! ## Cadence -/

/-- What has become of a timer that started at a time, when there had been so many queries, some
moves later. -/
structure KeepsCadence (b : Account) (number start period queries : Nat) (moves : List Move) :
    Prop where
  /-- At any time between, the next tick is due on schedule. -/
  due : ∀ first later, moves = first ++ later →
    ∃ timer, (b.afterAll first).service.interface.reporting.timer = some timer ∧
      timer.number = number ∧ timer.due = start + (ticks first + 1) * period
  /-- A tick launches one query. -/
  tick : ∀ first later, moves = first ++ .take .tick :: later →
    let before := (b.afterAll first).service.interface.reporting
    let after := ((b.afterAll first).after (.take .tick)).service.interface.reporting
    after.queriesStarted = before.queriesStarted + 1 ∧
      after.inFlight = before.inFlight ++ [⟨before.queriesStarted, before.generation⟩]
  /-- Nothing else launches any. -/
  other : ∀ first m later, moves = first ++ m :: later → m ≠ .take .tick →
    ((b.afterAll first).after m).service.interface.reporting.queriesStarted =
      (b.afterAll first).service.interface.reporting.queriesStarted
  /-- Once everything that was due has been handled, there has been one query at the start and one
  with each full period. -/
  total : (∀ timer, (b.afterAll moves).service.interface.reporting.timer = some timer →
      (b.afterAll moves).service.now < timer.due) →
    (b.afterAll moves).service.interface.reporting.queriesStarted =
      queries + (1 + ((b.afterAll moves).service.now - start) / period)

theorem Paced.keepsCadence {number start queries : Nat} {rate : UInt32}
    (paced : a.Paced number rate start queries 0)
    (reachable : Reachable config supported stage a) (allowed : a.AllowsAll moves)
    (regular : Timer.Regular rate) (timely : a.Always Timely moves)
    (lasts : (a.afterAll moves).Runs number) :
    KeepsCadence a number start (rate.toNat * 1000) queries moves := by
  have at_first : ∀ first later, moves = first ++ later →
      Reachable config supported stage (a.afterAll first) ∧
        (a.afterAll first).AllowsAll later ∧
        (a.afterAll first).Paced number rate start queries (ticks first) := by
    rintro first later rfl
    obtain ⟨possible, onward⟩ := allowsAll_append.1 allowed
    have run := run_afterAll possible
    have old : number < (a.afterAll first).service.interface.reporting.timersStarted := by
      have latest := reachable.number_eq paced.runs
      have more := run.timersStarted_le reachable
      omega
    rw [Account.afterAll, List.foldl_append] at lasts
    have here := (reachable.run run).runs_of_afterAll onward old lasts
    have next := paced.afterAll reachable possible regular (always_append.1 timely).1 here
    rw [Nat.zero_add] at next
    exact ⟨reachable.run run, onward, next⟩
  constructor
  · intro first later split
    obtain ⟨-, -, here⟩ := at_first first later split
    exact ⟨_, here.timer, rfl, rfl⟩
  · intro first later split
    obtain ⟨moved, -, here⟩ := at_first first _ split
    have supported := moved.ended.sound.supported (by simp [here.timer])
    have ticked : ((a.afterAll first).after (.take .tick)).service.interface.reporting =
        (a.afterAll first).service.interface.reporting.tick (a.afterAll first).service.now := rfl
    rw [ticked, Reporting.tick_of_running here.timer supported]
    exact ⟨rfl, rfl⟩
  · intro first m later split other
    obtain ⟨moved, onward, here⟩ := at_first first _ split
    obtain ⟨-, -, next⟩ := at_first (first ++ [m]) later (by rw [split, List.append_assoc]; rfl)
    have same : ticks (first ++ [m]) = ticks first := by
      simp [ticks, List.countP_append, Move.isTick_eq_false other]
    rw [Account.afterAll, List.foldl_append, same] at next
    exact next.queriesStarted.trans here.queriesStarted.symm
  · intro handled
    obtain ⟨-, -, here⟩ := at_first moves [] (List.append_nil moves).symm
    have undue := handled _ here.timer
    have elapsed := here.elapsed
    have periods :
        ((a.afterAll moves).service.now - start) / (rate.toNat * 1000) = ticks moves := by
      refine Nat.div_eq_of_lt_le ?_ ?_
      · omega
      · dsimp only at undue
        omega
    rw [here.queriesStarted, periods, Nat.add_assoc]

/-- From the start of a timer on, its ticks are due exactly one period after the other, and each
launches one query, as long as the timer is neither stopped nor replaced and no tick is late. No
request ends that unless it asks for the end of reporting, or with the modem far enough up for
another rate. A service that is not blocked handles each tick exactly when it is due, and each query
that has been launched reaches the device before any time passes. -/
theorem timer_keeps_cadence {d : Deed} {earlier : List Deed}
    (reachable : Reachable config supported stage a) (allowed : a.Allows m)
    (starts : Starts config supported stage a m d earlier)
    (regular : Timer.Regular (a.after m).service.interface.status.rate)
    (possible : (a.after m).AllowsAll moves) :
    let number := a.service.interface.reporting.timersStarted
    let rate := (a.after m).service.interface.status.rate
    ((∀ later, ((a.after m).afterAll moves).ended = later ++ (a.after m).ended →
        ∀ d ∈ later, d.Spares rate) → ((a.after m).afterAll moves).Runs number) ∧
    (((a.after m).afterAll moves).Runs number → (a.after m).Always Timely moves →
      KeepsCadence (a.after m) number a.service.now (rate.toNat * 1000)
        a.service.interface.reporting.queriesStarted moves) ∧
    (((a.after m).afterAll moves).Runs number → (a.after m).service.stage ≠ .direct →
      (a.after m).Always Unblocked moves → (a.after m).Always Timely moves ∧
        (∀ first later, moves = first ++ .take .tick :: later →
          ((a.after m).afterAll first).service.now =
            a.service.now + (ticks first + 1) * (rate.toNat * 1000)) ∧
        ∀ first time later, moves = first ++ .pass time :: later →
          ((a.after m).afterAll first).service.unbegun = []) := by
  intro number rate
  have moved := reachable.run (Run.refl.step allowed)
  refine ⟨?_, ?_, ?_⟩
  · intro spared
    exact moved.runs_afterAll possible starts.timer spared
  · intro lasts timely
    exact starts.paced.keepsCadence moved possible regular timely lasts
  · intro lasts served unblocked
    have early : (a.after m).Early := by
      intro timer running
      obtain rfl := Option.some.inj (starts.timer.symm.trans running)
      rw [starts.now]
      exact Nat.le_add_right _ _
    have timely := early.timely moved served possible unblocked
    have cadence := starts.paced.keepsCadence moved possible regular timely lasts
    have at_first : ∀ first later, moves = first ++ later →
        ((a.after m).afterAll first).Early ∧ ((a.after m).afterAll first).AllowsAll later := by
      rintro first later rfl
      obtain ⟨before, onward⟩ := allowsAll_append.1 possible
      exact ⟨early.afterAll moved served before (always_append.1 unblocked).1, onward⟩
    refine ⟨timely, ?_, ?_⟩
    · intro first later split
      obtain ⟨timer, running, -, due⟩ := cadence.due first _ split
      obtain ⟨here, onward⟩ := at_first first _ split
      rw [here.now_eq onward.1 running, due]
    · intro first time later split
      obtain ⟨timer, running, -⟩ := cadence.due first _ split
      subst split
      obtain ⟨before, -⟩ := allowsAll_append.1 possible
      obtain ⟨idle, quiet, -⟩ := (always_append.1 unblocked).2.1
      have serving := (moved.run (run_afterAll before)).serving_of_running
        (served_afterAll served first) running
      exact (quiet_of_serving idle serving quiet).2

/-- The timer is set up again, enabled and set up at another rate without success, the device is
slow and fails, and the modem falls before another rate is stored. Two ticks later there have been
three queries, at zero, two and four seconds. -/
theorem cadence_among_requests :
    let surroundings : Surroundings :=
      { obliging .enabled {} with
        device := fun _ => { delay := 300, result := .error (.failed "busy") }
        authorizer := fun _ who =>
          { refusal := if who.name = ":1.9" then some (.unauthorized "no") else none } }
    let a := (fresh {} true .serving surroundings).afterAll
      [.send 0 .bringUp, .take .request, .send 1 (.setup 2 ⟨":1.1"⟩), .take .request]
    let b := a.after (.take (.check 1))
    let first : List Move := [.take (.load ⟨0, 0⟩), .send 2 .enable, .take .request, .pass 300,
      .take (.load ⟨0, 0⟩), .send 3 (.setup 2 ⟨":1.1"⟩), .take .request, .take (.check 3),
      .send 4 (.setup 9 ⟨":1.9"⟩), .take .request, .take (.check 4), .pass 2000]
    let second : List Move := [.take (.load ⟨1, 0⟩),
      .surround { surroundings with modem := .disabled }, .send 5 (.setup 7 ⟨":1.1"⟩),
      .take .request, .take (.check 5), .pass 2300, .take (.load ⟨1, 0⟩), .pass 4000]
    let third : List Move := [.take (.load ⟨2, 0⟩), .pass 4300]
    let moves := first ++ .take .tick :: (second ++ .take .tick :: third)
    KeepsCadence b 0 0 2000 0 moves ∧
      (b.afterAll moves).service.interface.reporting.queriesStarted = 3 ∧
      (b.afterAll first).service.now = 2000 ∧
      (b.afterAll (first ++ .take .tick :: second)).service.now = 4000 := by
  intro surroundings a b first second third moves
  have reachable : Reachable {} true .serving a := reachable_afterAll rfl (by decide +kernel)
  have allowed : a.Allows (.take (.check 1)) := by decide +kernel
  obtain ⟨d, earlier, starts⟩ := reachable.starts_of_counted allowed (by decide +kernel)
  have number : a.service.interface.reporting.timersStarted = 0 := by decide +kernel
  have now : a.service.now = 0 := by decide +kernel
  have queries : a.service.interface.reporting.queriesStarted = 0 := by decide +kernel
  have rate : b.service.interface.status.rate = 2 := by decide +kernel
  have period : (2 : UInt32).toNat * 1000 = 2000 := by decide
  have regular : Timer.Regular b.service.interface.status.rate :=
    Timer.regular_iff.2 (by rw [rate]; decide)
  have possible : b.AllowsAll moves := by decide +kernel
  have unblocked : b.Always Unblocked moves := by decide +kernel
  have lasts : (b.afterAll moves).Runs 0 := by
    unfold Runs
    decide +kernel
  have cadence := timer_keeps_cadence reachable allowed starts regular possible
  dsimp only at cadence
  rw [number, now, rate, queries, period] at cadence
  obtain ⟨-, onTime, prompt⟩ := cadence
  obtain ⟨timely, exactly, -⟩ := prompt lasts (by decide +kernel) unblocked
  have cadence : KeepsCadence b 0 0 2000 0 moves := onTime lasts timely
  have last : (b.afterAll moves).service.interface.reporting.timer = some ⟨0, 2, 6000⟩ := by
    decide +kernel
  have ends : (b.afterAll moves).service.now = 4300 := by decide +kernel
  refine ⟨cadence, ?_, ?_, ?_⟩
  · have handled : ∀ timer, (b.afterAll moves).service.interface.reporting.timer = some timer →
        (b.afterAll moves).service.now < timer.due := by
      intro timer running
      obtain rfl := Option.some.inj (last.symm.trans running)
      rw [ends]
      decide
    have total := cadence.total handled
    rw [ends] at total
    exact total
  · exact (exactly first (second ++ .take .tick :: third) rfl).trans (by decide +kernel)
  · have split : moves = (first ++ .take .tick :: second) ++ .take .tick :: third :=
      (List.append_assoc first (.take .tick :: second) (.take .tick :: third)).symm
    exact (exactly _ third split).trans (by decide +kernel)

end Account

end Modem.Session
