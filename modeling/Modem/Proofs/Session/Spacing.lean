import Mathlib.Data.List.Chain
import Modem.Proofs.Session.Cadence

/-! # How close ticks come

A service that is blocked handles ticks late, and for as long and as often as it is blocked. Even so
a timer ticks neither before it is due nor, but for the tolerance, sooner than a period after its
last tick, so the ticks that have been missed are never made up. -/

namespace Modem.Signal.Timer

/-- However late a tick is handled, the next one is a period off, but for the tolerance. -/
theorem Regular.add_period_le {timer : Timer} (regular : Regular timer.rate) (now : Nat) :
    now + timer.period ≤ (timer.ticked now).due + tolerance := by
  rw [regular timer rfl now]
  split <;> omega

end Modem.Signal.Timer

namespace Modem.Session

open Signal

theorem Move.eq_take_tick {m : Move} (tick : m.isTick = true) : m = .take .tick :=
  Classical.byContradiction fun other => by simp [Move.isTick_eq_false other] at tick

/-! ## Instants apart -/

/-- Between two bounds, there is room for few instants that are a gap apart. -/
theorem length_mul_le_of_pairwise {gap low high : Nat} {times : List Nat}
    (apart : times.Pairwise fun earlier later => earlier + gap ≤ later)
    (within : ∀ time ∈ times, low ≤ time ∧ time ≤ high) :
    times.length * gap ≤ high + gap - low := by
  induction times generalizing low with
  | nil => simp
  | cons first rest ih =>
    obtain ⟨after, apart⟩ := List.pairwise_cons.1 apart
    obtain ⟨lower, upper⟩ := within first List.mem_cons_self
    have later : ∀ time ∈ rest, first + gap ≤ time ∧ time ≤ high := fun time mem =>
      ⟨after time mem, (within time (List.mem_cons_of_mem first mem)).2⟩
    have room := ih apart later
    rw [List.length_cons, Nat.succ_mul]
    omega

/-- In a window of a length, there are few instants of which each is a gap after the one before. -/
theorem countP_le_of_isChain {gap : Nat} {times : List Nat} (positive : 0 < gap)
    (apart : times.IsChain fun earlier later => earlier + gap ≤ later) (start length : Nat) :
    times.countP (fun time => start ≤ time ∧ time ≤ start + length) ≤ 1 + length / gap := by
  have : Trans (fun s t : Nat => s + gap ≤ t) (fun s t => s + gap ≤ t) (fun s t => s + gap ≤ t) :=
    ⟨fun first second => by omega⟩
  have inside : ∀ time ∈ times.filter (fun time => start ≤ time ∧ time ≤ start + length),
      start ≤ time ∧ time ≤ start + length :=
    fun time mem => of_decide_eq_true (List.mem_filter.1 mem).2
  have room := length_mul_le_of_pairwise (apart.pairwise.filter _) inside
  have whole : start + length + gap - start = length + gap := by omega
  rw [List.countP_eq_length_filter, Nat.add_comm 1, ← Nat.add_div_right length positive]
  exact (Nat.le_div_iff_mul_le positive).2 (whole ▸ room)

namespace Account

variable {config : Config} {supported : Bool} {stage : Stage} {a b : Account} {m : Move}
  {moves : List Move} {number time : Nat} {rate : UInt32}

/-! ## The ticks of one timer -/

instance (a : Account) (number : Nat) : Decidable (a.Runs number) :=
  inferInstanceAs (Decidable (_ = some number))

/-- The times at which ticks of a timer are handled. -/
def tickTimes (number : Nat) (a : Account) : List Move → List Nat
  | [] => []
  | m :: rest =>
    if m.isTick = true ∧ a.Runs number then
      a.service.now :: (a.after m).tickTimes number rest
    else (a.after m).tickTimes number rest

/-- A timer is what it was before a move, unless that was its tick or has started it. -/
theorem Reachable.timer_of_after (reachable : Reachable config supported stage a)
    (allowed : a.Allows m) (old : number < a.service.interface.reporting.timersStarted)
    (other : ¬(m.isTick = true ∧ a.Runs number)) {timer : Timer}
    (running : (a.after m).service.interface.reporting.timer = some timer)
    (same : timer.number = number) : a.service.interface.reporting.timer = some timer := by
  cases reachable.timed allowed with
  | kept _ kept => exact kept.symm.trans running
  | stopped _ d earlier deeds idle off none =>
    rw [none] at running
    cases running
  | ticked before tick ran due reporting =>
    rw [reporting, Reporting.timer_tick, ran] at running
    obtain rfl := Option.some.inj running
    subst tick
    have runs : a.Runs number := by
      rw [Runs, ran, ← same]
      rfl
    exact absurd ⟨rfl, runs⟩ other
  | started d earlier _ starts =>
    obtain rfl := Option.some.inj (starts.timer.symm.trans running)
    have new : a.service.interface.reporting.timersStarted = number := same
    omega

/-- As long as it does not tick, a timer stays as it is. -/
theorem Reachable.timer_of_afterAll (reachable : Reachable config supported stage a)
    (allowed : a.AllowsAll moves) (old : number < a.service.interface.reporting.timersStarted)
    (quiet : ticks moves = 0) {timer : Timer}
    (running : (a.afterAll moves).service.interface.reporting.timer = some timer)
    (same : timer.number = number) : a.service.interface.reporting.timer = some timer := by
  induction moves generalizing a with
  | nil => exact running
  | cons m rest ih =>
    rw [ticks, List.countP_eq_zero] at quiet
    have older := Nat.lt_of_lt_of_le old (reachable.timersStarted_le allowed.1)
    have still : ticks rest = 0 :=
      List.countP_eq_zero.2 fun n mem => quiet n (List.mem_cons_of_mem m mem)
    have next := ih (reachable.run (Run.refl.step allowed.1)) allowed.2 older still running
    exact reachable.timer_of_after allowed.1 old
      (fun tick => quiet m List.mem_cons_self tick.1) next same

/-! ## Late ticks -/

/-- If the timer with a number runs, its next tick is not due before a time. -/
def Pending (a : Account) (number : Nat) (rate : UInt32) (time : Nat) : Prop :=
  ∀ timer, a.service.interface.reporting.timer = some timer → timer.number = number →
    timer.rate = rate ∧ time ≤ timer.due

theorem Pending.after (pending : a.Pending number rate time)
    (reachable : Reachable config supported stage a) (allowed : a.Allows m)
    (old : number < a.service.interface.reporting.timersStarted)
    (other : ¬(m.isTick = true ∧ a.Runs number)) : (a.after m).Pending number rate time := by
  intro timer running same
  exact pending timer (reachable.timer_of_after allowed old other running same) same

theorem timer_after_tick {timer : Timer}
    (running : a.service.interface.reporting.timer = some timer) :
    (a.after (.take .tick)).service.interface.reporting.timer =
      some (timer.ticked a.service.now) := by
  refine (Reporting.timer_tick _ _).trans ?_
  rw [running]
  rfl

/-- A tick is not handled before it is due, and the next one is due a period later, but for the
tolerance. -/
theorem Pending.tick (pending : a.Pending number rate time) (allowed : a.Allows (.take .tick))
    (runs : a.Runs number) (regular : Timer.Regular rate) :
    time ≤ a.service.now ∧ (a.after (.take .tick)).Pending number rate
      (a.service.now + rate.toNat * 1000 - Timer.tolerance) := by
  obtain ⟨timer, running, due⟩ := timer_of_tick allowed
  have same : timer.number = number := by
    rw [Runs, running] at runs
    exact Option.some.inj runs
  obtain ⟨rfl, later⟩ := pending timer running same
  refine ⟨Nat.le_trans later due, fun next runs _ => ?_⟩
  obtain rfl := Option.some.inj ((timer_after_tick running).symm.trans runs)
  exact ⟨rfl, Nat.sub_le_of_le_add (regular.add_period_le a.service.now)⟩

/-- The rate of a timer does not change. -/
theorem Pending.afterAll (pending : a.Pending number rate time)
    (reachable : Reachable config supported stage a) (allowed : a.AllowsAll moves)
    (old : number < a.service.interface.reporting.timersStarted) (regular : Timer.Regular rate) :
    ∃ later, (a.afterAll moves).Pending number rate later := by
  induction moves generalizing a time with
  | nil => exact ⟨time, pending⟩
  | cons m rest ih =>
    have moved := reachable.run (Run.refl.step allowed.1)
    have older := Nat.lt_of_lt_of_le old (reachable.timersStarted_le allowed.1)
    by_cases tick : m.isTick = true ∧ a.Runs number
    · obtain rfl := Move.eq_take_tick tick.1
      obtain ⟨-, next⟩ := pending.tick allowed.1 tick.2 regular
      exact ih next moved allowed.2 older
    · exact ih (pending.after reachable allowed.1 old tick) moved allowed.2 older

/-- The next tick of a timer is handled when it is due at the earliest, and each further one at
least a period after the one before, but for the tolerance. -/
theorem Pending.isChain (pending : a.Pending number rate time)
    (reachable : Reachable config supported stage a) (allowed : a.AllowsAll moves)
    (old : number < a.service.interface.reporting.timersStarted) (regular : Timer.Regular rate) :
    (∀ first ∈ (a.tickTimes number moves).head?, time ≤ first) ∧
      (a.tickTimes number moves).IsChain fun earlier later =>
        earlier + rate.toNat * 1000 ≤ later + Timer.tolerance := by
  induction moves generalizing a time with
  | nil => exact ⟨nofun, .nil⟩
  | cons m rest ih =>
    have moved := reachable.run (Run.refl.step allowed.1)
    have older := Nat.lt_of_lt_of_le old (reachable.timersStarted_le allowed.1)
    unfold tickTimes
    split
    next tick =>
      obtain rfl := Move.eq_take_tick tick.1
      obtain ⟨here, next⟩ := pending.tick allowed.1 tick.2 regular
      obtain ⟨later, apart⟩ := ih next moved allowed.2 older
      refine ⟨fun first mem => ?_, apart.cons fun second mem => ?_⟩
      · obtain rfl := Option.some.inj mem
        exact here
      · exact Nat.le_add_of_sub_le (later second mem)
    next other =>
      exact ih (pending.after reachable allowed.1 old other) moved allowed.2 older

/-! ## No bursts -/

/-- What has become of a timer that started at a time, some moves later. -/
structure KeepsDistance (b : Account) (number start period : Nat) (moves : List Move) : Prop where
  /-- No tick is handled before it is due, and each launches one query. -/
  tick : ∀ first later, moves = first ++ .take .tick :: later → (b.afterAll first).Runs number →
    (∃ timer, (b.afterAll first).service.interface.reporting.timer = some timer ∧
      timer.due ≤ (b.afterAll first).service.now) ∧
    ((b.afterAll first).after (.take .tick)).service.interface.reporting.queriesStarted =
      (b.afterAll first).service.interface.reporting.queriesStarted + 1
  first : ∀ time ∈ (b.tickTimes number moves).head?, start + period ≤ time
  /-- Of two ticks in a row, the second is handled a period after the first one, but for the
  tolerance. -/
  apart : (b.tickTimes number moves).IsChain fun earlier later =>
    earlier + period ≤ later + Timer.tolerance
  /-- After a tick that is handled too late to keep the schedule, the next one is due exactly one
  period later, as long as the timer runs. -/
  late : ∀ first between later, moves = first ++ .take .tick :: (between ++ later) →
    ticks between = 0 → ∀ timer,
      (b.afterAll first).service.interface.reporting.timer = some timer →
      timer.number = number → timer.due + Timer.tolerance < (b.afterAll first).service.now →
      ∀ next, (b.afterAll (first ++ .take .tick :: between)).service.interface.reporting.timer =
        some next → next.number = number → next.due = (b.afterAll first).service.now + period
  /-- In no window of time are there more ticks than have room there. -/
  window : ∀ opening length, (b.tickTimes number moves).countP
      (fun time => opening ≤ time ∧ time ≤ opening + length) ≤
    1 + length / (period - Timer.tolerance)

/-- However long and however often a service is blocked, the ticks of a timer come no closer than a
period, but for the tolerance, and the ones that are missed are never made up. -/
theorem missed_ticks_are_lost {d : Deed} {earlier : List Deed}
    (reachable : Reachable config supported stage a) (allowed : a.Allows m)
    (starts : Starts config supported stage a m d earlier)
    (regular : Timer.Regular (a.after m).service.interface.status.rate)
    (possible : (a.after m).AllowsAll moves) :
    KeepsDistance (a.after m) a.service.interface.reporting.timersStarted a.service.now
      ((a.after m).service.interface.status.rate.toNat * 1000) moves := by
  have moved := reachable.run (Run.refl.step allowed)
  have old : a.service.interface.reporting.timersStarted <
      (a.after m).service.interface.reporting.timersStarted := by
    rw [starts.timersStarted]
    exact Nat.lt_succ_self _
  have pending : (a.after m).Pending a.service.interface.reporting.timersStarted
      (a.after m).service.interface.status.rate
      (a.service.now + (a.after m).service.interface.status.rate.toNat * 1000) := by
    intro timer running _
    obtain rfl := Option.some.inj (starts.timer.symm.trans running)
    exact ⟨rfl, Nat.le_refl _⟩
  obtain ⟨first, apart⟩ := pending.isChain moved possible old regular
  have at_first : ∀ first later, moves = first ++ later →
      Reachable config supported stage ((a.after m).afterAll first) ∧
        ((a.after m).afterAll first).AllowsAll later ∧
        a.service.interface.reporting.timersStarted <
          ((a.after m).afterAll first).service.interface.reporting.timersStarted := by
    rintro first later rfl
    obtain ⟨before, onward⟩ := allowsAll_append.1 possible
    have run := run_afterAll before
    exact ⟨moved.run run, onward, Nat.lt_of_lt_of_le old (run.timersStarted_le moved)⟩
  have positive : 0 < (a.after m).service.interface.status.rate.toNat :=
    (moved.ended.admits starts.timer).rate
  have apart_gap :
      0 < (a.after m).service.interface.status.rate.toNat * 1000 - Timer.tolerance := by
    simp only [Timer.tolerance]
    omega
  refine ⟨?_, first, apart, ?_, ?_⟩
  · intro first later split runs
    obtain ⟨there, onward, -⟩ := at_first first _ split
    obtain ⟨timer, running, due⟩ := timer_of_tick onward.1
    refine ⟨⟨timer, running, due⟩, ?_⟩
    have supported := there.ended.sound.supported (by simp [running])
    have ticked := Reporting.tick_of_running running supported
      ((a.after m).afterAll first).service.now
    exact congrArg Reporting.queriesStarted ticked
  · intro first between later split quiet timer running same late next runs still
    obtain ⟨there, onward, older⟩ := at_first first _ split
    obtain ⟨before, -⟩ := allowsAll_append.1 (split ▸ possible)
    obtain ⟨_, pending⟩ := pending.afterAll moved before old regular
    obtain ⟨rate, -⟩ := pending timer running same
    have kept := (there.run (Run.refl.step onward.1)).timer_of_afterAll
      (allowsAll_append.1 onward.2).1
      (Nat.lt_of_lt_of_le older (there.timersStarted_le onward.1)) quiet
      (by rwa [Account.afterAll, List.foldl_append] at runs) still
    obtain rfl := Option.some.inj ((timer_after_tick running).symm.trans kept)
    rw [← rate] at regular ⊢
    rw [regular timer rfl, if_neg (Nat.not_le.2 late)]
    rfl
  · intro opening length
    refine countP_le_of_isChain apart_gap (apart.imp fun earlier later close => ?_) opening length
    omega

/-- The first snapshot keeps the bus busy for more than three periods, and the second one for a bit
longer than one. Of the first four ticks only one is left, which moves the schedule; the next one is
within the tolerance and does not. -/
theorem ticks_of_busy_bus :
    let surroundings : Surroundings :=
      { obliging .enabled {} with
        bus := fun n _ => { delay := if n = 4 then 3400 else if n = 5 then 1003 else 0 } }
    let a := (fresh {} true .serving surroundings).afterAll
      [.send 0 .bringUp, .take .request, .send 1 (.setup 1 ⟨":1.1"⟩), .take .request]
    let b := a.after (.take (.check 1))
    let first : List Move := [.take (.load ⟨0, 0⟩), .pass 3400, .take .resume]
    let between : List Move := [.take (.load ⟨1, 0⟩), .pass 4403, .take .resume]
    let later : List Move := [.take .tick, .take (.load ⟨2, 0⟩), .pass 5400, .take .tick]
    let moves := first ++ .take .tick :: (between ++ later)
    KeepsDistance b 0 0 1000 moves ∧ b.tickTimes 0 moves = [3400, 4403, 5400] ∧
      (b.afterAll (first ++ .take .tick :: between)).service.interface.reporting.timer =
        some ⟨0, 1, 4400⟩ := by
  intro surroundings a b first between later moves
  have reachable : Reachable {} true .serving a := reachable_afterAll rfl (by decide +kernel)
  have allowed : a.Allows (.take (.check 1)) := by decide +kernel
  obtain ⟨d, earlier, starts⟩ := reachable.starts_of_counted allowed (by decide +kernel)
  have number : a.service.interface.reporting.timersStarted = 0 := by decide +kernel
  have now : a.service.now = 0 := by decide +kernel
  have rate : b.service.interface.status.rate = 1 := by decide +kernel
  have period : (1 : UInt32).toNat * 1000 = 1000 := by decide
  have regular : Timer.Regular b.service.interface.status.rate :=
    Timer.regular_iff.2 (by rw [rate]; decide)
  have possible : b.AllowsAll moves := by decide +kernel
  have distance := missed_ticks_are_lost reachable allowed starts regular possible
  rw [number, now, rate, period] at distance
  exact ⟨distance, by decide +kernel, by decide +kernel⟩

end Account

end Modem.Session
