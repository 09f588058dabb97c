import Modem.Proofs.Session.Burden
import Modem.Proofs.Session.Scripts
import Modem.Proofs.Session.Tally

/-! # Enough moves

A script lets time pass move by move, and there is a bound on the number of its moves. Every move of
a run makes smaller what is left to do, so a script that stops before the bound has stopped because
there was enough, or because nothing more happens in time. -/

namespace Modem.Session

open Signal

/-- Between operations, each query under way is so once. -/
theorem History.numbered {config : Config} {supported : Bool} {deeds : List Deed}
    {last : Interface} (history : History (.fresh config supported) deeds last) :
    last.reporting.Numbered := by
  refine history.invariant Reporting.Numbered (Reporting.numbered_initial _ _) ?_
  intro r s answered numbered becomes
  cases answered with
  | none => exact becomes.launches.numbered numbered
  | some query =>
    cases becomes with
    | received _ result =>
      exact numbered.erase (Reporting.inFlight_received r query result)
        (Reporting.queriesStarted_received r query result)

namespace Account

variable {config : Config} {supported : Bool} {stage : Stage} {a : Account}
  {occurrence : Service.Occurrence}

/-! ## What is less -/

/-- A tick is due no longer once it has been handled, and nothing else makes one due. -/
theorem Reachable.lag_take (reachable : Reachable config supported stage a)
    (ready : occurrence ∈ a.service.ready) :
    (a.service.take occurrence).lag ≤ a.service.lag ∧
      (occurrence = .tick → (a.service.take occurrence).lag = 0 ∧ a.service.lag = 3) := by
  have allowed : a.Allows (.take occurrence) := ready
  have now : (a.service.take occurrence).now = a.service.now := a.service.now_take occurrence
  have on (timer : Timer)
      (running : (a.after (.take occurrence)).service.interface.reporting.timer = some timer) :
      timer.rate ≠ 0 :=
    (reachable.run (Run.refl.step allowed)).ended.timer_on running
  cases reachable.timed allowed with
  | kept other timer =>
    have same : (a.service.take occurrence).lag = a.service.lag := Service.lag_congr timer now
    exact ⟨Nat.le_of_eq same, fun tick => absurd (congrArg Move.take tick) other⟩
  | stopped other d earlier deeds idle off timer =>
    have gone : (a.service.take occurrence).lag = 0 :=
      Service.lag_of_early fun running here => by cases timer.symm.trans here
    exact ⟨gone ▸ Nat.zero_le _, fun tick => absurd (congrArg Move.take tick) other⟩
  | ticked timer tick running due reporting =>
    have next : (a.after (.take occurrence)).service.interface.reporting.timer =
        some (timer.ticked a.service.now) := by
      rw [reporting, Reporting.timer_tick, running]
      rfl
    have later := Timer.lt_due_ticked (on _ next) due
    have early : (a.service.take occurrence).lag = 0 := Service.lag_of_early fun other here => by
      obtain rfl := Option.some.inj (next.symm.trans here)
      rwa [now]
    have late := Service.lag_of_due running due
    exact ⟨early ▸ Nat.zero_le _, fun _ => ⟨early, late⟩⟩
  | started d earlier other starts =>
    have early : (a.service.take occurrence).lag = 0 := Service.lag_of_early fun timer here => by
      obtain rfl := Option.some.inj (starts.timer.symm.trans here)
      have positive := Timer.period_pos (on _ starts.timer)
      rw [now, Timer.due_start]
      omega
    exact ⟨early ▸ Nat.zero_le _, fun tick => absurd (congrArg Move.take tick) other⟩

theorem Reachable.idle_queries (reachable : Reachable config supported stage a)
    (idle : a.service.work = none) : a.service.Queries where
  numbered := reachable.ended.numbered
  asked l mem := reachable.tracks.begun l mem _ a.service.holds_interface
  work work busy := by cases idle.symm.trans busy

/-- Whatever ends, it launches one query at the most. -/
theorem Reachable.flights_of_ends (reachable : Reachable config supported stage a)
    (ready : occurrence ∈ a.service.ready)
    (loads : (a.service.take occurrence).loads = a.service.loads) :
    (a.service.take occurrence).flights ≤ a.service.flights + 2 := by
  have allowed : a.Allows (.take occurrence) := ready
  rcases reachable.ends allowed with ⟨same, -⟩ | ⟨d, answer, -, found, expected, left⟩
  · have kept : (a.service.take occurrence).flights = a.service.flights := by
      have interface : (a.service.take occurrence).interface = a.service.interface := same
      rw [Service.flights, Service.flights, Service.unbegun, Service.unbegun, interface, loads]
    omega
  · have becomes := Deed.becomes left expected
    rw [found] at becomes
    cases answered : d.operation.answered? with
    | none =>
      rw [answered] at becomes
      exact Service.flights_of_becomes becomes loads
    | some query =>
      rw [answered] at becomes
      have pending : query ∈ a.service.interface.reporting.inFlight := by
        rw [← found]
        exact expected query answered
      have inFlight : (a.service.take occurrence).interface.reporting.inFlight =
          a.service.interface.reporting.inFlight.erase query := by
        change (a.after (.take occurrence)).service.interface.reporting.inFlight = _
        generalize (a.after (.take occurrence)).service.interface.reporting = r at becomes
        cases becomes with
        | received => exact Reporting.inFlight_received ..
      have waiting : (a.service.take occurrence).unbegun.length ≤ a.service.unbegun.length := by
        rw [Service.unbegun, Service.unbegun, inFlight, loads]
        exact (List.erase_sublist.filter _).length_le
      have fewer := Service.flights_of_received pending inFlight waiting
      omega

/-- What goes on ends, or waits for a later time. -/
theorem Reachable.resume_halts (reachable : Reachable config supported stage a)
    (ready : .resume ∈ a.service.ready) :
    (a.service.take .resume).stir + (a.service.take .resume).flights <
      a.service.stir + a.service.flights := by
  obtain ⟨work, busy⟩ := Service.busy_of_resume_mem_ready ready
  have due : work.time ≤ a.service.now := by
    cases Service.ready_of_mem ready with
    | resume other here due => exact Option.some.inj (busy.symm.trans here) ▸ due
  have goes : a.service.take .resume =
      { a.service with work := none }.perform work.purpose work.rest := by
    simp only [Service.take, busy]
  have loads : (a.service.take .resume).loads = a.service.loads := by
    rw [goes, (Service.performed _ _ _).loads_eq]
  rw [Service.stir_of_due busy due]
  rcases { a.service with work := none }.perform_halts rfl work.purpose work.rest with
    still | ⟨same, later, waits, -, time⟩
  · rw [← goes] at still
    rw [Service.stir_of_idle still]
    have few := reachable.flights_of_ends ready loads
    omega
  · rw [← goes] at same waits time
    rw [Service.stir_of_waiting waits time]
    have kept : (a.service.take .resume).flights = a.service.flights := by
      rw [Service.flights, Service.flights, Service.unbegun, Service.unbegun, same, loads]
    omega

/-- Whatever is taken up, there is less left to do. -/
theorem Reachable.effort_take (reachable : Reachable config supported stage a)
    (attends : a.service.Attends) (ready : occurrence ∈ a.service.ready) (limit : Nat) :
    (a.service.take occurrence).effort limit < a.service.effort limit := by
  obtain ⟨lag, ticks⟩ := reachable.lag_take ready
  have now := a.service.now_take occurrence
  suffices less : (occurrence ≠ .tick → (a.service.take occurrence).burden < a.service.burden) ∧
      (a.service.take occurrence).burden ≤ a.service.burden + 2 by
    rw [Service.effort, Service.effort, now]
    by_cases tick : occurrence = .tick
    · have due := ticks tick
      omega
    · have fewer := less.1 tick
      omega
  by_cases resume : occurrence = .resume
  · subst resume
    have stirs := reachable.resume_halts ready
    obtain ⟨queue, checks⟩ := Service.performed_resume ready
    have fewer : (a.service.take .resume).burden < a.service.burden := by
      rw [Service.burden, Service.burden, queue, Service.doubt, Service.doubt, checks]
      omega
    exact ⟨fun _ => fewer, by omega⟩
  · have idle := Service.idle_of_mem_ready ready resume
    have prepares := attends.prepares ready resume
    rcases prepared : a.service.prepare occurrence with ⟨t, job⟩
    rw [prepared] at prepares
    rw [Service.take_of_prepare resume prepared]
    cases job with
    | none =>
      have fewer := prepares.burden_lt
      exact ⟨fun _ => fewer, Nat.le_of_lt (Nat.lt_add_right 2 fewer)⟩
    | some job => exact prepares.burden_carryOut_lt idle (reachable.idle_queries idle)

/-! ## What a script lets happen -/

/-- With enough moves, a script goes on until there is enough, or until nothing more happens in
time. What each thing keeps that comes next, it keeps. -/
theorem goes_on {P : Account → Prop} (enough : Service → Bool) (limit : Nat)
    (fits : ∀ {a}, P a → Reachable config supported stage a ∧ a.service.Attends)
    (takes : ∀ {a occurrence rest}, P a → enough a.service = false →
      a.service.ready = occurrence :: rest → P (a.after (.take occurrence)))
    (passes : ∀ {a time}, P a → enough a.service = false → a.service.ready = [] →
      a.service.wake? = some time → time ≤ limit → P (a.after (.pass time)))
    {n : Nat} (here : P a) (moves : a.service.effort limit ≤ n) :
    ∃ b, Run a b ∧ b.service = a.service.advance enough limit n ∧ b.sent = a.sent ∧ P b ∧
      (enough b.service = true ∨ b.service.Stalled limit) := by
  have taken {a : Account} {occurrence : Service.Occurrence} {rest : List Service.Occurrence}
      (here : P a) (ready : a.service.ready = occurrence :: rest) :
      (a.service.take occurrence).effort limit < a.service.effort limit :=
    (fits here).1.effort_take (fits here).2 (by rw [ready]; exact List.mem_cons_self) limit
  have moved {a : Account} {time : Nat} (quiet : a.service.ready = [])
      (wakes : a.service.wake? = some time) (within : time ≤ limit) :
      (a.after (.pass time)).service.effort limit < a.service.effort limit :=
    Service.effort_moveTo (Service.now_lt_wake quiet wakes) within
  -- At least as many moves are left as there is left to do, so none are left only where nothing is.
  induction n generalizing a with
  | zero =>
    have quiet : a.service.ready = [] := by
      cases ready : a.service.ready with
      | nil => rfl
      | cons occurrence rest => exact absurd (taken here ready) (by omega)
    refine ⟨a, .refl, rfl, rfl, here, .inr ⟨quiet, fun time wakes => ?_⟩⟩
    exact Nat.lt_of_not_le fun within => absurd (moved quiet wakes within) (by omega)
  | succ n ih =>
    unfold Service.advance
    cases more : enough a.service with
    | true => exact ⟨a, .refl, by simp, rfl, here, .inl more⟩
    | false =>
      cases ready : a.service.ready with
      | cons occurrence rest =>
        have less := taken here ready
        have allowed : a.Allows (.take occurrence) := by
          change occurrence ∈ a.service.ready
          rw [ready]
          exact List.mem_cons_self
        obtain ⟨b, run, there, sent, holds, stops⟩ :=
          ih (takes here more ready) (Nat.le_of_lt_succ (Nat.lt_of_lt_of_le less moves))
        exact ⟨b, (Run.refl.step allowed).trans run, there, sent, holds, stops⟩
      | nil =>
        have still (late : ∀ time, a.service.wake? = some time → limit < time) :
            ∃ b, Run a b ∧ b.service = a.service ∧ b.sent = a.sent ∧ P b ∧
              (enough b.service = true ∨ b.service.Stalled limit) :=
          ⟨a, .refl, rfl, rfl, here, .inr ⟨ready, late⟩⟩
        cases wakes : a.service.wake? with
        | none => exact still (by simp [wakes])
        | some time =>
          by_cases within : time ≤ limit
          · have less := moved ready wakes within
            have first : Run a (a.after (.pass time)) := Run.refl.step trivial
            obtain ⟨b, run, there, sent, holds, stops⟩ :=
              ih (passes here more ready wakes within)
                (Nat.le_of_lt_succ (Nat.lt_of_lt_of_le less moves))
            refine ⟨b, first.trans run, ?_, sent, holds, stops⟩
            simp only [Bool.false_eq_true, if_false, if_pos within]
            exact there
          · simpa [within] using still (by simpa [wakes] using Nat.lt_of_not_le within)

end Account

end Modem.Session
