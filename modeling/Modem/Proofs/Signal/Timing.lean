import Modem.Proofs.Signal.Change

/-! # What becomes of the timer

Between two operations a timer starts, stops, ticks, or is left alone. It starts in one way only: at
a rate that is not zero, for an enable or a granted Setup request that finds the modem far enough
up. Nothing is asked after the clock has been read for it, so it starts when the operation ends. -/

namespace Modem.Signal

open Exchange

/-! ## Reading the clock -/

/-- The clock is read, and from then on something is noted at most. -/
def ClockedAt (turns : List Turn) (now : Nat) : Prop :=
  ∃ (before : List Turn) (notes : List Note), turns = before ++ .clock now :: notes.map Turn.note

theorem ClockedAt.after {turns : List Turn} {now : Nat} (clocked : ClockedAt turns now)
    (first : List Turn) : ClockedAt (first ++ turns) now := by
  obtain ⟨before, notes, rfl⟩ := clocked
  exact ⟨first ++ before, notes, (List.append_assoc _ _ _).symm⟩

/-- The first state in which the modem is found is one of those in which it is found. -/
theorem mem_of_modem? {turns : List Turn} {state : State} (asked : modem? turns = some state) :
    .modem state ∈ turns := by
  obtain ⟨turn, mem, same⟩ := List.exists_of_findSome?_eq_some asked
  cases turn with
  | modem found =>
    obtain rfl := Option.some.inj same
    exact mem
  | _ => cases same

namespace Reporting

theorem launch_of_supported {r : Reporting} (supported : r.supported = true) :
    r.launch =
      { r with
        queriesStarted := r.queriesStarted + 1
        inFlight := r.inFlight ++ [⟨r.queriesStarted, r.generation⟩] } := by
  rw [launch, if_pos supported]

theorem started_of_supported {r : Reporting} (supported : r.supported = true) (now : Nat) :
    r.started now =
      { r with
        timer := some (Timer.start r.timersStarted r.rate now)
        timersStarted := r.timersStarted + 1
        queriesStarted := r.queriesStarted + 1
        inFlight := r.inFlight ++ [⟨r.queriesStarted, r.generation⟩] } := by
  rw [started]
  exact launch_of_supported supported

@[simp]
theorem timer_tick (r : Reporting) (now : Nat) :
    (r.tick now).timer = r.timer.map fun timer => timer.ticked now := by
  unfold tick
  split
  next none =>
    rw [none]
    rfl
  next timer running => simp [running]

@[simp]
theorem timersStarted_tick (r : Reporting) (now : Nat) :
    (r.tick now).timersStarted = r.timersStarted := by
  unfold tick
  split
  · rfl
  · simp

theorem tick_of_running {r : Reporting} {timer : Timer} (running : r.timer = some timer)
    (supported : r.supported = true) (now : Nat) :
    r.tick now =
      { r with
        timer := some (timer.ticked now)
        queriesStarted := r.queriesStarted + 1
        inFlight := r.inFlight ++ [⟨r.queriesStarted, r.generation⟩] } := by
  rw [tick, running]
  exact launch_of_supported supported

theorem always_startTimer_clocked (r : Reporting) :
    r.startTimer.Always fun turns s => ∃ now, ClockedAt turns now ∧ s = r.started now := by
  refine always_bind (always_clock fun now => always_done ?_)
  exact always_bind (always_log (always_pure ⟨now, ⟨[], [_], rfl⟩, rfl⟩))

theorem schedule_of_wantsTimer {r : Reporting} {modem : State}
    (wanted : r.wantsTimer modem = true) : r.schedule modem = r.startTimer := by
  simp only [wantsTimer, Bool.and_eq_true, decide_eq_true_eq] at wanted
  obtain ⟨⟨⟨on, allowed⟩, supported⟩, other⟩ := wanted
  unfold schedule
  rw [if_neg on, if_neg (by simp [allowed]), if_neg (by simp [supported]), if_neg other]

theorem scheduled_of_wantsTimer {r : Reporting} {modem : State}
    (wanted : r.wantsTimer modem = true) (now : Nat) : r.scheduled modem now = r.started now := by
  have on : r.rate ≠ 0 := by
    intro off
    simp [wantsTimer, off] at wanted
  rw [scheduled, if_neg on, if_pos wanted]

theorem always_schedule_clocked (r : Reporting) (modem : State) :
    (r.schedule modem).Always fun turns s =>
      ∃ now, (r.wantsTimer modem = true → ClockedAt turns now) ∧ s = r.scheduled modem now := by
  by_cases wanted : r.wantsTimer modem = true
  · rw [schedule_of_wantsTimer wanted]
    refine (always_startTimer_clocked r).mono fun turns s started => ?_
    obtain ⟨now, clocked, rfl⟩ := started
    exact ⟨now, fun _ => clocked, (scheduled_of_wantsTimer wanted now).symm⟩
  · refine (always_schedule r modem).mono fun turns s ends => ?_
    obtain ⟨⟨now, rfl⟩, -⟩ := ends
    exact ⟨now, fun wants => absurd wants wanted, rfl⟩

theorem always_setRate_clocked (r : Reporting) (rate : UInt32) (modem : State) :
    (r.setRate rate modem).Always fun turns s =>
      ∃ now, ({ r with rate }.wantsTimer modem = true → ClockedAt turns now) ∧
        s = { r with rate }.scheduled modem now := by
  have clocked (first : List Turn) :
      ({ r with rate }.schedule modem).Always fun turns s =>
        ∃ now, ({ r with rate }.wantsTimer modem = true → ClockedAt (first ++ turns) now) ∧
          s = { r with rate }.scheduled modem now := by
    refine (always_schedule_clocked _ modem).mono fun turns s ends => ?_
    obtain ⟨now, read, same⟩ := ends
    exact ⟨now, fun wanted => (read wanted).after first, same⟩
  unfold setRate
  dsimp only
  split
  · refine always_bind (always_attempt ?_ fun fault line => ?_)
    · exact clocked [.call (.setRate rate) none]
    · exact clocked [.call (.setRate rate) (some fault), .note (.line line)]
  · exact clocked []

/-! ## Timers -/

/-- The rate at which an operation would have the timer run: the stored one, or the one granted. -/
def requested? (r : Reporting) (turns : List Turn) : Operation → Option UInt32
  | .serve .enable => some r.rate
  | operation => operation.granted? turns

theorem requested?_of_ne {r : Reporting} {turns : List Turn} {operation : Operation}
    (enable : operation ≠ .serve .enable) :
    r.requested? turns operation = operation.granted? turns := by
  unfold requested?
  split
  · exact absurd rfl enable
  · rfl

/-- What becomes of the timer when an operation ends after some turns. -/
inductive Timed (r : Reporting) (turns : List Turn) (operation : Operation) : Reporting → Prop
  | kept {s : Reporting} (timer : s.timer = r.timer)
      (timersStarted : s.timersStarted = r.timersStarted)
      (queriesStarted : s.queriesStarted = r.queriesStarted) : Timed r turns operation s
  | stopped {s : Reporting}
      (off : operation = .serve .disable ∨ operation = .serve .shutDown ∨
        r.requested? turns operation = some 0)
      (timer : s.timer = none) (timersStarted : s.timersStarted = r.timersStarted)
      (queriesStarted : s.queriesStarted = r.queriesStarted) : Timed r turns operation s
  | ticked (timer : Timer) (now : Nat) (tick : operation = .tick) (running : r.timer = some timer)
      (clocked : ClockedAt turns now) :
      Timed r turns operation (launch { r with timer := some (timer.ticked now) })
  /-- The rate is in store when the operation ends. -/
  | started (rate : UInt32) (state : State) (now : Nat)
      (requested : r.requested? turns operation = some rate) (on : rate ≠ 0)
      (other : r.timer.map Timer.rate ≠ some rate) (attached : r.attached = true)
      (supported : r.supported = true) (asked : modem? turns = some state)
      (allowed : state.isEnablingOrLater = true) (clocked : ClockedAt turns now) :
      Timed r turns operation ({ r with rate }.started now)

/-- Bringing the timer in line with a rate that has been granted, or is in store. -/
theorem timed_scheduled {r : Reporting} {turns : List Turn} {operation : Operation} {rate : UInt32}
    {state : State} {now : Nat}
    (requested : r.requested? turns operation = some rate)
    (attached : r.attached = true) (asked : modem? turns = some state)
    (clocked : { r with rate }.wantsTimer state = true → ClockedAt turns now) :
    r.Timed turns operation ({ r with rate }.scheduled state now) := by
  by_cases wanted : { r with rate }.wantsTimer state = true
  · rw [scheduled_of_wantsTimer wanted]
    have read := clocked wanted
    simp only [wantsTimer, Bool.and_eq_true, decide_eq_true_eq] at wanted
    obtain ⟨⟨⟨on, allowed⟩, supported⟩, other⟩ := wanted
    exact .started rate state now requested on other attached supported asked allowed read
  · rw [scheduled, if_neg wanted]
    split
    next off =>
      have zero : rate = 0 := off
      exact .stopped (.inr (.inr (zero ▸ requested))) rfl rfl rfl
    · exact .kept rfl rfl rfl

end Reporting

/-! ## Every end of an operation -/

namespace Interface

/-- Where nothing is scheduled and nothing ticks, the timer is stopped or left alone. -/
theorem timed_of_effect {i : Interface} {turns : List Turn} {operation : Operation}
    {result : Interface × Answer} (effect : Effect i turns operation result)
    (idle : operation ≠ .tick) (enable : operation ≠ .serve .enable)
    (granted : operation.granted? turns = none) :
    i.reporting.Timed turns operation result.1.reporting := by
  cases effect with
  | bringUp fault =>
    rw [reporting_broughtUp]
    split
    · exact .kept rfl rfl rfl
    · exact .kept rfl rfl rfl
  | enable => exact absurd rfl enable
  | disable =>
    rw [reporting_disabled]
    split
    · exact .kept rfl rfl rfl
    · exact .stopped (.inl rfl) rfl rfl rfl
  | shutDown =>
    rw [reporting_shut]
    split
    · exact .kept rfl rfl rfl
    · exact .stopped (.inr (.inl rfl)) rfl rfl rfl
  | refuse | status | reject => exact .kept rfl rfl rfl
  | setup rate who state now told => simp [Operation.granted?, told] at granted
  | grant => cases granted
  | tick => exact absurd rfl idle
  | loaded query result => exact .kept (by simp) (by simp) (by simp)

theorem always_enable_timed (i : Interface) :
    i.enable.Always fun turns result =>
      i.reporting.Timed turns (.serve .enable) result.1.reporting := by
  unfold enable
  split
  · exact always_pure (.kept rfl rfl rfl)
  · split
    · exact always_pure (.kept rfl rfl rfl)
    next attached =>
      have here : i.reporting.attached = true := by simpa using attached
      refine always_bind (always_modem fun state => always_done ?_)
      refine always_bind ((Reporting.always_schedule_clocked _ state).mono fun turns r ends => ?_)
      obtain ⟨now, clocked, rfl⟩ := ends
      refine always_pure ?_
      refine Reporting.timed_scheduled rfl here rfl fun wanted => ?_
      simpa using (clocked wanted).after [.modem state]

/-- The turns before are those of the authorization. -/
theorem always_setup_timed (i : Interface) (rate : UInt32) {operation : Operation}
    (first : List Turn) (unasked : modem? first = none)
    (granted : ∀ r turns, Reporting.requested? r (first ++ turns) operation = some rate) :
    (i.setup rate).Always fun turns result =>
      i.reporting.Timed (first ++ turns) operation result.1.reporting := by
  unfold setup
  split
  · exact always_pure (.kept rfl rfl rfl)
  next attached =>
    have here : i.reporting.attached = true := by simpa using attached
    refine always_bind (always_modem fun state => always_done ?_)
    refine always_bind (always_log ?_)
    refine always_bind ((Reporting.always_setRate_clocked _ rate state).mono fun turns r ends => ?_)
    obtain ⟨now, clocked, rfl⟩ := ends
    refine always_pure ?_
    refine Reporting.timed_scheduled (granted _ _) here ?_ fun wanted => ?_
    · rw [modem?, List.findSome?_append, ← modem?, unasked]
      rfl
    · rw [List.append_nil]
      exact (((clocked wanted).after _).after [.modem state]).after first

theorem always_tick_timed (i : Interface) :
    (i.carryOut .tick).Always fun turns result =>
      i.reporting.Timed turns .tick result.1.reporting := by
  refine always_bind (always_clock fun now => always_done (always_pure ?_))
  simp only [tick, Reporting.tick]
  split
  · exact .kept rfl rfl rfl
  next timer running => exact .ticked timer now rfl running ⟨[], [], rfl⟩

/-- However an operation ends, one of these things becomes of the timer. -/
theorem always_timed (i : Interface) (operation : Operation) :
    (i.carryOut operation).Always fun turns result =>
      i.reporting.Timed turns operation result.1.reporting := by
  have others (idle : operation ≠ .tick) (enable : operation ≠ .serve .enable)
      (granted : ∀ turns, operation.granted? turns = none) :
      (i.carryOut operation).Always fun turns result =>
        i.reporting.Timed turns operation result.1.reporting :=
    (always_carryOut i operation).mono fun turns result ends =>
      timed_of_effect ends.1 idle enable (granted turns)
  cases operation with
  | serve request =>
    cases request with
    | enable => exact always_enable_timed i
    | setup rate who =>
      refine always_authorize fun refusal => ?_
      cases refusal with
      | some fault => exact always_pure (.kept rfl rfl rfl)
      | none => exact always_setup_timed i rate [.authorize who none] rfl fun _ _ => rfl
    | _ => exact others nofun nofun fun _ => rfl
  | conclude rate refusal =>
    cases refusal with
    | some fault => exact others nofun nofun fun _ => rfl
    | none => exact always_setup_timed i rate [] rfl fun _ _ => rfl
  | tick => exact always_tick_timed i
  | loaded query result => exact others nofun nofun fun _ => rfl

end Interface

end Modem.Signal
