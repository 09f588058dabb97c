import Modem.Proofs.Session.Answers
import Modem.Proofs.Session.Timers
import Modem.Proofs.Signal.Starts

/-! # Timers by number

Timers are numbered as they start, and the timer that runs is the one that has started last. A timer
keeps its number and its rate exactly as long as no deed asks for an end of reporting or, with the
modem far enough up, for another rate. -/

namespace Modem.Session

open Signal

/-! ## Starts of timers -/

namespace Deed

variable {d : Deed} {i : Interface} {answer : Answer}

/-- The deed starts a timer. -/
def starts (d : Deed) : Bool := d.found.startsBy d.turns d.operation

/-- The timer that a deed starts. -/
def started? (d : Deed) : Option Timer :=
  if d.starts then d.left?.bind fun left => left.reporting.timer else none

theorem counts (ended : d.rest = .done (i, answer)) (sound : d.found.reporting.Sound) :
    d.found.Counts d.turns d.operation i.reporting :=
  (effect ended).1.counts sound.supported

theorem timersStarted (ended : d.rest = .done (i, answer)) (sound : d.found.reporting.Sound) :
    i.reporting.timersStarted = d.found.reporting.timersStarted + d.starts.toNat :=
  (counts ended sound).timersStarted

theorem identity (ended : d.rest = .done (i, answer)) (sound : d.found.reporting.Sound) :
    i.reporting.timer.map Timer.identity =
      if d.tearsDown then none
      else if d.starts then
        some (d.found.reporting.timersStarted, d.found.rateBy d.turns d.operation)
      else d.found.reporting.timer.map Timer.identity :=
  (counts ended sound).identity

theorem started?_of_starts (ended : d.rest = .done (i, answer)) (sound : d.found.reporting.Sound)
    (starts : d.starts = true) :
    ∃ timer, i.reporting.timer = some timer ∧ d.started? = some timer ∧
      timer.identity = (d.found.reporting.timersStarted, d.found.rateBy d.turns d.operation) := by
  have standing : d.tearsDown = false := Interface.standing_of_startsBy starts
  have identity := identity ended sound
  rw [standing, if_neg Bool.false_ne_true, if_pos starts] at identity
  obtain ⟨timer, running, same⟩ := Option.map_eq_some_iff.1 identity
  refine ⟨timer, running, ?_, same⟩
  rw [started?, if_pos starts, left?_of_ended ended]
  exact running

end Deed

/-- The timers that have started, the latest first. -/
def started (deeds : List Deed) : List Timer := deeds.filterMap Deed.started?

theorem started_cons_of_started {d : Deed} {earlier : List Deed} {timer : Timer}
    (begun : d.started? = some timer) : started (d :: earlier) = timer :: started earlier :=
  List.filterMap_cons_some begun

theorem started_cons_of_not_starts {d : Deed} {earlier : List Deed} (starts : d.starts = false) :
    started (d :: earlier) = started earlier :=
  List.filterMap_cons_none (by simp [Deed.started?, starts])

namespace History

variable {config : Config} {supported : Bool} {deeds : List Deed} {last : Interface}
  {timer : Timer}

theorem timersStarted (history : History (.fresh config supported) deeds last) :
    last.reporting.timersStarted = deeds.countP Deed.starts := by
  induction history with
  | nil => rfl
  | @cons earlier d i answer before expected ended ih =>
    rw [Deed.timersStarted ended before.sound, ih, List.countP_cons]
    cases d.starts <;> rfl

/-- Timers are numbered from zero in the order in which they start. -/
theorem numbers_started (history : History (.fresh config supported) deeds last) :
    (started deeds).map Timer.number = (List.range last.reporting.timersStarted).reverse := by
  induction history with
  | nil => rfl
  | @cons earlier d i answer before expected ended ih =>
    rw [Deed.timersStarted ended before.sound]
    cases starts : d.starts with
    | true =>
      obtain ⟨timer, -, begun, identity⟩ := Deed.started?_of_starts ended before.sound starts
      have number : timer.number = d.found.reporting.timersStarted := congrArg Prod.fst identity
      rw [started_cons_of_started begun, List.map_cons, ih, number, Bool.toNat_true,
        List.range_succ, List.reverse_append]
      rfl
    | false =>
      rw [started_cons_of_not_starts starts, ih]
      rfl

/-- The timer that runs is the one that has started last. -/
theorem latest_started (history : History (.fresh config supported) deeds last)
    (running : last.reporting.timer = some timer) :
    (started deeds).head?.map Timer.identity = some timer.identity := by
  induction history generalizing timer with
  | nil => cases running
  | @cons earlier d i answer before expected ended ih =>
    cases starts : d.starts with
    | true =>
      obtain ⟨latest, runs, begun, -⟩ := Deed.started?_of_starts ended before.sound starts
      obtain rfl := Option.some.inj (runs.symm.trans running)
      rw [started_cons_of_started begun]
      rfl
    | false =>
      have identity := Deed.identity ended before.sound
      rw [running, starts] at identity
      split at identity
      · cases identity
      · obtain ⟨old, ran, kept⟩ := Option.map_eq_some_iff.1 identity.symm
        rw [started_cons_of_not_starts starts, ih ran, kept]

theorem number_eq (history : History (.fresh config supported) deeds last)
    (running : last.reporting.timer = some timer) :
    timer.number + 1 = last.reporting.timersStarted := by
  have latest := congrArg (Option.map Prod.fst) (history.latest_started running)
  have number : ((started deeds).map Timer.number).head? = some timer.number := by
    rw [Option.map_map] at latest
    rw [List.head?_map]
    exact latest
  rw [history.numbers_started, List.head?_reverse, List.getLast?_range] at number
  split at number
  · cases number
  · have last := Option.some.inj number
    omega

end History

/-! ## Deeds that leave a timer alone -/

/-- The deed asks neither for the end of reporting nor, with the modem far enough up, for another
rate. -/
def Deed.Spares (d : Deed) (rate : UInt32) : Prop :=
  d.operation ≠ .serve .disable ∧ d.operation ≠ .serve .shutDown ∧
  ∀ requested, d.found.reporting.requested? d.turns d.operation = some requested →
    requested ≠ 0 ∧ (requested = rate ∨ ∀ state, modem? d.turns = some state → state.code < 5)

theorem Deed.Spares.goes_on {d : Deed} {rate : UInt32} (spares : d.Spares rate) :
    ¬(d.operation = .serve .disable ∨ d.operation = .serve .shutDown ∨
      d.found.reporting.requested? d.turns d.operation = some 0) := by
  obtain ⟨enabled, alive, rates⟩ := spares
  rintro (disable | shutDown | zero)
  · exact enabled disable
  · exact alive shutDown
  · exact (rates 0 zero).1 rfl

/-- A deed leaves a timer alone if and only if it spares it. -/
theorem Deed.spares_iff {d : Deed} {timer : Timer} (running : d.found.reporting.timer = some timer)
    (admits : Admits d.found timer) :
    d.Spares timer.rate ↔ d.tearsDown = false ∧ d.starts = false := by
  have alive : d.found.lifecycle ≠ .shutDown := by
    rcases admits.lifecycle with same | same | same <;> rw [same] <;> decide
  have torn : d.tearsDown = true ↔ _ :=
    Interface.tornDownBy_iff admits.attached admits.supported alive
  have starts : d.starts = true ↔ _ :=
    Interface.startsBy_iff admits.attached admits.supported
  rw [← Bool.not_eq_true, ← Bool.not_eq_true, torn, starts, running]
  constructor
  · intro spares
    refine ⟨spares.goes_on, ?_⟩
    rintro ⟨rate, requested, far, on, other⟩
    obtain ⟨state, asked, enough⟩ := (Option.any_eq_true _ _).1 far
    rcases (spares.2.2 rate requested).2 with same | low
    · exact other (congrArg some same.symm)
    · exact Int32.not_le.2 (low state asked) (of_decide_eq_true enough)
  · rintro ⟨kept, unstarted⟩
    refine ⟨fun disable => kept (.inl disable), fun shutDown => kept (.inr (.inl shutDown)), ?_⟩
    intro rate requested
    have on : rate ≠ 0 := by
      rintro rfl
      exact kept (.inr (.inr requested))
    refine ⟨on, or_iff_not_imp_left.2 fun other state asked => ?_⟩
    by_contra enough
    refine unstarted ⟨rate, requested, ?_, on, fun same => other (Option.some.inj same).symm⟩
    rw [asked]
    exact decide_eq_true (Int32.not_lt.1 enough)

namespace History

variable {config : Config} {supported : Bool} {earlier later : List Deed} {i last : Interface}
  {timer : Timer}

theorem timersStarted_le (whole : History (.fresh config supported) (later ++ earlier) last)
    (here : History (.fresh config supported) earlier i) :
    i.reporting.timersStarted ≤ last.reporting.timersStarted := by
  rw [here.timersStarted, whole.timersStarted, List.countP_append]
  exact Nat.le_add_left _ _

/-- A timer whose number was given earlier has been running since, and nothing has asked for
anything else. -/
theorem kept_of_number (whole : History (.fresh config supported) (later ++ earlier) last)
    (here : History (.fresh config supported) earlier i)
    (running : last.reporting.timer = some timer)
    (given : timer.number < i.reporting.timersStarted) :
    i.reporting.timer.map Timer.identity = some timer.identity ∧
      ∀ d ∈ later, d.Spares timer.rate := by
  induction later generalizing last timer with
  | nil =>
    obtain rfl := whole.unique here
    exact ⟨by rw [running]; rfl, fun d mem => absurd mem List.not_mem_nil⟩
  | cons d rest ih =>
    cases whole with
    | @cons _ _ _ answer before expected ended =>
      have more := History.timersStarted_le before here
      have identity := Deed.identity ended before.sound
      rw [running] at identity
      split at identity
      next torn => cases identity
      next standing =>
        split at identity
        next starts =>
          have number : timer.number = d.found.reporting.timersStarted :=
            congrArg Prod.fst (Option.some.inj identity)
          exact absurd given (Nat.not_lt.2 (number ▸ more))
        next idle =>
          obtain ⟨old, ran, kept⟩ := Option.map_eq_some_iff.1 identity.symm
          obtain ⟨number, rate⟩ := Timer.identity_eq_iff.1 kept
          obtain ⟨since, spared⟩ := ih before ran (number ▸ given)
          refine ⟨since.trans (congrArg some kept), List.forall_mem_cons.2 ⟨?_, rate ▸ spared⟩⟩
          rw [← rate, Deed.spares_iff ran (before.admits ran)]
          exact ⟨by simpa using standing, by simpa using idle⟩

/-- A timer goes on running as long as nothing asks for anything else. -/
theorem kept_of_spared (whole : History (.fresh config supported) (later ++ earlier) last)
    (here : History (.fresh config supported) earlier i)
    (running : i.reporting.timer = some timer) (spared : ∀ d ∈ later, d.Spares timer.rate) :
    last.reporting.timer.map Timer.identity = some timer.identity := by
  induction later generalizing last with
  | nil =>
    obtain rfl := whole.unique here
    rw [running]
    rfl
  | cons d rest ih =>
    rw [List.forall_mem_cons] at spared
    cases whole with
    | @cons _ _ _ answer before expected ended =>
      have same := ih before spared.2
      obtain ⟨old, ran, kept⟩ := Option.map_eq_some_iff.1 same
      have spares : d.Spares old.rate := (Timer.identity_eq_iff.1 kept).2 ▸ spared.1
      obtain ⟨standing, idle⟩ := (Deed.spares_iff ran (before.admits ran)).1 spares
      rw [Deed.identity ended before.sound, standing, idle]
      exact same

end History

namespace Account

variable {config : Config} {supported : Bool} {stage : Stage} {a b : Account} {m : Move}

/-! ## Timers of a run -/

theorem Run.timersStarted_le (run : Run a b) (reachable : Reachable config supported stage a) :
    a.service.interface.reporting.timersStarted ≤
      b.service.interface.reporting.timersStarted := by
  obtain ⟨later, -, ended, -⟩ := run.ended reachable.tracks
  exact History.timersStarted_le (ended ▸ (reachable.run run).ended) reachable.ended

theorem Reachable.timersStarted_le (reachable : Reachable config supported stage a)
    (allowed : a.Allows m) :
    a.service.interface.reporting.timersStarted ≤
      (a.after m).service.interface.reporting.timersStarted :=
  (Run.refl.step allowed).timersStarted_le reachable

/-- A number that is shown late enough has been shown since. -/
theorem Run.kept_of_number {u : Timer} (run : Run a b)
    (reachable : Reachable config supported stage a)
    (shown : b.service.interface.status.timer = some u)
    (given : u.number < a.service.interface.reporting.timersStarted) :
    (∃ v, a.service.interface.status.timer = some v ∧ v.number = u.number ∧ v.rate = u.rate) ∧
      ∀ later, b.ended = later ++ a.ended → ∀ d ∈ later, d.Spares u.rate := by
  have kept {later : List Deed} (ended : b.ended = later ++ a.ended) :=
    History.kept_of_number (ended ▸ (reachable.run run).ended) reachable.ended shown given
  obtain ⟨later, -, ended, -⟩ := run.ended reachable.tracks
  obtain ⟨v, running, same⟩ := Option.map_eq_some_iff.1 (kept ended).1
  exact ⟨⟨v, running, Timer.identity_eq_iff.1 same⟩, fun later ended => (kept ended).2⟩

/-- A timer runs on as long as every deed that ends spares it. -/
theorem Run.kept_of_spared {t : Timer} (run : Run a b)
    (reachable : Reachable config supported stage a)
    (shown : a.service.interface.status.timer = some t)
    (spared : ∀ later, b.ended = later ++ a.ended → ∀ d ∈ later, d.Spares t.rate) :
    ∃ v, b.service.interface.status.timer = some v ∧ v.number = t.number ∧ v.rate = t.rate := by
  obtain ⟨later, -, ended, -⟩ := run.ended reachable.tracks
  have whole : History (.fresh config supported) (later ++ a.ended) b.service.interface :=
    ended ▸ (reachable.run run).ended
  obtain ⟨v, running, same⟩ :=
    Option.map_eq_some_iff.1 (whole.kept_of_spared reachable.ended shown (spared later ended))
  exact ⟨v, running, Timer.identity_eq_iff.1 same⟩

end Account

end Modem.Session
