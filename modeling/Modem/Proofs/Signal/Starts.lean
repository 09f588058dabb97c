import Modem.Proofs.Signal.Timing
import Modem.Proofs.Signal.Written

/-! # Starts of timers

Whether an operation starts a timer is settled by what it finds and is told. Timers and queries are
counted by these starts and by the ticks, and a timer keeps its number and its rate until something
is torn down or another one starts. -/

namespace Modem.Signal

/-- What a timer keeps as it ticks. -/
def Timer.identity (timer : Timer) : Nat × UInt32 := (timer.number, timer.rate)

theorem Timer.identity_eq_iff {t u : Timer} :
    t.identity = u.identity ↔ t.number = u.number ∧ t.rate = u.rate := by
  simp [identity]

@[simp]
theorem Timer.identity_ticked (timer : Timer) (now : Nat) :
    (timer.ticked now).identity = timer.identity := rfl

namespace Interface

variable (i : Interface) (turns : List Turn)

/-- The rate that is in store when an operation ends. -/
def rateBy (operation : Operation) : UInt32 :=
  (i.storedBy turns operation).getD i.reporting.rate

/-- Whether an operation starts a timer: it brings the timer in line with a rate that is not zero,
the device can be queried, and there is no timer at that rate. -/
def startsBy (operation : Operation) : Bool :=
  i.alignedBy turns operation && i.reporting.supported && i.rateBy turns operation ≠ 0 &&
    i.reporting.timer.map Timer.rate ≠ some (i.rateBy turns operation)

/-- Whether an operation is the tick of a timer. -/
def ticksBy : Operation → Bool
  | .tick => i.reporting.timer.isSome
  | _ => false

/-- What is counted, and which timer is left. -/
structure Counts (operation : Operation) (r : Reporting) : Prop where
  timersStarted : r.timersStarted = i.reporting.timersStarted + (i.startsBy turns operation).toNat
  queriesStarted : r.queriesStarted = i.reporting.queriesStarted +
    (i.startsBy turns operation).toNat + (i.ticksBy operation).toNat
  identity : r.timer.map Timer.identity =
    if i.tornDownBy turns operation then none
    else if i.startsBy turns operation then
      some (i.reporting.timersStarted, i.rateBy turns operation)
    else i.reporting.timer.map Timer.identity

section

variable {i turns} {operation : Operation} {r : Reporting}

theorem ne_of_granted {rate : UInt32} {request : Operation}
    (granted : operation.granted? turns = some rate)
    (ungranted : request.granted? turns = none) : operation ≠ request := by
  rintro rfl
  rw [granted] at ungranted
  cases ungranted

@[simp]
theorem rateBy_enable : i.rateBy turns (.serve .enable) = i.reporting.rate := by
  simp [rateBy, storedBy, Operation.granted?]

theorem alignedBy_eq_of_ne (enable : operation ≠ .serve .enable) :
    i.alignedBy turns operation =
      ((i.storedBy turns operation).isSome && (modem? turns).any State.isEnablingOrLater) := by
  unfold alignedBy
  split
  · exact absurd rfl enable
  · rfl

theorem alignedBy_eq_false (ungranted : operation.granted? turns = none)
    (enable : operation ≠ .serve .enable) : i.alignedBy turns operation = false := by
  simp [alignedBy_eq_of_ne enable, storedBy, ungranted]

theorem tornDownBy_eq_of_ne (enable : operation ≠ .serve .enable)
    (disable : operation ≠ .serve .disable) (shutDown : operation ≠ .serve .shutDown) :
    i.tornDownBy turns operation =
      (i.reporting.attached && decide (operation.granted? turns = some 0)) := by
  unfold tornDownBy
  split
  · exact absurd rfl disable
  · exact absurd rfl shutDown
  · exact absurd rfl enable
  · rfl

theorem startsBy_of_unaligned (unaligned : i.alignedBy turns operation = false) :
    i.startsBy turns operation = false := by
  simp [startsBy, unaligned]

/-- Nothing is torn down where a timer starts. -/
theorem standing_of_startsBy (starts : i.startsBy turns operation = true) :
    i.tornDownBy turns operation = false := by
  simp only [startsBy, Bool.and_eq_true, decide_eq_true_eq] at starts
  obtain ⟨⟨⟨aligned, -⟩, on⟩, -⟩ := starts
  by_cases enable : operation = .serve .enable
  · subst enable
    rw [rateBy_enable] at on
    simp [tornDownBy, on]
  · rw [alignedBy_eq_of_ne enable, Bool.and_eq_true] at aligned
    obtain ⟨rate, stored⟩ := Option.isSome_iff_exists.1 aligned.1
    rw [rateBy, stored] at on
    have granted := granted?_of_stored stored
    have on : rate ≠ 0 := on
    simp [tornDownBy_eq_of_ne enable (ne_of_granted granted rfl) (ne_of_granted granted rfl),
      granted, on]

section

variable {rate : UInt32}

theorem rateBy_of_requested (attached : i.reporting.attached = true)
    (requested : i.reporting.requested? turns operation = some rate) :
    i.rateBy turns operation = rate := by
  by_cases enable : operation = .serve .enable
  · subst enable
    rw [rateBy_enable]
    exact Option.some.inj requested
  · have granted : operation.granted? turns = some rate := by
      rwa [Reporting.requested?_of_ne enable] at requested
    simp [rateBy, storedBy, attached, granted]

theorem alignedBy_of_requested (attached : i.reporting.attached = true)
    (supported : i.reporting.supported = true)
    (requested : i.reporting.requested? turns operation = some rate) :
    i.alignedBy turns operation = (modem? turns).any State.isEnablingOrLater := by
  by_cases enable : operation = .serve .enable
  · subst enable
    simp [alignedBy, canEnable, supported, attached]
  · rw [Reporting.requested?_of_ne enable] at requested
    simp [alignedBy_eq_of_ne enable, storedBy, attached, requested]

/-- Where there is a timer, what is asked of it settles whether an operation stops it. -/
theorem tornDownBy_iff (attached : i.reporting.attached = true)
    (supported : i.reporting.supported = true) (alive : i.lifecycle ≠ .shutDown) :
    i.tornDownBy turns operation = true ↔
      operation = .serve .disable ∨ operation = .serve .shutDown ∨
        i.reporting.requested? turns operation = some 0 := by
  by_cases enable : operation = .serve .enable
  · subst enable
    simp [tornDownBy, canEnable, supported, attached, Reporting.requested?]
  · by_cases disable : operation = .serve .disable
    · simp [disable, tornDownBy, alive]
    · by_cases shutDown : operation = .serve .shutDown
      · simp [shutDown, tornDownBy, alive]
      · simp [tornDownBy_eq_of_ne enable disable shutDown, attached, disable, shutDown,
          Reporting.requested?_of_ne enable]

/-- Where the device can be queried, a timer starts at the rate that is asked for, as far as the
modem allows, if no timer runs at that rate. -/
theorem startsBy_iff (attached : i.reporting.attached = true)
    (supported : i.reporting.supported = true) :
    i.startsBy turns operation = true ↔
      ∃ rate, i.reporting.requested? turns operation = some rate ∧
        (modem? turns).any State.isEnablingOrLater = true ∧ rate ≠ 0 ∧
        i.reporting.timer.map Timer.rate ≠ some rate := by
  cases requested : i.reporting.requested? turns operation with
  | none =>
    have enable : operation ≠ .serve .enable := by
      rintro rfl
      cases requested
    rw [Reporting.requested?_of_ne enable] at requested
    simp [startsBy_of_unaligned (alignedBy_eq_false requested enable)]
  | some rate =>
    have rate_eq := rateBy_of_requested attached requested
    have aligned := alignedBy_of_requested attached supported requested
    simp [startsBy, rate_eq, aligned, supported, and_assoc]

end

theorem counts_of_kept (unaligned : i.alignedBy turns operation = false)
    (standing : i.tornDownBy turns operation = false) (tickless : i.ticksBy operation = false)
    (timer : r.timer = i.reporting.timer)
    (timersStarted : r.timersStarted = i.reporting.timersStarted)
    (queriesStarted : r.queriesStarted = i.reporting.queriesStarted) :
    i.Counts turns operation r := by
  have starts := startsBy_of_unaligned unaligned
  constructor
  · simp [starts, timersStarted]
  · simp [starts, tickless, queriesStarted]
  · simp [starts, standing, timer]

theorem counts_of_torn (unaligned : i.alignedBy turns operation = false)
    (torn : i.tornDownBy turns operation = true) (tickless : i.ticksBy operation = false)
    (timer : r.timer = none)
    (timersStarted : r.timersStarted = i.reporting.timersStarted)
    (queriesStarted : r.queriesStarted = i.reporting.queriesStarted) :
    i.Counts turns operation r := by
  have starts := startsBy_of_unaligned unaligned
  constructor
  · simp [starts, timersStarted]
  · simp [starts, tickless, queriesStarted]
  · simp [torn, timer]

/-- The timer is brought in line with a rate as far as the modem allows. -/
theorem counts_scheduled {rate : UInt32} {state : State} (now : Nat)
    (aligned : i.alignedBy turns operation = state.isEnablingOrLater)
    (rate_eq : i.rateBy turns operation = rate)
    (torn : i.tornDownBy turns operation = decide (rate = 0))
    (tickless : i.ticksBy operation = false) :
    i.Counts turns operation ({ i.reporting with rate }.scheduled state now) := by
  have starts : i.startsBy turns operation = { i.reporting with rate }.wantsTimer state := by
    simp only [startsBy, aligned, rate_eq, Reporting.wantsTimer]
    cases state.isEnablingOrLater <;> cases i.reporting.supported <;> simp
  by_cases wanted : { i.reporting with rate }.wantsTimer state = true
  · have on : rate ≠ 0 := by
      rintro rfl
      simp [Reporting.wantsTimer] at wanted
    have supported : i.reporting.supported = true := by simp_all [Reporting.wantsTimer]
    rw [Reporting.scheduled_of_wantsTimer wanted,
      Reporting.started_of_supported (r := { i.reporting with rate }) supported]
    rw [wanted] at starts
    constructor
    · simp [starts]
    · simp [starts, tickless]
    · simp [starts, torn, on, rate_eq, Timer.identity, Timer.start]
  · have unwanted : { i.reporting with rate }.wantsTimer state = false := by simpa using wanted
    rw [unwanted] at starts
    rw [Reporting.scheduled, if_neg wanted]
    split
    next off =>
      have zero : rate = 0 := off
      constructor
      · simp [starts, Reporting.tornDown]
      · simp [starts, tickless, Reporting.tornDown]
      · simp [torn, zero, Reporting.tornDown]
    next on =>
      have nonzero : rate ≠ 0 := on
      constructor
      · simp [starts]
      · simp [starts, tickless]
      · simp [starts, torn, nonzero]

end

end Interface

namespace Effect

variable {i : Interface} {turns : List Turn} {operation : Operation} {result : Interface × Answer}

/-- A granted Setup request. -/
theorem counts_setUp {rate : UInt32} {state : State} (now : Nat)
    (granted : operation.granted? turns = some rate)
    (asked : i.reporting.attached = true → modem? turns = some state) :
    i.Counts turns operation (i.setUp rate state now).1.reporting := by
  have enable : operation ≠ .serve .enable := Interface.ne_of_granted granted rfl
  have disable : operation ≠ .serve .disable := Interface.ne_of_granted granted rfl
  have shutDown : operation ≠ .serve .shutDown := Interface.ne_of_granted granted rfl
  have aligned : i.alignedBy turns operation = _ := Interface.alignedBy_eq_of_ne enable
  have torn : i.tornDownBy turns operation = (i.reporting.attached && decide (rate = 0)) := by
    simp [Interface.tornDownBy_eq_of_ne enable disable shutDown, granted]
  have tickless : i.ticksBy operation = false := by
    cases operation with
    | tick => cases granted
    | _ => rfl
  rw [Interface.reporting_setUp]
  split
  next attached =>
    refine Interface.counts_scheduled now ?_ ?_ ?_ tickless
    · simp [aligned, Interface.storedBy, attached, granted, asked attached]
    · simp [Interface.rateBy, Interface.storedBy, attached, granted]
    · simp [torn, attached]
  next absent =>
    refine Interface.counts_of_kept ?_ ?_ tickless rfl rfl rfl
    · simp [aligned, Interface.storedBy, absent]
    · simp [torn, absent]

/-- Where nothing is granted, nothing is torn down and nothing ticks, the timer is left alone. -/
theorem counts_of_idle {r : Reporting} (ungranted : operation.granted? turns = none)
    (idle : operation ≠ .serve .enable ∧ operation ≠ .serve .disable ∧
      operation ≠ .serve .shutDown)
    (tickless : i.ticksBy operation = false) (timer : r.timer = i.reporting.timer)
    (timersStarted : r.timersStarted = i.reporting.timersStarted)
    (queriesStarted : r.queriesStarted = i.reporting.queriesStarted) :
    i.Counts turns operation r := by
  obtain ⟨enable, disable, shutDown⟩ := idle
  have standing : i.tornDownBy turns operation = false := by
    simp [Interface.tornDownBy_eq_of_ne enable disable shutDown, ungranted]
  exact Interface.counts_of_kept (Interface.alignedBy_eq_false ungranted enable) standing tickless
    timer timersStarted queriesStarted

/-- However an operation ends, timers and queries are counted as it starts them. -/
theorem counts (effect : Effect i turns operation result)
    (supported : i.reporting.timer ≠ none → i.reporting.supported = true) :
    i.Counts turns operation result.1.reporting := by
  cases effect with
  | bringUp fault =>
    rw [Interface.reporting_broughtUp]
    split
    · exact counts_of_idle rfl (by simp) rfl rfl rfl rfl
    · exact counts_of_idle rfl (by simp) rfl rfl rfl rfl
  | enable state now asked =>
    rw [Interface.reporting_enabled]
    split
    next can =>
      refine Interface.counts_scheduled now ?_ ?_ ?_ rfl
      · simp [Interface.alignedBy, can, asked can]
      · simp [Interface.rateBy, Interface.storedBy, Operation.granted?]
      · simp [Interface.tornDownBy, can]
    next cannot =>
      refine Interface.counts_of_kept ?_ ?_ rfl rfl rfl rfl
      · simp [Interface.alignedBy, cannot]
      · simp [Interface.tornDownBy, cannot]
  | disable =>
    have unaligned : i.alignedBy turns (.serve .disable) = false :=
      Interface.alignedBy_eq_false rfl (by simp)
    rw [Interface.reporting_disabled]
    split
    next gone =>
      have standing : i.tornDownBy turns (.serve .disable) = false := by
        simp [Interface.tornDownBy, gone]
      exact Interface.counts_of_kept unaligned standing rfl rfl rfl rfl
    next here =>
      have torn : i.tornDownBy turns (.serve .disable) = true := by
        simp [Interface.tornDownBy, here]
      exact Interface.counts_of_torn unaligned torn rfl rfl rfl rfl
  | shutDown =>
    have unaligned : i.alignedBy turns (.serve .shutDown) = false :=
      Interface.alignedBy_eq_false rfl (by simp)
    rw [Interface.reporting_shut]
    split
    next gone =>
      have standing : i.tornDownBy turns (.serve .shutDown) = false := by
        simp [Interface.tornDownBy, gone]
      exact Interface.counts_of_kept unaligned standing rfl rfl rfl rfl
    next here =>
      have torn : i.tornDownBy turns (.serve .shutDown) = true := by
        simp [Interface.tornDownBy, here]
      exact Interface.counts_of_torn unaligned torn rfl rfl rfl rfl
  | refuse rate who fault told =>
    exact counts_of_idle (by simp [Operation.granted?, told]) (by simp) rfl rfl rfl rfl
  | setup rate who state now told asked =>
    exact counts_setUp now (by simp [Operation.granted?, told]) asked
  | grant rate state now asked => exact counts_setUp now rfl asked
  | status | reject => exact counts_of_idle rfl (by simp) rfl rfl rfl rfl
  | tick now =>
    cases running : i.reporting.timer with
    | none =>
      have same : (i.tick now).reporting = i.reporting := by
        simp [Interface.tick, Reporting.tick, running]
      rw [same]
      exact counts_of_idle rfl (by simp) (by simp [Interface.ticksBy, running]) rfl rfl rfl
    | some timer =>
      have can := supported (by simp [running])
      have unaligned : i.alignedBy turns .tick = false := Interface.alignedBy_eq_false rfl (by simp)
      have starts := Interface.startsBy_of_unaligned unaligned
      have ticked : (i.tick now).reporting = _ := Reporting.tick_of_running running can now
      rw [ticked]
      constructor
      · simp [starts]
      · simp [starts, Interface.ticksBy, running]
      · simp [starts, Interface.tornDownBy, Operation.granted?, running]
  | loaded query answer =>
    exact counts_of_idle rfl (by simp) rfl (by simp) (by simp) (by simp)

end Effect

end Modem.Signal
