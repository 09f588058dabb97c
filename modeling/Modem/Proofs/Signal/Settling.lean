import Modem.Proofs.Signal.Starts

/-! # Settling at a rate

An operation that asks for a rate, with the modem far enough up, leaves reporting settled at the
rate: off, or with a timer that runs at it. Where reporting is settled already, asking for the rate
again changes nothing but the generation, and that only if the rate is zero. -/

namespace Modem.Signal

namespace Reporting

variable {r : Reporting} {rate : UInt32} {modem : State} {now : Nat}

/-- Nothing is left to be done for the rate. -/
structure Settled (r : Reporting) (rate : UInt32) : Prop where
  stored : r.rate = rate
  timer : r.timer.map Timer.rate = if rate = 0 then none else some rate
  shown : rate = 0 → r.shown = .empty

/-- The generation after a teardown for each of some requests for no reporting. -/
def again (r : Reporting) (rate : UInt32) (times : Nat) : Reporting :=
  { r with generation := r.generation + if rate = 0 then times else 0 }

theorem again_zero (r : Reporting) (rate : UInt32) : r.again rate 0 = r := by
  simp [again]

theorem again_again (r : Reporting) (rate : UInt32) (first more : Nat) :
    (r.again rate first).again rate more = r.again rate (first + more) := by
  unfold again
  split
  · simp [Nat.add_assoc]
  · rfl

theorem Settled.again (settled : r.Settled rate) (times : Nat) :
    (r.again rate times).Settled rate :=
  ⟨settled.stored, settled.timer, settled.shown⟩

/-- Where reporting is settled, scheduling the rate once more is a teardown of nothing, or nothing
at all, whatever the modem. -/
theorem Settled.scheduled (settled : r.Settled rate) (modem : State) (now : Nat) :
    { r with rate }.scheduled modem now = r.again rate 1 := by
  obtain ⟨stored, timer, shown⟩ := settled
  by_cases off : rate = 0
  · have stopped : r.timer = none := by simpa [off] using timer
    subst stored
    rw [Reporting.scheduled, if_pos off, tornDown, Reporting.again, if_pos off, ← shown off,
      ← stopped]
  · have running : r.timer.map Timer.rate = some rate := by simpa [off] using timer
    subst stored
    rw [Reporting.scheduled, if_neg off, if_neg (by simp [wantsTimer, running]),
      Reporting.again, if_neg off]
    rfl

/-- With the modem far enough up, scheduling a rate settles at it. -/
theorem settled_scheduled (far : modem.isEnablingOrLater = true) (supported : r.supported = true)
    (now : Nat) : ({ r with rate }.scheduled modem now).Settled rate := by
  by_cases off : rate = 0
  · subst off
    exact ⟨rfl, rfl, fun _ => rfl⟩
  by_cases running : r.timer.map Timer.rate = some rate
  · have kept : { r with rate }.scheduled modem now = { r with rate } := by
      rw [scheduled, if_neg off, if_neg (by simp [wantsTimer, running])]
    rw [kept]
    exact ⟨rfl, by rwa [if_neg off], fun zero => absurd zero off⟩
  · have wanted : { r with rate }.wantsTimer modem = true := by
      simp [wantsTimer, off, far, supported, running]
    rw [scheduled_of_wantsTimer wanted]
    refine ⟨by simp [started], ?_, fun zero => absurd zero off⟩
    simp [started, off, Timer.start]

/-- What scheduling a rate does to the queries: one is launched if there is none at that rate. -/
theorem queries_scheduled (rate : UInt32) (far : modem.isEnablingOrLater = true)
    (supported : r.supported = true) (now : Nat) :
    ({ r with rate }.scheduled modem now).inFlight = r.inFlight ++
        (if rate ≠ 0 ∧ r.timer.map Timer.rate ≠ some rate then
          [⟨r.queriesStarted, r.generation⟩] else []) ∧
      ({ r with rate }.scheduled modem now).queriesStarted = r.queriesStarted +
        if rate ≠ 0 ∧ r.timer.map Timer.rate ≠ some rate then 1 else 0 := by
  have wants : { r with rate }.wantsTimer modem = true ↔
      rate ≠ 0 ∧ r.timer.map Timer.rate ≠ some rate := by
    simp [wantsTimer, far, supported]
  by_cases wanted : { r with rate }.wantsTimer modem = true
  · rw [if_pos (wants.1 wanted), if_pos (wants.1 wanted), scheduled_of_wantsTimer wanted,
      started_of_supported (r := { r with rate }) supported]
    exact ⟨rfl, rfl⟩
  · rw [if_neg fun asked => wanted (wants.2 asked), if_neg fun asked => wanted (wants.2 asked),
      scheduled, if_neg wanted, List.append_nil, Nat.add_zero]
    split <;> exact ⟨rfl, rfl⟩

/-- A timer that runs at the rate goes on as it is. -/
theorem timer_scheduled_of_running (on : rate ≠ 0)
    (running : r.timer.map Timer.rate = some rate) :
    ({ r with rate }.scheduled modem now).timer = r.timer := by
  rw [scheduled, if_neg on, if_neg (by simp [wantsTimer, running])]

end Reporting

variable {i : Interface} {turns : List Turn} {operation : Operation} {rate : UInt32}

theorem Interface.canEnable_iff :
    i.canEnable = true ↔ i.reporting.supported = true ∧ i.reporting.attached = true :=
  Bool.and_eq_true_iff

/-- Where the device can be queried, whatever asks for a rate has it scheduled. -/
theorem Effect.of_requested {result : Interface × Answer} (effect : Effect i turns operation result)
    (can : i.canEnable = true)
    (requested : i.reporting.requested? turns operation = some rate) :
    result.2 = .ok () ∧ ∃ state now, modem? turns = some state ∧
      result.1.reporting = { i.reporting with rate }.scheduled state now := by
  obtain ⟨supported, attached⟩ := Interface.canEnable_iff.1 can
  have set (asked : UInt32) (state : State) (now : Nat)
      (told : i.reporting.attached = true → modem? turns = some state) (same : asked = rate) :
      (i.setUp asked state now).2 = .ok () ∧ ∃ found time, modem? turns = some found ∧
        (i.setUp asked state now).1.reporting =
          { i.reporting with rate }.scheduled found time := by
    subst same
    refine ⟨by simp [Interface.setUp, attached], state, now, told attached, ?_⟩
    rw [Interface.reporting_setUp, if_pos attached]
  cases effect with
  | enable state now asked =>
    have same : i.reporting.rate = rate := Option.some.inj requested
    refine ⟨by simp [Interface.enabled, supported, attached], state, now, asked can, ?_⟩
    rw [Interface.reporting_enabled, if_pos can, ← same]
  | setup asked who state now told modem =>
    refine set asked state now modem ?_
    simpa [Reporting.requested?, Operation.granted?, told] using requested
  | grant asked state now modem => exact set asked state now modem (Option.some.inj requested)
  | refuse asked who fault told =>
    simp [Reporting.requested?, Operation.granted?, told] at requested
  | _ => cases requested

/-- What asking for a rate says to the object: the rate if it is granted, and that nothing is
available if it is zero. -/
theorem Interface.callsOf_of_requested (can : i.canEnable = true)
    (requested : i.reporting.requested? turns operation = some rate) :
    i.callsOf turns operation =
      (operation.granted? turns).toList.map .setRate ++
        if rate = 0 then [.publish .empty] else [] := by
  obtain ⟨supported, attached⟩ := canEnable_iff.1 can
  by_cases enable : operation = .serve .enable
  · subst enable
    have same : i.reporting.rate = rate := Option.some.inj requested
    simp [callsOf, can, same, Operation.granted?]
  · have granted : operation.granted? turns = some rate := by
      rwa [Reporting.requested?_of_ne enable] at requested
    have calls : i.callsOf turns operation = i.setupCalls rate := by
      cases operation with
      | serve request =>
        cases request with
        | setup asked who => simp [callsOf, granted]
        | _ => cases granted
      | conclude asked refusal => simp [callsOf, granted]
      | _ => cases granted
    rw [calls, granted, setupCalls, if_pos attached]
    rfl

end Modem.Signal
