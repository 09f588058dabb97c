import Modem.Proofs.Signal.Change

/-! # What operations write

The generation, the snapshot, the rate and the timer after an operation, each as one function of
what the operation finds and is told. -/

namespace Modem.Signal

namespace Reporting

@[simp]
theorem generation_scheduled (r : Reporting) (modem : State) (now : Nat) :
    (r.scheduled modem now).generation = if r.rate = 0 then r.generation + 1 else r.generation := by
  unfold scheduled
  split
  · rfl
  · split
    · simp [started]
    · rfl

@[simp]
theorem shown_scheduled (r : Reporting) (modem : State) (now : Nat) :
    (r.scheduled modem now).shown = if r.rate = 0 then .empty else r.shown := by
  unfold scheduled
  split
  · rfl
  · split
    · simp [started]
    · rfl

@[simp]
theorem rate_scheduled (r : Reporting) (modem : State) (now : Nat) :
    (r.scheduled modem now).rate = r.rate := by
  unfold scheduled
  split
  · rfl
  · split
    · simp [started]
    · rfl

@[simp]
theorem attached_scheduled (r : Reporting) (modem : State) (now : Nat) :
    (r.scheduled modem now).attached = r.attached := by
  unfold scheduled
  split
  · rfl
  · split
    · simp [started]
    · rfl

/-- If the modem allows it, scheduling leaves no timer at another rate. Else it starts none. -/
theorem timer_scheduled {r : Reporting} {modem : State} {now : Nat} {timer : Timer}
    (supported : r.timer ≠ none → r.supported = true)
    (running : (r.scheduled modem now).timer = some timer) :
    if modem.isEnablingOrLater then timer.rate = r.rate
    else ∃ old, r.timer = some old ∧ timer.rate = old.rate := by
  unfold scheduled at running
  split at running
  · cases running
  next on =>
    split at running
    next wanted =>
      simp only [started, timer_launch, Option.some.injEq] at running
      subst running
      have allowed : modem.isEnablingOrLater = true := by simp_all [wantsTimer]
      rw [if_pos allowed]
      rfl
    next unwanted =>
      split
      next allowed =>
        have can := supported (by simp [running])
        simpa [wantsTimer, on, allowed, can, running] using unwanted
      · exact ⟨timer, running, rfl⟩

end Reporting

/-! ## Writes -/

namespace Interface

variable (i : Interface) (turns : List Turn)

/-- Whether an operation stops the timer and disowns the queries under way. -/
def tornDownBy : Operation → Bool
  | .serve .disable | .serve .shutDown => i.lifecycle ≠ .shutDown
  | .serve .enable => i.canEnable && i.reporting.rate = 0
  | operation => i.reporting.attached && operation.granted? turns = some 0

/-- What an operation writes over the snapshot, if the answers to some queries count. -/
def writtenBy (counts : Query → Bool) : Operation → Option Snapshot
  | .loaded query result =>
    if counts query then some (Reporting.snapshotOf result) else none
  | .serve .bringUp =>
    if i.reporting.supported && !i.exported && i.lifecycle ≠ .shutDown then some .empty else none
  | operation => if i.tornDownBy turns operation then some .empty else none

/-- The rate that an operation stores. -/
def storedBy (operation : Operation) : Option UInt32 :=
  if i.reporting.attached then operation.granted? turns else none

/-- Whether an operation creates the object. -/
def createsBy : Operation → Bool
  | .serve .bringUp => i.lifecycle ≠ .shutDown && !i.reporting.attached
  | _ => false

/-- The rate that an operation sets on the object: the stored one where it creates the object, and
else the one that it stores. -/
def announcedBy (operation : Operation) : Option UInt32 :=
  if i.createsBy operation then some i.reporting.rate else i.storedBy turns operation

/-- Whether an operation brings the timer in line with the rate. -/
def alignedBy (operation : Operation) : Bool :=
  (match operation with
    | .serve .enable => i.canEnable
    | _ => (i.storedBy turns operation).isSome) &&
  (modem? turns).any State.isEnablingOrLater

variable {i turns} in
theorem granted?_of_stored {operation : Operation} {rate : UInt32}
    (stored : i.storedBy turns operation = some rate) : operation.granted? turns = some rate := by
  unfold storedBy at stored
  split at stored
  · exact stored
  · cases stored

end Interface

namespace Effect

variable {i : Interface} {turns : List Turn} {operation : Operation} {result : Interface × Answer}

/-- Each teardown begins a generation, and nothing else does. -/
theorem generation (effect : Effect i turns operation result) :
    result.1.reporting.generation =
      if i.tornDownBy turns operation then i.reporting.generation + 1
      else i.reporting.generation := by
  cases effect with
  | bringUp fault =>
    rw [Interface.reporting_broughtUp]
    split <;> simp [Interface.tornDownBy, Operation.granted?]
  | enable state now _ =>
    rw [Interface.reporting_enabled]
    cases can : i.canEnable <;> simp [Interface.tornDownBy, can]
  | disable =>
    rw [Interface.reporting_disabled]
    by_cases gone : i.lifecycle = .shutDown <;>
      simp [Interface.tornDownBy, gone, Reporting.tornDown]
  | shutDown =>
    rw [Interface.reporting_shut]
    by_cases gone : i.lifecycle = .shutDown <;>
      simp [Interface.tornDownBy, gone, Reporting.tornDown]
  | refuse rate who fault told => simp [Interface.tornDownBy, Operation.granted?, told]
  | setup rate who state now told _ =>
    rw [Interface.reporting_setUp]
    cases attached : i.reporting.attached <;>
      simp [Interface.tornDownBy, Operation.granted?, told, attached]
  | status | reject => simp [Interface.tornDownBy, Operation.granted?]
  | grant rate state now _ =>
    rw [Interface.reporting_setUp]
    cases attached : i.reporting.attached <;>
      simp [Interface.tornDownBy, Operation.granted?, attached]
  | tick now =>
    simp only [Interface.tick, Reporting.tick]
    split <;> simp [Interface.tornDownBy, Operation.granted?]
  | loaded query result => simp [Interface.tornDownBy, Operation.granted?]

/-- Answers to queries of the present generation count, and nothing else is written than what an
operation writes. -/
theorem shown (effect : Effect i turns operation result) (sound : i.reporting.Sound)
    (expected : ∀ query, operation.answered? = some query → query ∈ i.reporting.inFlight) :
    result.1.reporting.shown =
      (i.writtenBy turns (fun query => query.generation = i.reporting.generation)
        operation).getD i.reporting.shown := by
  cases effect with
  | bringUp fault =>
    rw [Interface.reporting_broughtUp]
    by_cases gone : i.lifecycle = .shutDown
    · simp [Interface.writtenBy, gone]
    · cases clears : i.reporting.supported && !i.exported <;>
        simp [Interface.writtenBy, gone, clears]
  | enable state now _ =>
    rw [Interface.reporting_enabled]
    cases can : i.canEnable <;> by_cases off : i.reporting.rate = 0 <;>
      simp [Interface.writtenBy, Interface.tornDownBy, can, off]
  | disable =>
    rw [Interface.reporting_disabled]
    by_cases gone : i.lifecycle = .shutDown <;>
      simp [Interface.writtenBy, Interface.tornDownBy, gone, Reporting.tornDown]
  | shutDown =>
    rw [Interface.reporting_shut]
    by_cases gone : i.lifecycle = .shutDown <;>
      simp [Interface.writtenBy, Interface.tornDownBy, gone, Reporting.tornDown]
  | refuse rate who fault told =>
    simp [Interface.writtenBy, Interface.tornDownBy, Operation.granted?, told]
  | setup rate who state now told _ =>
    rw [Interface.reporting_setUp]
    cases attached : i.reporting.attached <;> by_cases off : rate = 0 <;>
      simp [Interface.writtenBy, Interface.tornDownBy, Operation.granted?, told, attached, off]
  | status | reject => simp [Interface.writtenBy, Interface.tornDownBy, Operation.granted?]
  | grant rate state now _ =>
    rw [Interface.reporting_setUp]
    cases attached : i.reporting.attached <;> by_cases off : rate = 0 <;>
      simp [Interface.writtenBy, Interface.tornDownBy, Operation.granted?, attached, off]
  | tick now =>
    simp only [Interface.tick, Reporting.tick]
    split <;> simp [Interface.writtenBy, Interface.tornDownBy, Operation.granted?]
  | loaded query result =>
    by_cases current : query.generation = i.reporting.generation
    · have attached := sound.attached_of_current (expected query rfl) current
      simp [Interface.writtenBy, Reporting.received, current, attached]
    · simp [Interface.writtenBy, Reporting.received, current]

/-- Only a granted Setup request changes the rate. -/
theorem rate (effect : Effect i turns operation result) :
    result.1.reporting.rate = (i.storedBy turns operation).getD i.reporting.rate := by
  cases effect with
  | bringUp fault =>
    rw [Interface.reporting_broughtUp]
    split <;> simp [Interface.storedBy, Operation.granted?]
  | enable state now _ =>
    rw [Interface.reporting_enabled]
    split <;> simp [Interface.storedBy, Operation.granted?]
  | disable =>
    rw [Interface.reporting_disabled]
    split <;> simp [Interface.storedBy, Operation.granted?, Reporting.tornDown]
  | shutDown =>
    rw [Interface.reporting_shut]
    split <;> simp [Interface.storedBy, Operation.granted?, Reporting.tornDown]
  | refuse rate who fault told => simp [Interface.storedBy, Operation.granted?, told]
  | setup rate who state now told _ =>
    rw [Interface.reporting_setUp]
    cases attached : i.reporting.attached <;>
      simp [Interface.storedBy, Operation.granted?, told, attached]
  | status | reject => simp [Interface.storedBy, Operation.granted?]
  | grant rate state now _ =>
    rw [Interface.reporting_setUp]
    cases attached : i.reporting.attached <;>
      simp [Interface.storedBy, Operation.granted?, attached]
  | tick now =>
    simp only [Interface.tick, Reporting.tick]
    split <;> simp [Interface.storedBy, Operation.granted?]
  | loaded query result => simp [Interface.storedBy, Operation.granted?]

theorem timer_setUp {rate : UInt32} {modem : State} {now : Nat} {timer : Timer}
    (sound : i.reporting.Sound)
    (running : (i.setUp rate modem now).1.reporting.timer = some timer) :
    if i.reporting.attached && modem.isEnablingOrLater then
      timer.rate = (i.setUp rate modem now).1.reporting.rate
    else ∃ old, i.reporting.timer = some old ∧ timer.rate = old.rate := by
  rw [Interface.reporting_setUp] at running ⊢
  by_cases attached : i.reporting.attached = true
  · rw [if_pos attached] at running
    have aligned :=
      Reporting.timer_scheduled (r := { i.reporting with rate }) sound.supported running
    by_cases allowed : modem.isEnablingOrLater = true
    · simpa [attached, allowed] using aligned
    · simpa [attached, allowed] using aligned
  · rw [if_neg attached] at running
    simpa [attached] using ⟨timer, running, rfl⟩

/-- A timer runs at the rate with which it has been brought in line, or at its old rate. -/
theorem timer (effect : Effect i turns operation result) (sound : i.reporting.Sound)
    {timer : Timer} (running : result.1.reporting.timer = some timer) :
    if i.alignedBy turns operation then timer.rate = result.1.reporting.rate
    else ∃ old, i.reporting.timer = some old ∧ timer.rate = old.rate := by
  cases effect with
  | bringUp fault =>
    rw [Interface.reporting_broughtUp] at running
    have kept : i.reporting.timer = some timer := by
      split at running <;> exact running
    simpa [Interface.alignedBy, Interface.storedBy, Operation.granted?] using ⟨timer, kept, rfl⟩
  | enable state now asked =>
    rw [Interface.reporting_enabled] at running ⊢
    by_cases can : i.canEnable = true
    · rw [if_pos can] at running
      have aligned := Reporting.timer_scheduled sound.supported running
      have told := asked can
      by_cases allowed : state.isEnablingOrLater = true
      · simpa [Interface.alignedBy, can, told, allowed] using aligned
      · simpa [Interface.alignedBy, can, told, allowed] using aligned
    · rw [if_neg can] at running
      simpa [Interface.alignedBy, can] using ⟨timer, running, rfl⟩
  | disable =>
    rw [Interface.reporting_disabled] at running
    have kept : i.reporting.timer = some timer := by
      split at running
      · exact running
      · cases running
    simpa [Interface.alignedBy, Interface.storedBy, Operation.granted?] using ⟨timer, kept, rfl⟩
  | shutDown =>
    rw [Interface.reporting_shut] at running
    have kept : i.reporting.timer = some timer := by
      split at running
      · exact running
      · cases running
    simpa [Interface.alignedBy, Interface.storedBy, Operation.granted?] using ⟨timer, kept, rfl⟩
  | refuse rate who fault told =>
    simpa [Interface.alignedBy, Interface.storedBy, Operation.granted?, told] using
      ⟨timer, running, rfl⟩
  | setup rate who state now told asked =>
    have aligned := timer_setUp sound running
    by_cases attached : i.reporting.attached = true
    · simpa [Interface.alignedBy, Interface.storedBy, Operation.granted?, told, attached,
        asked attached] using aligned
    · simpa [Interface.alignedBy, Interface.storedBy, attached] using aligned
  | status | reject =>
    simpa [Interface.alignedBy, Interface.storedBy, Operation.granted?] using
      ⟨timer, running, rfl⟩
  | grant rate state now asked =>
    have aligned := timer_setUp sound running
    by_cases attached : i.reporting.attached = true
    · simpa [Interface.alignedBy, Interface.storedBy, Operation.granted?, attached,
        asked attached] using aligned
    · simpa [Interface.alignedBy, Interface.storedBy, attached] using aligned
  | tick now =>
    have kept : ∃ old, i.reporting.timer = some old ∧ timer.rate = old.rate := by
      simp only [Interface.tick, Reporting.tick] at running
      split at running
      next none =>
        rw [none] at running
        cases running
      next old some =>
        rw [Reporting.timer_launch, Option.some.injEq] at running
        exact ⟨old, some, by rw [← running]; rfl⟩
    simpa [Interface.alignedBy, Interface.storedBy, Operation.granted?] using kept
  | loaded query result =>
    rw [Reporting.timer_received] at running
    simpa [Interface.alignedBy, Interface.storedBy, Operation.granted?] using
      ⟨timer, running, rfl⟩

/-- A Setup request ends well only if its rate has been stored. -/
theorem stored_of_ok (effect : Effect i turns operation result) (ok : result.2 = .ok ())
    {rate : UInt32}
    (setup : (∃ who, operation = .serve (.setup rate who)) ∨
      ∃ refusal, operation = .conclude rate refusal) :
    i.storedBy turns operation = some rate := by
  cases effect with
  | refuse rate who fault told => cases ok
  | reject rate fault => cases ok
  | setup asked who state now told _ =>
    obtain ⟨_, same⟩ | ⟨_, same⟩ := setup
    · obtain ⟨rfl, -⟩ := Request.setup.inj (Operation.serve.inj same)
      by_cases attached : i.reporting.attached = true
      · simp [Interface.storedBy, Operation.granted?, told, attached]
      · simp [Interface.setUp, attached] at ok
    · cases same
  | grant asked state now _ =>
    obtain ⟨_, same⟩ | ⟨_, same⟩ := setup
    · cases same
    · obtain ⟨rfl, -⟩ := Operation.conclude.inj same
      by_cases attached : i.reporting.attached = true
      · simp [Interface.storedBy, Operation.granted?, attached]
      · simp [Interface.setUp, attached] at ok
  | _ => simp at setup

end Effect

/-! ## The object -/

/-- The rate that a call sets. -/
def Call.rate? : Call → Option UInt32
  | .setRate rate => some rate
  | _ => none

namespace Interface

theorem rates_showing (r : Reporting) (values : Snapshot) :
    (r.showing values).filterMap Call.rate? = [] := by
  unfold Reporting.showing
  split <;> rfl

theorem rates_setupCalls (i : Interface) (rate : UInt32) :
    (i.setupCalls rate).filterMap Call.rate? = if i.reporting.attached then [rate] else [] := by
  unfold setupCalls
  split
  · split <;> rfl
  · rfl

theorem rates_callsOf (i : Interface) (turns : List Turn) (operation : Operation) :
    (i.callsOf turns operation).filterMap Call.rate? =
      (i.announcedBy turns operation).toList := by
  cases operation with
  | serve request =>
    cases request with
    | bringUp =>
      by_cases gone : i.lifecycle = .shutDown
      · simp [callsOf, announcedBy, createsBy, storedBy, Operation.granted?, gone]
      · cases attached : i.reporting.attached <;>
          cases clears : i.reporting.supported && !i.exported <;>
          simp [callsOf, announcedBy, createsBy, storedBy, Operation.granted?, gone, attached,
            clears, Call.rate?]
    | enable =>
      cases off : i.canEnable && decide (i.reporting.rate = 0) <;>
        simp [callsOf, announcedBy, createsBy, storedBy, Operation.granted?, off, Call.rate?]
    | disable =>
      by_cases gone : i.lifecycle = .shutDown <;>
        simp [callsOf, announcedBy, createsBy, storedBy, Operation.granted?, gone, rates_showing]
    | shutDown =>
      by_cases gone : i.lifecycle = .shutDown <;> cases exported : i.exported <;>
        simp [callsOf, announcedBy, createsBy, storedBy, Operation.granted?, gone, exported,
          rates_showing, Call.rate?]
    | setup rate who =>
      cases granted : Operation.granted? turns (.serve (.setup rate who)) <;>
        cases attached : i.reporting.attached <;>
        simp [callsOf, announcedBy, createsBy, storedBy, granted, rates_setupCalls, attached]
    | status => simp [callsOf, announcedBy, createsBy, storedBy, Operation.granted?]
  | conclude rate refusal =>
    cases granted : Operation.granted? turns (.conclude rate refusal) <;>
      cases attached : i.reporting.attached <;>
      simp [callsOf, announcedBy, createsBy, storedBy, granted, rates_setupCalls, attached]
  | tick => simp [callsOf, announcedBy, createsBy, storedBy, Operation.granted?]
  | loaded query result =>
    by_cases current : query.generation = i.reporting.generation <;>
      simp [callsOf, announcedBy, createsBy, storedBy, Operation.granted?, current, rates_showing]

/-- The object exists, or it is gone for good. -/
def made (i : Interface) : Bool := i.reporting.attached || i.lifecycle = .shutDown

end Interface

theorem Interface.not_made_of_creates {i : Interface} {operation : Operation}
    (creates : i.createsBy operation = true) : i.made = false := by
  unfold Interface.createsBy at creates
  split at creates
  · simpa [Interface.made, and_comm] using creates
  · cases creates

/-- Once the object has been created, it stays or is gone for good. -/
theorem Effect.made {i : Interface} {turns : List Turn} {operation : Operation}
    {result : Interface × Answer} (effect : Effect i turns operation result)
    (made : (i.made || i.createsBy operation) = true) : result.1.made = true := by
  have kept : operation ≠ .serve .bringUp → i.made = true := by
    intro other
    cases operation with
    | serve request =>
      cases request with
      | bringUp => exact absurd rfl other
      | _ => simpa [Interface.createsBy] using made
    | _ => simpa [Interface.createsBy] using made
  cases effect with
  | bringUp fault =>
    by_cases gone : i.lifecycle = .shutDown
    · simp [Interface.made, Interface.broughtUp, gone]
    · simp [Interface.made, Interface.reporting_broughtUp, gone]
  | enable state now _ =>
    have before := kept (by simp)
    unfold Interface.enabled
    split
    · exact before
    · split
      · exact before
      next present => simpa [Interface.made] using present
  | disable =>
    have before := kept (by simp)
    by_cases gone : i.lifecycle = .shutDown
    · simp [Interface.made, Interface.disabled, gone]
    · have attached : i.reporting.attached = true := by simpa [Interface.made, gone] using before
      simp [Interface.made, Interface.reporting_disabled, gone, Reporting.tornDown, attached]
  | shutDown =>
    by_cases gone : i.lifecycle = .shutDown <;> simp [Interface.made, Interface.shut, gone]
  | refuse => exact kept (by simp)
  | setup rate who state now _ _ | grant rate state now _ =>
    have before := kept (by simp)
    unfold Interface.setUp
    split
    · exact before
    · simpa [Interface.made] using before
  | status | reject => exact kept (by simp)
  | tick now =>
    have before := kept (by simp)
    simp only [Interface.made, Interface.tick, Reporting.tick] at before ⊢
    split
    · exact before
    · rw [Reporting.attached_launch]
      exact before
  | loaded query result => simpa [Interface.made] using kept (by simp)

end Modem.Signal
