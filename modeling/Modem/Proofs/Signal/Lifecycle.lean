import Modem.Proofs.Signal.Object

/-! # The life of an interface

The state, the object and the export are set at different points of an operation. Between operations
they agree: the object is there from the first time the interface is brought up until it is shut
down, and it is exported only while it is there. An interface that has been shut down says nothing
any more, and nothing that is asked of it changes what can be seen of it. -/

namespace Modem.Signal

/-! ## States after an operation -/

namespace Interface

variable (i : Interface)

@[simp]
theorem lifecycle_broughtUp (fault : Option Fault) :
    (i.broughtUp fault).1.lifecycle =
      if i.lifecycle = .uninitialized then .initialized else i.lifecycle := by
  unfold broughtUp
  split
  next gone => simp [gone]
  · split
    · rfl
    · split
      · rfl
      · cases fault <;> rfl

@[simp]
theorem lifecycle_enabled (modem : State) (now : Nat) :
    (i.enabled modem now).1.lifecycle = if i.canEnable then .enabled else i.lifecycle := by
  unfold enabled canEnable
  cases i.reporting.supported <;> cases i.reporting.attached <;> rfl

@[simp]
theorem lifecycle_disabled :
    i.disabled.1.lifecycle = if i.lifecycle = .enabled then .disabled else i.lifecycle := by
  unfold disabled
  split
  next gone => simp [gone]
  · rfl

@[simp]
theorem lifecycle_shut : i.shut.1.lifecycle = .shutDown := by
  unfold shut
  split
  next gone => exact gone
  · rfl

@[simp]
theorem lifecycle_setUp (rate : UInt32) (modem : State) (now : Nat) :
    (i.setUp rate modem now).1.lifecycle = i.lifecycle := by
  unfold setUp
  split <;> rfl

end Interface

/-- The object is there. -/
def Lifecycle.present : Lifecycle → Bool
  | uninitialized | shutDown => false
  | initialized | enabled | disabled => true

theorem Lifecycle.present_iff {lifecycle : Lifecycle} :
    lifecycle.present = true ↔
      lifecycle = .initialized ∨ lifecycle = .enabled ∨ lifecycle = .disabled := by
  cases lifecycle <;> simp [present]

/-- What is set at different points of the operations agrees. -/
structure Interface.Coherent (i : Interface) : Prop where
  attached_eq : i.reporting.attached = i.lifecycle.present
  attached : i.exported = true → i.reporting.attached = true
  supported : i.exported = true → i.reporting.supported = true

theorem Interface.coherent_fresh (config : Config) (supported : Bool) :
    (Interface.fresh config supported).Coherent where
  attached_eq := rfl
  attached := nofun
  supported := nofun

theorem Interface.Coherent.present_of_canEnable {i : Interface} (coherent : i.Coherent)
    (can : i.canEnable = true) : i.lifecycle.present = true := by
  rw [← coherent.attached_eq]
  simp_all [Interface.canEnable]

theorem Reporting.Becomes.supported_eq {r s : Reporting} {answered : Option Query}
    (becomes : r.Becomes answered s) : s.supported = r.supported := by
  cases becomes with
  | started => simp [Reporting.started]
  | ticked => simp
  | received => simp
  | _ => rfl

namespace Effect

variable {i : Interface} {turns : List Turn} {operation : Operation} {result : Interface × Answer}

theorem attached_eq (effect : Effect i turns operation result)
    (before : i.reporting.attached = i.lifecycle.present) :
    result.1.reporting.attached = result.1.lifecycle.present := by
  cases effect with
  | bringUp fault =>
    rw [Interface.reporting_broughtUp, Interface.lifecycle_broughtUp]
    cases lifecycle : i.lifecycle <;> simp [lifecycle, before, Lifecycle.present]
  | enable state now _ =>
    rw [Interface.reporting_enabled, Interface.lifecycle_enabled]
    cases can : i.canEnable with
    | true =>
      have attached : i.reporting.attached = true := by simp_all [Interface.canEnable]
      simp [attached, Lifecycle.present]
    | false => simpa using before
  | disable =>
    rw [Interface.reporting_disabled, Interface.lifecycle_disabled]
    cases lifecycle : i.lifecycle <;>
      simp [lifecycle, before, Lifecycle.present, Reporting.tornDown]
  | shutDown =>
    rw [Interface.reporting_shut, Interface.lifecycle_shut]
    split
    next gone => rw [before, gone]
    · rfl
  | refuse => exact before
  | setup rate who state now _ _ | grant rate state now _ =>
    rw [Interface.reporting_setUp, Interface.lifecycle_setUp, ← before]
    split <;> simp
  | status | reject => exact before
  | tick now =>
    simp only [Interface.tick, Reporting.tick, ← before]
    split <;> simp
  | loaded query result => simpa using before

/-- Nothing but bringing up an interface that can be queried exports it. -/
theorem exported (effect : Effect i turns operation result) (exported : result.1.exported = true) :
    i.exported = true ∨ i.reporting.supported = true := by
  cases effect with
  | bringUp fault =>
    by_cases supported : i.reporting.supported = true
    · exact .inr supported
    · refine .inl ?_
      unfold Interface.broughtUp at exported
      split at exported
      · exact exported
      · simpa [supported, Interface.opened] using exported
  | enable => exact .inl (by rwa [Interface.exported_enabled] at exported)
  | disable => exact .inl (by rwa [Interface.exported_disabled] at exported)
  | shutDown =>
    refine .inl ?_
    unfold Interface.shut at exported
    split at exported
    · exact exported
    · cases exported
  | setup | grant => exact .inl (by rwa [Interface.exported_setUp] at exported)
  | _ => exact .inl exported

theorem coherent (effect : Effect i turns operation result) (coherent : i.Coherent)
    (expected : ∀ query, operation.answered? = some query → query ∈ i.reporting.inFlight) :
    result.1.Coherent where
  attached_eq := effect.attached_eq coherent.attached_eq
  attached := effect.attached_of_exported coherent.attached
  supported exported := by
    rw [(Reporting.becomes_of_effect effect expected).supported_eq]
    rcases effect.exported exported with before | supported
    · exact coherent.supported before
    · exact supported

/-- Only a shutdown shuts an interface down, and it always does. -/
theorem lifecycle_eq_shutDown_iff (effect : Effect i turns operation result)
    (coherent : i.Coherent) :
    result.1.lifecycle = .shutDown ↔ i.lifecycle = .shutDown ∨ operation = .serve .shutDown := by
  cases effect with
  | bringUp fault =>
    rw [Interface.lifecycle_broughtUp]
    cases lifecycle : i.lifecycle <;> simp
  | enable state now _ =>
    rw [Interface.lifecycle_enabled]
    cases can : i.canEnable with
    | true =>
      have present := coherent.present_of_canEnable can
      have here : i.lifecycle ≠ .shutDown := by
        intro gone
        rw [gone] at present
        cases present
      simp [here]
    | false => simp
  | disable =>
    rw [Interface.lifecycle_disabled]
    cases lifecycle : i.lifecycle <;> simp
  | shutDown => simp
  | setup | grant => simp
  | tick | loaded => simp [Interface.tick]
  | refuse | status | reject => simp

/-- An interface stays as it has been built until it is brought up or shut down. -/
theorem lifecycle_eq_uninitialized_iff (effect : Effect i turns operation result)
    (coherent : i.Coherent) :
    result.1.lifecycle = .uninitialized ↔
      i.lifecycle = .uninitialized ∧
        operation ≠ .serve .bringUp ∧ operation ≠ .serve .shutDown := by
  cases effect with
  | bringUp fault =>
    rw [Interface.lifecycle_broughtUp]
    cases lifecycle : i.lifecycle <;> simp
  | enable state now _ =>
    rw [Interface.lifecycle_enabled]
    cases can : i.canEnable with
    | true =>
      have here := coherent.present_of_canEnable can
      have begun : i.lifecycle ≠ .uninitialized := by
        intro unbegun
        rw [unbegun] at here
        cases here
      simp [begun]
    | false => simp
  | disable =>
    rw [Interface.lifecycle_disabled]
    cases lifecycle : i.lifecycle <;> simp
  | shutDown => simp
  | setup | grant => simp
  | tick | loaded => simp [Interface.tick]
  | refuse | status | reject => simp

end Effect

/-! ## After the shutdown -/

/-- What the requester of an operation is refused with. -/
def Operation.refusal? (turns : List Turn) : Operation → Option Fault
  | .serve (.setup _ _) => (verdict? turns).join
  | .conclude _ refusal => refusal
  | _ => none

/-- What an operation answers once the interface has been shut down. -/
def Operation.lastAnswer (supported : Bool) (turns : List Turn) (operation : Operation) : Answer :=
  match operation.refusal? turns, operation with
  | some fault, _ => .error fault
  | none, .serve .bringUp | none, .serve (.setup _ _) | none, .conclude _ _ =>
    .error Interface.noObject
  | none, .serve .enable =>
    .error (if supported then Interface.noObject else Interface.notSupported)
  | none, _ => .ok ()

/-- Only a request that is served whole is refused on the way. -/
theorem Operation.lastAnswer_of_unasked {operation : Operation}
    (unasked : ∀ rate who, operation ≠ .serve (.setup rate who)) (supported : Bool)
    (turns : List Turn) :
    operation.lastAnswer supported turns = operation.lastAnswer supported [] := by
  have same : operation.refusal? turns = operation.refusal? [] := by
    cases operation with
    | serve request =>
      cases request with
      | setup rate who => exact absurd rfl (unasked rate who)
      | _ => rfl
    | _ => rfl
  unfold lastAnswer
  rw [same]

/-- An interface that has been shut down. -/
structure Interface.Over (i : Interface) : Prop where
  lifecycle : i.lifecycle = .shutDown
  unattached : i.reporting.attached = false
  unexported : i.exported = false
  still : i.reporting.timer = none
  cleared : i.reporting.shown = .empty
  disowned : ∀ query ∈ i.reporting.inFlight, query.generation < i.reporting.generation

namespace Interface

variable {i : Interface}

theorem over_of_lifecycle (lifecycle : i.lifecycle = .shutDown) (coherent : i.Coherent)
    (sound : i.reporting.Sound) : i.Over := by
  have unattached : i.reporting.attached = false := by
    rw [coherent.attached_eq, lifecycle]
    rfl
  have still : i.reporting.timer = none := by
    cases running : i.reporting.timer with
    | none => rfl
    | some timer => simp [sound.attached (by simp [running])] at unattached
  have unexported : i.exported = false := by
    cases exported : i.exported with
    | false => rfl
    | true => simp [coherent.attached exported] at unattached
  exact ⟨lifecycle, unattached, unexported, still, sound.cleared still, sound.disowned still⟩

namespace Over

variable (past : i.Over)

include past

theorem callsOf_eq_nil (turns : List Turn) (operation : Operation) :
    i.callsOf turns operation = [] := by
  have silent (rate : UInt32) : i.setupCalls rate = [] := by
    simp [setupCalls, past.unattached]
  cases operation with
  | serve request =>
    cases request with
    | bringUp => simp [callsOf, past.lifecycle]
    | enable => simp [callsOf, canEnable, past.unattached]
    | disable => simp [callsOf, past.lifecycle]
    | shutDown => simp [callsOf, past.lifecycle]
    | setup rate who =>
      simp only [callsOf]
      split
      · exact silent _
      · rfl
    | status => rfl
  | conclude rate refusal =>
    simp only [callsOf]
    split
    · exact silent _
    · rfl
  | tick => rfl
  | loaded query result => simp [callsOf, Reporting.showing, past.unattached]

theorem createsBy_eq_false (operation : Operation) : i.createsBy operation = false := by
  unfold createsBy
  split
  · simp [past.lifecycle]
  · rfl

/-- Whatever is asked, the answer is fixed and nothing that can be seen changes. -/
theorem status_of_effect {turns : List Turn} {operation : Operation} {result : Interface × Answer}
    (effect : Effect i turns operation result)
    (expected : ∀ query, operation.answered? = some query → query ∈ i.reporting.inFlight) :
    result.1.status = i.status ∧
      result.2 = operation.lastAnswer i.reporting.supported turns := by
  cases effect with
  | bringUp fault => simp [broughtUp, past.lifecycle, Operation.lastAnswer, Operation.refusal?]
  | enable state now _ =>
    cases supported : i.reporting.supported <;>
      simp [enabled, supported, past.unattached, Operation.lastAnswer, Operation.refusal?]
  | disable => simp [disabled, past.lifecycle, Operation.lastAnswer, Operation.refusal?]
  | shutDown => simp [shut, past.lifecycle, Operation.lastAnswer, Operation.refusal?]
  | refuse rate who fault told => simp [Operation.lastAnswer, Operation.refusal?, told]
  | setup rate who state now told _ =>
    simp [setUp, past.unattached, Operation.lastAnswer, Operation.refusal?, told]
  | status | reject => simp [Operation.lastAnswer, Operation.refusal?]
  | grant rate state now _ =>
    simp [setUp, past.unattached, Operation.lastAnswer, Operation.refusal?]
  | tick now =>
    simp [tick, Reporting.tick, past.still, Operation.lastAnswer, Operation.refusal?]
  | loaded query result =>
    have behind := past.disowned query (expected query rfl)
    have other : query.generation ≠ i.reporting.generation := Nat.ne_of_lt behind
    simp [Reporting.received, other, status, Operation.lastAnswer, Operation.refusal?]

end Over

end Interface

end Modem.Signal
