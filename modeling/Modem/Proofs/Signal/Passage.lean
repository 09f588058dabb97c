import Modem.Proofs.Signal.Lifecycle

/-! # Passages between states

The state of an interface changes with four requests, each in its own direction. What is refused
changes nothing at all, except that an interface that is brought up stays up although it cannot be
queried or exported. -/

namespace Modem.Signal

/-- The ways from one state to another, with the operation that leads along each. -/
inductive Lifecycle.Passage : Operation → Lifecycle → Lifecycle → Prop
  | bringUp : Passage (.serve .bringUp) .uninitialized .initialized
  | enable {before : Lifecycle} (ready : before = .initialized ∨ before = .disabled) :
    Passage (.serve .enable) before .enabled
  | disable : Passage (.serve .disable) .enabled .disabled
  | shutDown (before : Lifecycle) : Passage (.serve .shutDown) before .shutDown

/-- An operation that can change the state. -/
def Operation.Moves (operation : Operation) : Prop :=
  operation = .serve .bringUp ∨ operation = .serve .enable ∨ operation = .serve .disable ∨
    operation = .serve .shutDown

theorem Lifecycle.Passage.moves {operation : Operation} {before after : Lifecycle}
    (passage : Passage operation before after) : operation.Moves := by
  cases passage with
  | bringUp => exact .inl rfl
  | enable => exact .inr (.inl rfl)
  | disable => exact .inr (.inr (.inl rfl))
  | shutDown => exact .inr (.inr (.inr rfl))

/-- What the state says of the object, the device and the export is so. -/
structure Interface.Consistent (i : Interface) : Prop where
  attached_iff : i.reporting.attached = true ↔
    i.lifecycle = .initialized ∨ i.lifecycle = .enabled ∨ i.lifecycle = .disabled
  supported : i.lifecycle = .enabled ∨ i.lifecycle = .disabled → i.reporting.supported = true
  exported : i.exported = true → i.reporting.attached = true ∧ i.reporting.supported = true

theorem Interface.Coherent.consistent {i : Interface} (coherent : i.Coherent)
    (supported : i.lifecycle = .enabled ∨ i.lifecycle = .disabled → i.reporting.supported = true) :
    i.Consistent where
  attached_iff := by rw [coherent.attached_eq, Lifecycle.present_iff]
  supported := supported
  exported exported := ⟨coherent.attached exported, coherent.supported exported⟩

/-- What the end of an operation makes of an interface and its state. -/
structure Interface.Proceeds (i : Interface) (operation : Operation) (j : Interface)
    (answer : Answer) : Prop where
  passage : j.lifecycle = i.lifecycle ∨ Lifecycle.Passage operation i.lifecycle j.lifecycle
  same : ¬operation.Moves → j.lifecycle = i.lifecycle
  /-- What is refused leaves everything as it is. -/
  refused : operation ≠ .serve .bringUp → ∀ fault, answer = .error fault → j = i
  granted : operation = .serve .disable ∨ operation = .serve .shutDown → answer = .ok ()
  broughtUp : operation = .serve .bringUp → j.lifecycle ≠ .uninitialized
  enabled : operation = .serve .enable → answer = .ok () → j.lifecycle = .enabled
  disabled : operation = .serve .disable → j.lifecycle ≠ .enabled
  shut : operation = .serve .shutDown → j.lifecycle = .shutDown

namespace Effect

variable {i : Interface} {turns : List Turn} {operation : Operation} {result : Interface × Answer}

theorem passage (effect : Effect i turns operation result) (coherent : i.Coherent) :
    result.1.lifecycle = i.lifecycle ∨
      Lifecycle.Passage operation i.lifecycle result.1.lifecycle := by
  cases effect with
  | bringUp fault =>
    rw [Interface.lifecycle_broughtUp]
    split
    next unbegun =>
      rw [unbegun]
      exact .inr .bringUp
    · exact .inl rfl
  | enable state now _ =>
    rw [Interface.lifecycle_enabled]
    split
    next can =>
      rcases Lifecycle.present_iff.1 (coherent.present_of_canEnable can) with
        initialized | enabled | disabled
      · exact .inr (.enable (.inl initialized))
      · exact .inl enabled.symm
      · exact .inr (.enable (.inr disabled))
    · exact .inl rfl
  | disable =>
    rw [Interface.lifecycle_disabled]
    split
    next enabled =>
      rw [enabled]
      exact .inr .disable
    · exact .inl rfl
  | shutDown =>
    rw [Interface.lifecycle_shut]
    exact .inr (.shutDown _)
  | setup | grant => exact .inl (Interface.lifecycle_setUp ..)
  | refuse | status | reject | tick | loaded => exact .inl rfl

/-- An interface is enabled only if it can be queried, and stays so. -/
theorem supported_of_enabled (effect : Effect i turns operation result)
    (expected : ∀ query, operation.answered? = some query → query ∈ i.reporting.inFlight)
    (before : i.lifecycle = .enabled ∨ i.lifecycle = .disabled → i.reporting.supported = true)
    (active : result.1.lifecycle = .enabled ∨ result.1.lifecycle = .disabled) :
    result.1.reporting.supported = true := by
  rw [(Reporting.becomes_of_effect effect expected).supported_eq]
  cases effect with
  | bringUp fault =>
    rw [Interface.lifecycle_broughtUp] at active
    split at active
    · simp at active
    · exact before active
  | enable state now _ =>
    rw [Interface.lifecycle_enabled] at active
    split at active
    next can => simp_all [Interface.canEnable]
    · exact before active
  | disable =>
    rw [Interface.lifecycle_disabled] at active
    split at active
    next enabled => exact before (.inl enabled)
    · exact before active
  | shutDown =>
    rw [Interface.lifecycle_shut] at active
    simp at active
  | setup | grant =>
    rw [Interface.lifecycle_setUp] at active
    exact before active
  | refuse | status | reject | tick | loaded => exact before active

theorem eq_of_refused (effect : Effect i turns operation result)
    (other : operation ≠ .serve .bringUp) {fault : Fault} (refused : result.2 = .error fault) :
    result.1 = i := by
  cases effect with
  | bringUp => exact absurd rfl other
  | enable state now _ =>
    unfold Interface.enabled at refused ⊢
    split
    · rfl
    · split
      · rfl
      · simp_all
  | disable =>
    unfold Interface.disabled at refused
    split at refused <;> cases refused
  | shutDown =>
    unfold Interface.shut at refused
    split at refused <;> cases refused
  | setup | grant =>
    unfold Interface.setUp at refused ⊢
    split
    · rfl
    · simp_all
  | refuse | reject => rfl
  | status | tick | loaded => cases refused

theorem lifecycle_of_enabled (effect : Effect i turns (.serve .enable) result)
    (ok : result.2 = .ok ()) : result.1.lifecycle = .enabled := by
  cases effect with
  | enable state now _ =>
    unfold Interface.enabled at ok ⊢
    split
    · simp_all
    · split
      · simp_all
      · rfl

theorem proceeds (effect : Effect i turns operation result) (coherent : i.Coherent) :
    i.Proceeds operation result.1 result.2 where
  passage := effect.passage coherent
  same idle := (effect.passage coherent).resolve_right fun passage => idle passage.moves
  refused other fault := effect.eq_of_refused other
  granted off := by
    rcases off with rfl | rfl
    · cases effect
      unfold Interface.disabled
      split <;> rfl
    · cases effect
      unfold Interface.shut
      split <;> rfl
  broughtUp up := by
    subst up
    cases effect with
    | bringUp fault =>
      rw [Interface.lifecycle_broughtUp]
      cases lifecycle : i.lifecycle <;> simp
  enabled on := by
    subst on
    exact effect.lifecycle_of_enabled
  disabled off := by
    subst off
    cases effect
    rw [Interface.lifecycle_disabled]
    cases lifecycle : i.lifecycle <;> simp
  shut down := by
    subst down
    cases effect
    exact Interface.lifecycle_shut i

end Effect

end Modem.Signal
