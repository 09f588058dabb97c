import Modem.Proofs.Signal.Written

/-! # What the object is told

The last snapshot among the calls of an operation is the one that the operation leaves. An object
that counts as exported has been exported, and nothing has been said to the contrary since. -/

namespace Modem.Signal

namespace Call

/-- The snapshot that a call publishes. -/
def shown? : Call → Option Snapshot
  | publish values => some values
  | _ => none

/-- Whether the object is exported from a call on, if the call says so. -/
def exports? : Call → Option Bool
  | exportObject => some true
  | unexportObject => some false
  | _ => none

end Call

namespace Interface

variable {i : Interface}

/-! ## Snapshots -/

theorem shown_of_unattached (sound : i.reporting.Sound)
    (unattached : i.reporting.attached = false) : i.reporting.shown = .empty := by
  apply sound.cleared
  cases running : i.reporting.timer with
  | none => rfl
  | some timer => simp [sound.attached (by simp [running])] at unattached

/-- What is written is shown, also where there is nothing yet to show it on. -/
theorem shown_showing (sound : i.reporting.Sound) {values : Snapshot}
    (present : values = .empty ∨ i.reporting.attached = true) :
    ((i.reporting.showing values).reverse.findSome? Call.shown?).getD i.reporting.shown =
      values := by
  cases attached : i.reporting.attached with
  | true => simp [Reporting.showing, attached, List.findSome?_cons, Call.shown?]
  | false =>
    have empty : values = .empty := by simpa [attached] using present
    simp [Reporting.showing, attached, shown_of_unattached sound attached, empty]

theorem shown_setupCalls (i : Interface) (granted : Option UInt32) (shown : Snapshot) :
    ((match granted with
      | some rate => i.setupCalls rate
      | none => []).reverse.findSome? Call.shown?).getD shown =
      (if i.reporting.attached && granted = some 0 then some .empty else none).getD shown := by
  cases granted with
  | none => simp
  | some rate =>
    cases attached : i.reporting.attached <;> by_cases off : rate = 0 <;>
      simp [setupCalls, attached, off, List.findSome?_cons, Call.shown?]

/-- The last snapshot that an operation publishes is the one that it writes. -/
theorem shown_callsOf (sound : i.reporting.Sound) (turns : List Turn) {operation : Operation}
    (expected : ∀ query, operation.answered? = some query → query ∈ i.reporting.inFlight) :
    ((i.callsOf turns operation).reverse.findSome? Call.shown?).getD i.reporting.shown =
      (i.writtenBy turns (fun query => query.generation = i.reporting.generation)
        operation).getD i.reporting.shown := by
  have emptied := shown_showing sound (.inl (Eq.refl Snapshot.empty))
  cases operation with
  | serve request =>
    cases request with
    | bringUp =>
      by_cases gone : i.lifecycle = .shutDown
      · simp [callsOf, writtenBy, gone]
      · cases attached : i.reporting.attached <;>
          cases clears : i.reporting.supported && !i.exported <;>
          simp [callsOf, writtenBy, gone, attached, clears, List.findSome?_cons, Call.shown?]
    | enable =>
      cases can : i.canEnable <;> by_cases off : i.reporting.rate = 0 <;>
        simp [callsOf, writtenBy, tornDownBy, can, off, List.findSome?_cons, Call.shown?]
    | disable =>
      by_cases gone : i.lifecycle = .shutDown
      · simp [callsOf, writtenBy, tornDownBy, gone]
      · simpa [callsOf, writtenBy, tornDownBy, gone] using emptied
    | shutDown =>
      by_cases gone : i.lifecycle = .shutDown
      · simp [callsOf, writtenBy, tornDownBy, gone]
      · cases exported : i.exported <;>
          simpa [callsOf, writtenBy, tornDownBy, gone, exported, List.findSome?_cons,
            Call.shown?] using emptied
    | setup rate who => exact shown_setupCalls i _ _
    | status => exact shown_setupCalls i none _
  | conclude rate refusal => exact shown_setupCalls i _ _
  | tick => simp [callsOf, writtenBy, tornDownBy, Operation.granted?]
  | loaded query result =>
    by_cases current : query.generation = i.reporting.generation
    · have attached := sound.attached_of_current (expected query rfl) current
      simpa [callsOf, writtenBy, current] using shown_showing sound (.inr attached)
    · simp [callsOf, writtenBy, current]

end Interface

/-! ## Exports -/

namespace Interface

variable (i : Interface)

theorem exported_setUp (rate : UInt32) (modem : State) (now : Nat) :
    (i.setUp rate modem now).1.exported = i.exported := by
  unfold setUp
  split <;> rfl

theorem exported_enabled (modem : State) (now : Nat) :
    (i.enabled modem now).1.exported = i.exported := by
  unfold enabled
  split
  · rfl
  · split <;> rfl

theorem exported_disabled : i.disabled.1.exported = i.exported := by
  unfold disabled
  split <;> rfl

theorem exports_showing (r : Reporting) (values : Snapshot) :
    (r.showing values).reverse.findSome? Call.exports? = none := by
  unfold Reporting.showing
  split <;> rfl

theorem exports_setupCalls (granted : Option UInt32) :
    (match granted with
      | some rate => i.setupCalls rate
      | none => []).reverse.findSome? Call.exports? = none := by
  cases granted with
  | none => rfl
  | some rate =>
    cases attached : i.reporting.attached <;> by_cases off : rate = 0 <;>
      simp [setupCalls, attached, off, List.findSome?_cons, Call.exports?]

end Interface

namespace Effect

variable {i : Interface} {turns : List Turn} {operation : Operation} {result : Interface × Answer}

/-- What counts as exported has an object. -/
theorem attached_of_exported (effect : Effect i turns operation result)
    (before : i.exported = true → i.reporting.attached = true)
    (exported : result.1.exported = true) : result.1.reporting.attached = true := by
  cases effect with
  | bringUp fault =>
    rw [Interface.reporting_broughtUp]
    by_cases gone : i.lifecycle = .shutDown
    · simpa [gone] using before (by simpa [Interface.broughtUp, gone] using exported)
    · simp [gone]
  | enable state now _ =>
    rw [Interface.exported_enabled] at exported
    rw [Interface.reporting_enabled]
    split
    · simpa using before exported
    · exact before exported
  | disable =>
    rw [Interface.exported_disabled] at exported
    rw [Interface.reporting_disabled]
    split
    · exact before exported
    · exact before exported
  | shutDown =>
    by_cases gone : i.lifecycle = .shutDown
    · simpa [Interface.shut, gone] using before (by simpa [Interface.shut, gone] using exported)
    · simp [Interface.shut, gone] at exported
  | refuse => exact before exported
  | setup rate who state now _ _ | grant rate state now _ =>
    rw [Interface.exported_setUp] at exported
    rw [Interface.reporting_setUp, if_pos (before exported)]
    simpa using before exported
  | status | reject => exact before exported
  | tick now =>
    have attached := before exported
    simp only [Interface.tick, Reporting.tick]
    split <;> simpa using attached
  | loaded query result => simpa using before exported

/-- Whoever has an object has it from before or has just created it. -/
theorem attached_or_creates (effect : Effect i turns operation result)
    (attached : result.1.reporting.attached = true) :
    i.reporting.attached = true ∨ i.createsBy operation = true := by
  cases effect with
  | bringUp fault =>
    by_cases gone : i.lifecycle = .shutDown
    · exact .inl (by simpa [Interface.broughtUp, gone] using attached)
    · cases before : i.reporting.attached with
      | true => exact .inl rfl
      | false => exact .inr (by simp [Interface.createsBy, gone, before])
  | enable state now _ =>
    rw [Interface.reporting_enabled] at attached
    refine .inl ?_
    split at attached
    · simpa using attached
    · exact attached
  | disable =>
    rw [Interface.reporting_disabled] at attached
    refine .inl ?_
    split at attached
    · exact attached
    · exact attached
  | shutDown =>
    by_cases gone : i.lifecycle = .shutDown
    · exact .inl (by simpa [Interface.shut, gone] using attached)
    · simp [Interface.shut, gone] at attached
  | refuse => exact .inl attached
  | setup rate who state now _ _ | grant rate state now _ =>
    rw [Interface.reporting_setUp] at attached
    split at attached
    next before => exact .inl before
    · exact .inl attached
  | status | reject => exact .inl attached
  | tick now =>
    refine .inl ?_
    simp only [Interface.tick, Reporting.tick] at attached
    split at attached
    · exact attached
    · simpa using attached
  | loaded query result => exact .inl (by simpa using attached)

/-- What counts as exported has been exported by the operation or before it, and nothing has been
said to the contrary since. -/
theorem exports (effect : Effect i turns operation result) (exported : result.1.exported = true) :
    ((i.callsOf turns operation).reverse.findSome? Call.exports?).getD i.exported = true := by
  cases effect with
  | bringUp fault =>
    by_cases gone : i.lifecycle = .shutDown
    · simpa [Interface.broughtUp, Interface.callsOf, gone] using exported
    · cases attached : i.reporting.attached <;>
        cases supported : i.reporting.supported <;> cases before : i.exported <;>
        simp_all [Interface.broughtUp, Interface.opened, Interface.callsOf, List.findSome?_cons,
          Call.exports?]
  | enable state now _ =>
    rw [Interface.exported_enabled] at exported
    cases off : i.canEnable && decide (i.reporting.rate = 0) <;>
      simp [Interface.callsOf, off, List.findSome?_cons, Call.exports?, exported]
  | disable =>
    rw [Interface.exported_disabled] at exported
    by_cases gone : i.lifecycle = .shutDown
    · simpa [Interface.callsOf, gone] using exported
    · simpa [Interface.callsOf, gone, Interface.exports_showing] using exported
  | shutDown =>
    by_cases gone : i.lifecycle = .shutDown
    · simpa [Interface.shut, Interface.callsOf, gone] using exported
    · simp [Interface.shut, gone] at exported
  | refuse rate who =>
    exact (congrArg (Option.getD · i.exported) (i.exports_setupCalls _)).trans exported
  | setup rate who =>
    rw [Interface.exported_setUp] at exported
    exact (congrArg (Option.getD · i.exported) (i.exports_setupCalls _)).trans exported
  | status => exact exported
  | reject rate => exact exported
  | grant rate state now =>
    rw [Interface.exported_setUp] at exported
    exact (congrArg (Option.getD · i.exported) (i.exports_setupCalls (some rate))).trans exported
  | tick now => exact exported
  | loaded query result =>
    by_cases current : query.generation = i.reporting.generation
    · simpa [Interface.callsOf, current, Interface.exports_showing] using exported
    · simpa [Interface.callsOf, current] using exported

end Effect

end Modem.Signal
