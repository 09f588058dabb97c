import Modem.Proofs.Signal.Lifecycle

/-! # Exports of the object

Only bringing the interface up exports the object, and only where that has not succeeded yet.
Whether it counts as exported afterwards depends on what has come of the call. -/

namespace Modem.Signal

open Exchange

/-! ## What comes of an export -/

/-- What has come of an export. -/
def Turn.export? : Turn → Option (Option Fault)
  | call .exportObject fault => some fault
  | _ => none

/-- What has come of the exports among some turns, in order. -/
def exports (turns : List Turn) : List (Option Fault) := turns.filterMap Turn.export?

@[simp]
theorem exports_nil : exports [] = [] := rfl

@[simp]
theorem exports_append (first second : List Turn) :
    exports (first ++ second) = exports first ++ exports second :=
  List.filterMap_append

@[simp]
theorem exports_call (c : Call) (fault : Option Fault) (turns : List Turn) :
    exports (.call c fault :: turns) =
      if c = .exportObject then fault :: exports turns else exports turns := by
  cases c <;> rfl

@[simp]
theorem exports_note (n : Note) (turns : List Turn) : exports (.note n :: turns) = exports turns :=
  rfl

theorem length_exports (turns : List Turn) :
    (exports turns).length = (calls turns).count .exportObject := by
  induction turns with
  | nil => rfl
  | cons turn rest ih =>
    cases turn with
    | call c fault => cases c <;> simp [ih]
    | _ => exact ih

namespace Interface

variable {i : Interface}

/-- Whether an operation exports the object. -/
def exportsBy (i : Interface) : Operation → Bool
  | .serve .bringUp => i.lifecycle ≠ .shutDown && i.reporting.supported && !i.exported
  | _ => false

/-- Whether an operation takes the export back. -/
def unexportsBy (i : Interface) : Operation → Bool
  | .serve .shutDown => i.lifecycle ≠ .shutDown && i.exported
  | _ => false

theorem exportsBy_iff {operation : Operation} :
    i.exportsBy operation = true ↔
      operation = .serve .bringUp ∧ i.lifecycle ≠ .shutDown ∧ i.reporting.supported = true ∧
        i.exported = false := by
  unfold exportsBy
  split
  · simp [and_assoc]
  next other =>
    simp only [Bool.false_eq_true, false_iff, not_and]
    intro bringUp
    exact absurd bringUp other

theorem unexportsBy_iff {operation : Operation} :
    i.unexportsBy operation = true ↔
      operation = .serve .shutDown ∧ i.lifecycle ≠ .shutDown ∧ i.exported = true := by
  unfold unexportsBy
  split
  · simp
  next other =>
    simp only [Bool.false_eq_true, false_iff, not_and]
    intro shutDown
    exact absurd shutDown other

theorem createsBy_iff {operation : Operation} :
    i.createsBy operation = true ↔
      operation = .serve .bringUp ∧ i.lifecycle ≠ .shutDown ∧ i.reporting.attached = false := by
  unfold createsBy
  split
  · simp
  next other =>
    simp only [Bool.false_eq_true, false_iff, not_and]
    intro bringUp
    exact absurd bringUp other

variable (i : Interface)

theorem count_exports? (calls : List Call) :
    (calls.filterMap Call.exports?).count true = calls.count .exportObject ∧
      (calls.filterMap Call.exports?).count false = calls.count .unexportObject := by
  induction calls with
  | nil => exact ⟨rfl, rfl⟩
  | cons c rest ih =>
    rw [List.filterMap_cons]
    cases c <;> simp [Call.exports?, ih]

/-- An operation exports at most once, or takes the export back at most once. -/
theorem exports_callsOf (turns : List Turn) (operation : Operation) :
    (i.callsOf turns operation).filterMap Call.exports? =
      if i.exportsBy operation then [true]
      else if i.unexportsBy operation then [false] else [] := by
  have silent : ∀ {calls : List Call}, calls.reverse.findSome? Call.exports? = none →
      calls.filterMap Call.exports? = [] := by
    intro calls none
    simpa using none
  have shows := silent (exports_showing i.reporting .empty)
  have grants := fun granted => silent (i.exports_setupCalls granted)
  cases operation with
  | serve request =>
    cases request with
    | bringUp =>
      by_cases gone : i.lifecycle = .shutDown
      · simp [callsOf, exportsBy, unexportsBy, gone]
      · cases attached : i.reporting.attached <;>
          cases exports : i.reporting.supported && !i.exported <;>
          simp [callsOf, exportsBy, unexportsBy, gone, attached, exports, List.filterMap_cons,
            Call.exports?]
    | enable =>
      cases off : i.canEnable && decide (i.reporting.rate = 0) <;>
        simp [callsOf, exportsBy, unexportsBy, off, Call.exports?]
    | disable =>
      by_cases gone : i.lifecycle = .shutDown <;>
        simp [callsOf, exportsBy, unexportsBy, gone, shows]
    | shutDown =>
      by_cases gone : i.lifecycle = .shutDown <;> cases exported : i.exported <;>
        simp [callsOf, exportsBy, unexportsBy, gone, exported, shows, Call.exports?]
    | setup rate who => exact grants _
    | status => rfl
  | conclude rate refusal => exact grants _
  | tick => rfl
  | loaded query result =>
    by_cases current : query.generation = i.reporting.generation
    · simpa [callsOf, exportsBy, unexportsBy, current] using
        silent (exports_showing i.reporting (Reporting.snapshotOf result))
    · simp [callsOf, exportsBy, unexportsBy, current]

theorem count_exportObject_callsOf (turns : List Turn) (operation : Operation) :
    (i.callsOf turns operation).count .exportObject = (i.exportsBy operation).toNat := by
  rw [← (count_exports? _).1, exports_callsOf]
  cases i.exportsBy operation <;> cases i.unexportsBy operation <;> rfl

theorem count_unexportObject_callsOf (turns : List Turn) (operation : Operation) :
    (i.callsOf turns operation).count .unexportObject = (i.unexportsBy operation).toNat := by
  rw [← (count_exports? _).2, exports_callsOf]
  cases exporting : i.exportsBy operation with
  | true =>
    obtain ⟨rfl, -⟩ := exportsBy_iff.1 exporting
    rfl
  | false => cases i.unexportsBy operation <;> rfl

/-! ## Bringing the interface up -/

theorem always_exportCleared_exports :
    i.exportCleared.Always fun turns result =>
      ∃ fault, exports turns = [fault] ∧ result = i.exportedWith fault := by
  refine always_bind ((Reporting.always_clear _).mono fun turns r cleared => ?_)
  obtain ⟨rfl, shown⟩ := cleared
  have unexported : exports turns = [] := by
    rw [← List.length_eq_zero_iff, length_exports, shown]
    unfold Reporting.showing
    split <;> simp
  refine always_bind (always_call fun fault => always_done ?_)
  cases fault with
  | some fault => exact always_pure ⟨some fault, by simp [unexported], rfl⟩
  | none =>
    exact always_bind (always_log (always_pure ⟨none, by simp [unexported], rfl⟩))

/-- Where there is something to export, bringing the interface up exports it once and answers what
has come of that. -/
theorem always_bringUp_exports (exports : i.exportsBy (.serve .bringUp) = true) :
    i.bringUp.Always fun turns result =>
      ∃ fault, Signal.exports turns = [fault] ∧ result = i.opened.exportedWith fault := by
  obtain ⟨⟨here, supported⟩, unexported⟩ :
      (i.lifecycle ≠ .shutDown ∧ i.reporting.supported = true) ∧ i.exported = false := by
    simpa [exportsBy] using exports
  unfold bringUp
  simp only [here, if_false]
  refine always_bind ((always_create i).mono fun turns j created => ?_)
  obtain ⟨rfl, called⟩ := created
  have unexported' : Signal.exports turns = [] := by
    rw [← List.length_eq_zero_iff, length_exports, called]
    split <;> simp
  dsimp only
  rw [if_neg (by simp [supported]), if_neg (by simp [unexported])]
  refine (always_exportCleared_exports _).mono fun more result ends => ?_
  obtain ⟨fault, exported, rfl⟩ := ends
  exact ⟨fault, by rw [exports_append, unexported', exported]; rfl, rfl⟩

/-! ## What counts as exported -/

theorem exported_broughtUp_of_not_exports (kept : i.exportsBy (.serve .bringUp) = false)
    (fault : Option Fault) : (i.broughtUp fault).1.exported = i.exported := by
  unfold broughtUp
  split
  · rfl
  next here =>
    split
    · rfl
    next supported =>
      split
      · rfl
      next unexported => simp_all [exportsBy]

theorem exports_of_carryOut {turns : List Turn} {operation : Operation}
    {result : Interface × Answer} (kept : i.exportsBy operation = false)
    (ends : (i.carryOut operation).Ends turns result) : exports turns = [] := by
  have called := (always_carryOut i operation turns result ends).2
  rw [← List.length_eq_zero_iff, length_exports, called, count_exportObject_callsOf, kept]
  rfl

/-- Between operations, the interface counts as exported if some export has come to nothing bad and
it has not been shut down since. -/
theorem always_exported (coherent : i.Coherent) (operation : Operation) :
    (i.carryOut operation).Always fun turns result =>
      (result.1.exported = true ↔
        operation ≠ .serve .shutDown ∧ (i.exported = true ∨ none ∈ exports turns)) := by
  intro turns result ends
  cases exporting : i.exportsBy operation with
  | true =>
    obtain rfl : operation = .serve .bringUp := by
      unfold exportsBy at exporting
      split at exporting
      · rfl
      · cases exporting
    obtain ⟨fault, exported, rfl⟩ := always_bringUp_exports i exporting turns result ends
    have before : i.exported = false := by simp_all [exportsBy]
    cases fault <;> simp [exported, exportedWith, opened, before]
  | false =>
    have none := i.exports_of_carryOut exporting ends
    cases (always_carryOut i operation turns result ends).1 with
    | bringUp fault => simp [none, exported_broughtUp_of_not_exports i exporting]
    | enable state now _ => simp [none, exported_enabled]
    | disable => simp [none, exported_disabled]
    | shutDown =>
      unfold shut
      split
      next gone =>
        have unexported : i.exported ≠ true := by
          intro exported
          have attached := coherent.attached exported
          rw [coherent.attached_eq, gone] at attached
          cases attached
        simp [unexported]
      · simp
    | setup | grant => simp [none, exported_setUp]
    | _ => simp [none, tick]

end Interface

end Modem.Signal
