import Modem.Proofs.Session.Finality
import Modem.Proofs.Session.Mirror
import Modem.Proofs.Signal.Export

/-! # The object over a whole run

The object is created once and withdrawn at most once. In between it is exported until that
succeeds, and never again afterwards. All this is about the whole history: the state that each deed
finds stands for what the deeds before it have done. -/

namespace Modem.Session

open Signal

/-! ## Deeds -/

namespace Deed

/-- What has come of the exports of a deed, in order. -/
def exports (d : Deed) : List (Option Fault) := Signal.exports d.turns

theorem length_exports_le (d : Deed) :
    d.exports.length ≤ (d.found.exportsBy d.operation).toNat := by
  rw [exports, length_exports, ← Interface.count_exportObject_callsOf _ d.turns]
  exact d.calls_begin_callsOf.sublist.count_le _

theorem count_unexportObject_le (d : Deed) :
    (Signal.calls d.turns).count .unexportObject ≤ (d.found.unexportsBy d.operation).toNat := by
  rw [← Interface.count_unexportObject_callsOf _ d.turns]
  exact d.calls_begin_callsOf.sublist.count_le _

theorem exportsBy_of_exports {d : Deed} (exports : d.exports ≠ []) :
    d.found.exportsBy d.operation = true := by
  have made := d.length_exports_le
  cases exporting : d.found.exportsBy d.operation with
  | true => rfl
  | false =>
    rw [exporting] at made
    exact absurd (List.length_eq_zero_iff.1 (Nat.le_zero.1 made)) exports

end Deed

/-! ## Histories -/

namespace History

variable {config : Config} {supported : Bool} {deeds : List Deed} {last : Interface}

/-- The interface is as it has been built until some deed brings it up or shuts it down. -/
theorem lifecycle_eq_uninitialized_iff (history : History (.fresh config supported) deeds last) :
    last.lifecycle = .uninitialized ↔
      ∀ d ∈ deeds, d.operation ≠ .serve .bringUp ∧ d.operation ≠ .serve .shutDown := by
  induction history with
  | nil => simp [Interface.fresh]
  | @cons earlier d i answer before expected ended ih =>
    have step := (Deed.effect ended).1.lifecycle_eq_uninitialized_iff before.coherent
    rw [step, ih, List.forall_mem_cons, and_comm]

/-- What is there to be created: nothing has brought the interface up or shut it down yet. -/
theorem creates_iff {d : Deed} (history : History (.fresh config supported) deeds d.found) :
    d.creates = true ↔ d.operation = .serve .bringUp ∧
      ∀ e ∈ deeds, e.operation ≠ .serve .bringUp ∧ e.operation ≠ .serve .shutDown := by
  have lacking : d.found.lifecycle ≠ .shutDown ∧ d.found.reporting.attached = false ↔
      d.found.lifecycle = .uninitialized := by
    rw [history.coherent.attached_eq]
    cases d.found.lifecycle <;> simp [Lifecycle.present]
  rw [Deed.creates, Interface.createsBy_iff, lacking, history.lifecycle_eq_uninitialized_iff]

/-- The interface counts as exported from the first export that has succeeded to the shutdown. -/
theorem exported_iff (history : History (.fresh config supported) deeds last) :
    last.exported = true ↔
      (∃ d ∈ deeds, none ∈ d.exports) ∧ ∀ d ∈ deeds, d.operation ≠ .serve .shutDown := by
  induction history with
  | nil => simp [Interface.fresh]
  | @cons earlier d i answer before expected ended ih =>
    have ends := d.leads
    rw [ended] at ends
    have step : i.exported = true ↔
        d.operation ≠ .serve .shutDown ∧ (d.found.exported = true ∨ none ∈ d.exports) :=
      Interface.always_exported d.found before.coherent d.operation d.turns (i, answer) ends
    have unshut : none ∈ d.exports → ∀ e ∈ earlier, e.operation ≠ .serve .shutDown := by
      intro exported e mem shut
      have exporting := Deed.exportsBy_of_exports (List.ne_nil_of_mem exported)
      have gone := before.lifecycle_eq_shutDown_iff.2 ⟨e, mem, shut⟩
      exact (Interface.exportsBy_iff.1 exporting).2.1 gone
    rw [step, ih, List.forall_mem_cons]
    constructor
    · rintro ⟨here, ⟨⟨e, mem, exported⟩, others⟩ | exported⟩
      · exact ⟨⟨e, List.mem_cons_of_mem _ mem, exported⟩, here, others⟩
      · exact ⟨⟨d, List.mem_cons_self, exported⟩, here, unshut exported⟩
    · rintro ⟨⟨e, mem, exported⟩, here, others⟩
      rcases List.mem_cons.1 mem with rfl | old
      · exact ⟨here, .inr exported⟩
      · exact ⟨here, .inl ⟨⟨e, old, exported⟩, others⟩⟩

end History

/-! ## What one deed may do -/

/-- What a deed does to the object, by what the deeds before it have done. -/
structure Deed.KeepsProtocol (supported : Bool) (earlier : List Deed) (d : Deed) : Prop where
  /-- The first bring-up before any shutdown creates the object, and nothing else does. -/
  created : ∀ more result, d.rest.Ends more result →
    (.note .created ∈ d.turns ++ more ↔ d.operation = .serve .bringUp ∧
      ∀ e ∈ earlier, e.operation ≠ .serve .bringUp ∧ e.operation ≠ .serve .shutDown)
  /-- Only bringing up a device that can be queried exports the object, and only where no export has
  succeeded. Before that the object was shown nothing and told the stored rate. -/
  exports : ∀ before fault after, d.turns = before ++ .call .exportObject fault :: after →
    let told := (Signal.calls before).reverse ++ earlier.flatMap Deed.calls
    d.operation = .serve .bringUp ∧ supported = true ∧
      told.findSome? Call.shown? = some .empty ∧
      told.findSome? Call.rate? = some d.found.status.rate ∧
      Signal.exports before = [] ∧ ∀ e ∈ earlier, none ∉ e.exports
  /-- As long as no export has succeeded, bringing the interface up clears it, exports it once more,
  and answers what has come of that. -/
  retries : d.operation = .serve .bringUp → supported = true →
    (∀ e ∈ earlier, e.operation ≠ .serve .shutDown) → (∀ e ∈ earlier, none ∉ e.exports) →
    ∀ more left answer, d.rest.Ends more (left, answer) →
      Signal.calls (d.turns ++ more) =
        (if d.creates then [.setRate d.found.status.rate] else []) ++
          [.publish .empty, .exportObject] ∧
      left.status.shown = .empty ∧
      ∃ fault, Signal.exports (d.turns ++ more) = [fault] ∧ answer = fault.elim (.ok ()) .error
  /-- The first shutdown takes the export back if one has succeeded, and nothing else does. -/
  unexported : ∀ more result, d.rest.Ends more result →
    (.unexportObject ∈ Signal.calls (d.turns ++ more) ↔ d.operation = .serve .shutDown ∧
      (∀ e ∈ earlier, e.operation ≠ .serve .shutDown) ∧ ∃ e ∈ earlier, none ∈ e.exports)

namespace Deed

variable {config : Config} {supported : Bool} {earlier : List Deed} {d : Deed}

theorem mem_created_iff (history : History (.fresh config supported) earlier d.found)
    {more : List Turn} {result : Interface × Answer} (ends : d.rest.Ends more result) :
    .note .created ∈ d.turns ++ more ↔ d.operation = .serve .bringUp ∧
      ∀ e ∈ earlier, e.operation ≠ .serve .bringUp ∧ e.operation ≠ .serve .shutDown := by
  have times : (d.turns ++ more).count (.note .created) = d.creates.toNat :=
    d.found.creates_carryOut d.operation _ _ (d.leads.trans ends)
  rw [← history.creates_iff, ← List.count_pos_iff, times]
  cases d.creates <;> simp

/-- What comes before the last item is told by any beginning that has got as far as the item. -/
theorem eq_of_prefix_concat {α : Type} {c : α} {xs ys zs : List α}
    (begins : xs ++ c :: ys <+: zs ++ [c]) (last : c ∉ zs) : xs = zs := by
  induction zs generalizing xs with
  | nil =>
    cases xs with
    | nil => rfl
    | cons x xs => simp at begins
  | cons z zs ih =>
    obtain ⟨other, later⟩ : c ≠ z ∧ c ∉ zs := by simpa using last
    cases xs with
    | nil => exact absurd (List.cons_prefix_cons.1 begins).1 other
    | cons x xs =>
      obtain ⟨rfl, rest⟩ := List.cons_prefix_cons.1 begins
      rw [ih rest later]

/-- The calls of a deed that exports, up to the export. -/
theorem calls_before_export {before after : List Turn} {fault : Option Fault}
    (turns : d.turns = before ++ .call .exportObject fault :: after) :
    Signal.calls before =
      (if d.found.reporting.attached then [] else [.setRate d.found.status.rate]) ++
        [.publish .empty] := by
  have exporting : d.found.exportsBy d.operation = true := by
    apply exportsBy_of_exports
    rw [exports, turns]
    simp
  obtain ⟨bringUp, here, supported, unexported⟩ := Interface.exportsBy_iff.1 exporting
  have made := d.calls_begin_callsOf
  rw [bringUp, turns] at made
  have whole : d.found.callsOf (before ++ .call .exportObject fault :: after) (.serve .bringUp) =
      ((if d.found.reporting.attached then [] else [.setRate d.found.status.rate]) ++
        [.publish .empty]) ++ [.exportObject] := by
    simp [Interface.callsOf, here, supported, unexported, Interface.status]
  rw [whole, calls_append, calls_call] at made
  refine eq_of_prefix_concat made ?_
  cases d.found.reporting.attached <;> simp

theorem keepsProtocol (history : History (.fresh config supported) earlier d.found) :
    d.KeepsProtocol supported earlier where
  created more result ends := mem_created_iff history ends
  exports before fault after turns := by
    have exported : d.exports ≠ [] := by
      rw [exports, turns]
      simp
    obtain ⟨bringUp, here, can, unexported⟩ :=
      Interface.exportsBy_iff.1 (exportsBy_of_exports exported)
    have calls := calls_before_export turns
    have once : Signal.exports before = [] := by
      rw [← List.length_eq_zero_iff, length_exports, calls]
      cases d.found.reporting.attached <;> simp
    refine ⟨bringUp, history.supported_eq ▸ can, ?_, ?_, once, ?_⟩
    · simp [calls, List.findSome?_cons, Call.shown?]
    · rw [calls]
      cases attached : d.found.reporting.attached with
      | true =>
        have told := history.rate_told (history.created_of_attached attached)
        simpa [List.findSome?_cons, Call.rate?] using told
      | false => simp [List.findSome?_cons, Call.rate?]
    · intro e mem success
      have unshut : ∀ e ∈ earlier, e.operation ≠ .serve .shutDown := by
        intro e mem shut
        exact here (history.lifecycle_eq_shutDown_iff.2 ⟨e, mem, shut⟩)
      rw [history.exported_iff.2 ⟨⟨e, mem, success⟩, unshut⟩] at unexported
      cases unexported
  retries bringUp can unshut unexported more left answer ends := by
    have here : d.found.lifecycle ≠ .shutDown := by
      intro gone
      obtain ⟨e, mem, shut⟩ := history.lifecycle_eq_shutDown_iff.1 gone
      exact unshut e mem shut
    have supported : d.found.reporting.supported = true := history.supported_eq.trans can
    have idle : d.found.exported = false := by
      cases exported : d.found.exported with
      | false => rfl
      | true =>
        obtain ⟨⟨e, mem, success⟩, -⟩ := history.exported_iff.1 exported
        exact absurd success (unexported e mem)
    have whole := d.leads.trans ends
    rw [bringUp] at whole
    obtain ⟨fault, exported, result⟩ := d.found.always_bringUp_exports
      (Interface.exportsBy_iff.2 ⟨rfl, here, supported, idle⟩) _ _ whole
    refine ⟨?_, ?_, fault, exported, ?_⟩
    · rw [(effect_of_ends ends).2, bringUp]
      cases attached : d.found.reporting.attached <;>
        simp [Interface.callsOf, creates, Interface.createsBy, bringUp, here, supported, idle,
          attached, Interface.status]
    · cases fault <;>
        simp_all [Interface.exportedWith, Interface.status, Reporting.cleared]
    · cases fault <;> simp_all [Interface.exportedWith]
  unexported more result ends := by
    have called : .unexportObject ∈ Signal.calls (d.turns ++ more) ↔
        d.found.unexportsBy d.operation = true := by
      rw [← List.count_pos_iff, (effect_of_ends ends).2, Interface.count_unexportObject_callsOf]
      cases d.found.unexportsBy d.operation <;> simp
    rw [called, Interface.unexportsBy_iff, history.exported_iff]
    constructor
    · rintro ⟨shutDown, -, success, unshut⟩
      exact ⟨shutDown, unshut, success⟩
    · rintro ⟨shutDown, unshut, success⟩
      refine ⟨shutDown, ?_, success, unshut⟩
      intro gone
      obtain ⟨e, mem, shut⟩ := history.lifecycle_eq_shutDown_iff.1 gone
      exact unshut e mem shut

end Deed

/-! ## Whole runs -/

/-- Reads off what has come of each export. -/
def exporting : Reader (Option Fault) where
  read
    | .call .exportObject fault => some fault
    | _ => none
  line _ := rfl
  authorize _ := rfl
  query _ := rfl

/-- What has come of the exports, the latest first. -/
def World.exports (w : World) : List (Option Fault) := exporting.world w

section

variable {supported : Bool} {deeds : List Deed}

/-- If every deed keeps to the protocol, the object is withdrawn at most once. -/
theorem unexports_le_one
    (kept : ∀ later d earlier, deeds = later ++ d :: earlier → d.KeepsProtocol supported earlier) :
    (deeds.flatMap Deed.calls).count .unexportObject ≤ 1 := by
  induction deeds with
  | nil => simp
  | cons d rest ih =>
    have single : d.calls.count .unexportObject ≤ 1 := by
      rw [Deed.calls, List.count_reverse]
      exact Nat.le_trans d.count_unexportObject_le (Bool.toNat_le _)
    rw [List.flatMap_cons, List.count_append]
    by_cases withdraws : .unexportObject ∈ Signal.calls d.turns
    · obtain ⟨more, result, ends⟩ := d.rest.exists_ends
      have called : .unexportObject ∈ Signal.calls (d.turns ++ more) := by
        rw [calls_append]
        exact List.mem_append_left _ withdraws
      obtain ⟨-, unshut, -⟩ := ((kept [] d rest rfl).unexported more result ends).1 called
      have none : (rest.flatMap Deed.calls).count .unexportObject = 0 := by
        rw [List.count_eq_zero, List.mem_flatMap]
        rintro ⟨e, mem, again⟩
        have counted := e.count_unexportObject_le
        have idle : e.found.unexportsBy e.operation = false := by
          cases unexports : e.found.unexportsBy e.operation with
          | false => rfl
          | true => exact absurd (Interface.unexportsBy_iff.1 unexports).1 (unshut e mem)
        rw [idle] at counted
        exact List.count_eq_zero.1 (Nat.le_zero.1 counted) (List.mem_reverse.1 again)
      omega
    · have none : d.calls.count .unexportObject = 0 := by
        rw [Deed.calls, List.count_reverse, List.count_eq_zero]
        exact withdraws
      have others := ih fun later e earlier split =>
        kept (d :: later) e earlier (by rw [split]; rfl)
      omega

theorem exists_of_exports_ne_nil {turns : List Turn} (exports : Signal.exports turns ≠ []) :
    ∃ before fault after, turns = before ++ .call .exportObject fault :: after := by
  obtain ⟨fault, mem⟩ := List.exists_mem_of_ne_nil _ exports
  obtain ⟨turn, here, same⟩ := List.mem_filterMap.1 mem
  have turn_eq : turn = .call .exportObject fault := by
    cases turn with
    | call c other => cases c <;> simp_all [Turn.export?]
    | _ => cases same
  obtain ⟨before, after, split⟩ := List.append_of_mem here
  exact ⟨before, fault, after, turn_eq ▸ split⟩

/-- If every deed keeps to the protocol, no export but the latest has succeeded. -/
theorem none_not_mem_tail
    (kept : ∀ later d earlier, deeds = later ++ d :: earlier → d.KeepsProtocol supported earlier) :
    none ∉ (deeds.flatMap fun d => d.exports.reverse).tail := by
  induction deeds with
  | nil => simp
  | cons d rest ih =>
    have single : d.exports.length ≤ 1 := Nat.le_trans d.length_exports_le (Bool.toNat_le _)
    rw [List.flatMap_cons]
    rcases exported : d.exports with _ | ⟨fault, _ | ⟨second, others⟩⟩
    · exact ih fun later e earlier split => kept (d :: later) e earlier (by rw [split]; rfl)
    · have some : Signal.exports d.turns ≠ [] := by
        rw [← Deed.exports, exported]
        exact List.cons_ne_nil _ _
      obtain ⟨before, fault', after, turns⟩ := exists_of_exports_ne_nil some
      obtain ⟨-, -, -, -, -, unexported⟩ := (kept [] d rest rfl).exports before fault' after turns
      simpa using unexported
    · simp [exported] at single

end

namespace Account

variable {config : Config} {supported : Bool} {stage : Stage} {a : Account}

theorem Reachable.exports (reachable : Reachable config supported stage a) :
    a.service.world.exports = a.deeds.flatMap fun d => d.exports.reverse := by
  have turns : exporting.turns = Signal.exports := by
    funext turns
    unfold Reader.turns Signal.exports
    congr
    funext turn
    cases turn with
    | note n => cases n <;> rfl
    | call c fault => cases c <;> rfl
    | _ => rfl
  rw [World.exports, exporting.world_eq reachable, Reader.deeds, turns]
  rfl

theorem Reachable.creations_le (reachable : Reachable config supported stage a) :
    a.service.world.creations ≤ 1 := by
  rw [reachable.creations]
  refine Nat.le_trans ?_ (creations_le_one reachable)
  induction a.deeds with
  | nil => exact Nat.le_refl 0
  | cons d rest ih =>
    have single := d.creations_le
    rw [List.flatMap_cons, creations_append, List.countP_cons]
    cases creates : d.creates with
    | true =>
      rw [creates, Bool.toNat_true] at single
      rw [if_pos rfl]
      omega
    | false =>
      rw [creates, Bool.toNat_false] at single
      simp only [Bool.false_eq_true, if_false]
      omega

/-- The object is created once, by the first bring-up before any shutdown. It is told its rate and
shown nothing before each export, exported until that has succeeded and never again afterwards, and
withdrawn once, by the shutdown, if it has been exported. -/
theorem object_keeps_protocol (reachable : Reachable config supported stage a) :
    a.service.world.creations ≤ 1 ∧
    a.service.world.calls.count .unexportObject ≤ 1 ∧
    none ∉ a.service.world.exports.tail ∧
    a.service.world.exports = (a.deeds.flatMap fun d => d.exports.reverse) ∧
    ∀ later d earlier, a.deeds = later ++ d :: earlier → d.KeepsProtocol supported earlier := by
  have kept : ∀ later d earlier, a.deeds = later ++ d :: earlier →
      d.KeepsProtocol supported earlier :=
    fun later d earlier deeds => Deed.keepsProtocol (reachable.found deeds).1
  refine ⟨reachable.creations_le, ?_, ?_, reachable.exports, kept⟩
  · rw [reachable.tracks.calls]
    exact unexports_le_one kept
  · rw [reachable.exports]
    exact none_not_mem_tail kept

/-- The first export fails. The interface is brought up again twice, and shut down twice. -/
def exportedOnRetry : Account :=
  (fresh {} true .serving
    { obliging .enabled {} with
      bus := fun count _ =>
        { fault := if count = 2 then some (.failed "busy") else none } }).afterAll
    [.send 0 .bringUp, .take .request, .send 1 (.setup 5 ⟨":1.5"⟩), .take .request,
      .take (.check 1), .send 2 .bringUp, .take .request, .send 3 .bringUp, .take .request,
      .send 4 .shutDown, .take .request, .send 5 .shutDown, .take .request, .send 6 .bringUp,
      .take .request]

theorem reachable_exportedOnRetry : Reachable {} true .serving exportedOnRetry :=
  reachable_afterAll rfl (by decide +kernel)

/-- Of the five requests that could have exported or withdrawn the object, those that had nothing to
do have said nothing, and the rate that is announced is not announced again. -/
theorem calls_of_exportedOnRetry :
    exportedOnRetry.service.world.creations = 1 ∧
      exportedOnRetry.service.world.exports = [none, some (.failed "busy")] ∧
      none ∉ exportedOnRetry.service.world.exports.tail ∧
      exportedOnRetry.service.world.calls.reverse =
        [.setRate 0, .publish .empty, .exportObject, .setRate 5, .publish .empty, .exportObject,
          .publish .empty, .unexportObject] ∧
      exportedOnRetry.service.world.calls.count .unexportObject ≤ 1 := by
  obtain ⟨-, withdrawn, last, -, -⟩ := object_keeps_protocol reachable_exportedOnRetry
  exact ⟨by decide +kernel, by decide +kernel, last, by decide +kernel, withdrawn⟩

end Account

end Modem.Session
