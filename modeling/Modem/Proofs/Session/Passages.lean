import Modem.Proofs.Session.Finality
import Modem.Proofs.Signal.Passage

/-! # The state along a run

Whatever is sent, and in whatever order it is handled, the state of the interface agrees with the
object, the export and the device, and it changes only at the end of the one deed that leads there.
An export that fails or a device that cannot be queried makes no difference. -/

namespace Modem.Session

open Signal

/-! ## Histories -/

namespace History

variable {config : Config} {supported : Bool} {deeds : List Deed} {last : Interface}

theorem supported_of_enabled (history : History (.fresh config supported) deeds last) :
    last.lifecycle = .enabled ∨ last.lifecycle = .disabled → last.reporting.supported = true := by
  induction history with
  | nil => simp [Interface.fresh]
  | cons before expected ended ih => exact (Deed.effect ended).1.supported_of_enabled expected ih

theorem consistent (history : History (.fresh config supported) deeds last) : last.Consistent :=
  history.coherent.consistent history.supported_of_enabled

/-- Each deed of a history has led from one state to the next in its own way. -/
theorem proceeds (history : History (.fresh config supported) deeds last) :
    ∀ d ∈ deeds, ∃ left answer, d.rest = .done (left, answer) ∧
      d.found.Proceeds d.operation left answer := by
  induction history with
  | nil => exact fun d mem => absurd mem List.not_mem_nil
  | @cons earlier d i answer before expected ended ih =>
    have latest := (Deed.effect ended).1.proceeds before.coherent
    exact List.forall_mem_cons.2 ⟨⟨i, answer, ended, latest⟩, ih⟩

end History

namespace Account

variable {config : Config} {supported : Bool} {stage : Stage} {a : Account}

/-! ## Moves -/

/-- A move changes the state only by ending a deed that leads there. -/
theorem Reachable.passage {m : Move} (reachable : Reachable config supported stage a)
    (allowed : a.Allows m) :
    (a.after m).service.interface.lifecycle = a.service.interface.lifecycle ∨
      ∃ d, (a.after m).ended = d :: a.ended ∧
        Lifecycle.Passage d.operation a.service.interface.lifecycle
          (a.after m).service.interface.lifecycle := by
  rcases reachable.ends allowed with ⟨same, -⟩ | ⟨d, answer, ended, found, expected, left⟩
  · exact .inl (congrArg Interface.lifecycle same)
  · have coherent := reachable.ended.coherent
    rw [← found] at coherent ⊢
    exact ((Deed.effect left).1.passage coherent).imp_right fun passage => ⟨d, ended, passage⟩

/-- Who asks to disable or to shut down is refused only by a service that has stopped. -/
theorem Reachable.answer_of_off (reachable : Reachable config supported stage a) {reply : Reply}
    (mem : reply ∈ a.service.replies)
    (off : ⟨reply.caller, .disable⟩ ∈ a.sent ∨ ⟨reply.caller, .shutDown⟩ ∈ a.sent) :
    reply.answer = .ok () ∨
      a.service.stage = .stopped ∧ reply.answer = .error Service.gone := by
  rcases reachable.replied reply mem with gone | ⟨d, left, here, purpose, ended⟩
  · exact .inr gone
  refine .inl ?_
  have requested := reachable.requested
  have owed := requested.owed d (mem_deeds_of_ended here)
  have operation : d.operation = .serve .disable ∨ d.operation = .serve .shutDown := by
    rw [purpose] at owed
    generalize d.operation = operation at owed ⊢
    cases owed with
    | serve asked =>
      refine off.imp (fun sent => ?_) fun sent => ?_
      · rw [requested.unique asked sent]
      · rw [requested.unique asked sent]
    | conclude refusal asked =>
      rcases off with sent | sent
      · cases requested.unique asked sent
      · cases requested.unique asked sent
  obtain ⟨i, answer, ended', proceeds⟩ := reachable.ended.proceeds d here
  obtain ⟨-, rfl⟩ := Prod.mk.inj (Exchange.done.inj (ended.symm.trans ended'))
  exact proceeds.granted operation

/-- Between operations, the state says whether there is an object, an interface is enabled only on a
device that can be queried, and it is exported only where both are. Along a run the state changes
only at the end of a request that leads from the one state to the other. What is refused changes
nothing, except that an object that has been created stays, and a request to disable or to shut down
is refused only by a service that has stopped. -/
theorem lifecycle_follows_passages (reachable : Reachable config supported stage a) :
    (∀ deeds i, a.Moment deeds i → i.Consistent) ∧
    (∀ d ∈ a.ended, ∃ left answer, d.rest = .done (left, answer) ∧
      d.found.Proceeds d.operation left answer) ∧
    (∀ m, a.Allows m →
      (a.after m).service.interface.lifecycle = a.service.interface.lifecycle ∨
      ∃ d, (a.after m).ended = d :: a.ended ∧
        Lifecycle.Passage d.operation a.service.interface.lifecycle
          (a.after m).service.interface.lifecycle) ∧
    ∀ reply ∈ a.service.replies,
      ⟨reply.caller, .disable⟩ ∈ a.sent ∨ ⟨reply.caller, .shutDown⟩ ∈ a.sent →
      reply.answer = .ok () ∨
        a.service.stage = .stopped ∧ reply.answer = .error Service.gone :=
  ⟨fun _ _ moment => (reachable.history_of_moment moment).consistent, reachable.ended.proceeds,
    fun _ allowed => reachable.passage allowed, fun _ mem => reachable.answer_of_off mem⟩

/-- An interface is enabled although its export has failed, and somebody asks to disable it. -/
def enabledUnexported : Account :=
  (fresh {} true .serving
    { obliging .enabled {} with
      bus := fun _ call =>
        { fault := if call = .exportObject then some (.failed "") else none } }).afterAll
    [.send 0 .bringUp, .take .request, .send 1 .enable, .take .request, .send 2 .disable]

theorem reachable_enabledUnexported : Reachable {} true .serving enabledUnexported :=
  reachable_afterAll rfl (by decide +kernel)

theorem disabled_after_failed_export :
    enabledUnexported.service.interface.lifecycle = .enabled ∧
      enabledUnexported.service.interface.exported = false ∧
      (enabledUnexported.after (.take .request)).service.interface.Consistent ∧
      (enabledUnexported.after (.take .request)).service.replies.map
          (fun r => (r.caller, r.answer.isOk)) = [(2, true), (1, true), (0, false)] ∧
      ∃ d, (enabledUnexported.after (.take .request)).ended = d :: enabledUnexported.ended ∧
        Lifecycle.Passage d.operation .enabled .disabled := by
  have reachable := reachable_enabledUnexported
  have allowed : enabledUnexported.Allows (.take .request) := by decide +kernel
  have idle : (enabledUnexported.after (.take .request)).service.work = none :=
    Option.isNone_iff_eq_none.1 (by decide +kernel)
  have enabled : enabledUnexported.service.interface.lifecycle = .enabled := by decide +kernel
  have disabled : (enabledUnexported.after (.take .request)).service.interface.lifecycle =
      .disabled := by decide +kernel
  obtain ⟨-, -, along, -⟩ := lifecycle_follows_passages reachable
  obtain ⟨consistent, -⟩ :=
    lifecycle_follows_passages (reachable.run (Run.refl.step allowed))
  have passed := along _ allowed
  rw [enabled, disabled] at passed
  exact ⟨enabled, by decide +kernel, consistent _ _ (.idle idle), by decide +kernel,
    passed.resolve_left (by decide)⟩

end Account

end Modem.Session
