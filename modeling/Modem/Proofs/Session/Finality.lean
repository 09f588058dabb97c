import Modem.Proofs.Session.Creation
import Modem.Proofs.Session.Ended
import Modem.Proofs.Signal.Lifecycle

/-! # After the shutdown

Queries and authorizations can still be under way when the interface is shut down, and requests can
still arrive. They find an interface that is gone for good: nothing is said to the object any more,
nothing that can be seen changes, and every answer is fixed. -/

namespace Modem.Session

open Signal

/-! ## Histories of an interface that is gone -/

namespace History

variable {config : Config} {supported : Bool} {deeds : List Deed} {start middle last : Interface}

theorem append {earlier later : List Deed} (first : History start earlier middle)
    (onward : History middle later last) : History start (later ++ earlier) last := by
  induction onward with
  | nil => exact first
  | cons before expected ended ih => exact .cons ih expected ended

theorem coherent (history : History (.fresh config supported) deeds last) : last.Coherent := by
  induction history with
  | nil => exact Interface.coherent_fresh config supported
  | cons before expected ended ih => exact (Deed.effect ended).1.coherent ih expected

theorem supported_eq (history : History (.fresh config supported) deeds last) :
    last.reporting.supported = supported :=
  history.invariant (·.supported = supported) rfl
    fun same becomes => becomes.supported_eq.trans same

/-- The interface is shut down as soon as some deed has shut it down. -/
theorem lifecycle_eq_shutDown_iff (history : History (.fresh config supported) deeds last) :
    last.lifecycle = .shutDown ↔ ∃ d ∈ deeds, d.operation = .serve .shutDown := by
  induction history with
  | nil => simp [Interface.fresh]
  | @cons earlier d i answer before expected ended ih =>
    have shut := (Deed.effect ended).1.lifecycle_eq_shutDown_iff before.coherent
    rw [shut, ih]
    simp [or_comm]

theorem past (history : History (.fresh config supported) deeds last)
    (gone : last.lifecycle = .shutDown) : last.Over :=
  Interface.over_of_lifecycle gone history.coherent history.sound

/-- After a shutdown, each deed finds the interface gone, answers what is fixed, and leaves what can
be seen as it is. -/
theorem lasting {earlier later : List Deed}
    (first : History (.fresh config supported) earlier middle)
    (gone : middle.lifecycle = .shutDown) (onward : History middle later last) :
    last.status = middle.status ∧
      ∀ d ∈ later, d.found.Over ∧
        ∃ left, d.rest = .done (left, d.operation.lastAnswer supported d.turns) := by
  induction onward with
  | nil => exact ⟨rfl, by simp⟩
  | @cons more d i answer before expected ended ih =>
    obtain ⟨same, others⟩ := ih
    have whole := first.append before
    have past : d.found.Over := by
      apply whole.past
      exact (congrArg Status.lifecycle same).trans gone
    obtain ⟨kept, told⟩ := past.status_of_effect (Deed.effect ended).1 expected
    rw [whole.supported_eq] at told
    dsimp only at told
    exact ⟨kept.trans same, List.forall_mem_cons.2 ⟨⟨past, i, told ▸ ended⟩, others⟩⟩

end History

namespace Deed

/-- On an interface that is gone, a deed says nothing to the object and creates none. -/
theorem silent_of_over {d : Deed} (past : d.found.Over) :
    Signal.calls d.turns = [] ∧ Signal.creations d.turns = 0 := by
  constructor
  · have made := d.calls_begin_callsOf
    rw [past.callsOf_eq_nil] at made
    exact List.prefix_nil.1 made
  · have made := d.creations_le
    rw [creates, past.createsBy_eq_false] at made
    exact Nat.le_zero.1 made

end Deed

/-- No operation on an interface that is gone has to wait, unless it asks for a right. -/
theorem finished_of_over {i : Interface} (past : i.Over) (w : World) {operation : Operation}
    (unasked : ∀ rate who, operation ≠ .serve (.setup rate who)) :
    ∃ world result, proceed (i.carryOut operation) w = (world, .finished result) := by
  cases operation with
  | serve request =>
    cases request with
    | bringUp =>
      simp only [Interface.carryOut, Interface.serve, Interface.bringUp, past.lifecycle, if_true]
      exact ⟨_, _, rfl⟩
    | enable =>
      simp only [Interface.carryOut, Interface.serve, Interface.enable, past.unattached]
      cases i.reporting.supported <;> exact ⟨_, _, rfl⟩
    | disable =>
      simp only [Interface.carryOut, Interface.serve, Interface.disable, past.lifecycle, if_true]
      exact ⟨_, _, rfl⟩
    | shutDown =>
      simp only [Interface.carryOut, Interface.serve, Interface.shutDown, past.lifecycle, if_true]
      exact ⟨_, _, rfl⟩
    | setup rate who => exact absurd rfl (unasked rate who)
    | status => exact ⟨_, _, rfl⟩
  | conclude rate refusal =>
    cases refusal with
    | none =>
      simp only [Interface.carryOut, Interface.setup, past.unattached]
      exact ⟨_, _, rfl⟩
    | some fault => exact ⟨_, _, rfl⟩
  | tick => exact ⟨_, _, rfl⟩
  | loaded query result =>
    simp only [Interface.carryOut, Interface.loaded, Reporting.loaded, past.unattached]
    split
    · exact ⟨_, _, rfl⟩
    · cases result with
      | ok values => exact ⟨_, _, rfl⟩
      | error fault =>
        simp only [Reporting.clear, Reporting.publishShown]
        exact ⟨_, _, rfl⟩

namespace Account

variable {config : Config} {supported : Bool} {stage : Stage} {a b : Account}

/-- The deeds that have been begun are those that have ended and, while there is work, one more. -/
theorem Reachable.deeds_eq (reachable : Reachable config supported stage a) :
    a.deeds = a.ended ∨
      ∃ d, a.deeds = d :: a.ended ∧ d.found = a.service.interface := by
  have leading := reachable.tracks.leading
  cases busy : a.service.work with
  | none => exact .inl (ended_of_idle busy).symm
  | some work =>
    rw [busy] at leading
    rw [ended_of_busy busy]
    generalize a.deeds = deeds at leading
    cases leading with
    | @busy d earlier time history found expected => exact .inr ⟨d, rfl, found⟩

/-- Once the interface is gone, what has been said to the object is what has ended. -/
theorem Reachable.said_of_over (reachable : Reachable config supported stage a)
    (past : a.service.interface.Over) :
    a.service.world.calls = a.ended.flatMap (fun d => (Signal.calls d.turns).reverse) ∧
      a.service.world.creations = Signal.creations (a.ended.flatMap Deed.turns) := by
  have calls := reachable.tracks.calls
  have creations := reachable.creations
  rcases reachable.deeds_eq with same | ⟨d, more, found⟩
  · rw [← same]
    exact ⟨calls, creations⟩
  · obtain ⟨uncalled, uncreated⟩ := Deed.silent_of_over (d := d) (by rwa [found])
    rw [calls, creations, more]
    simp [uncalled, uncreated]

/-- What an interface that is gone is asked through a service is answered at once. -/
theorem Reachable.answer_of_over (reachable : Reachable config supported stage a)
    (past : a.service.interface.Over) {occurrence : Service.Occurrence} {s : Service} {caller : Nat}
    {operation : Operation} (ready : occurrence ∈ a.service.ready)
    (prepared : a.service.prepare occurrence = (s, some ⟨.answer caller, operation⟩))
    (unasked : ∀ rate who, operation ≠ .serve (.setup rate who)) :
    ∃ time, (a.service.take occurrence).replies =
      ⟨caller, time, operation.lastAnswer supported []⟩ :: a.service.replies := by
  have fresh : occurrence ≠ .resume := by
    rintro rfl
    cases prepared
  have step := Service.prepared
    (fun l mem => reachable.tracks.begun l mem _ a.service.holds_interface) ready
  rw [prepared] at step
  obtain ⟨interface, -, replies, -⟩ := step.untouched
  rw [← interface] at past
  obtain ⟨world, result, finished⟩ := finished_of_over past s.world unasked
  -- The deed that begins has ended as well, so its answer is the one that is fixed.
  have ended : (Deed.begin ⟨.answer caller, operation⟩ s).rest = .done result := by
    simp [Deed.begin, finished, Progress.rest]
  have expected : ∀ query, operation.answered? = some query →
      query ∈ s.interface.reporting.inFlight := by
    intro query answered
    rw [interface]
    exact step.expected answered
  have told : result.2 = operation.lastAnswer s.interface.reporting.supported _ :=
    (past.status_of_effect (Deed.effect ended).1 expected).2
  rw [Operation.lastAnswer_of_unasked unasked, interface, reachable.ended.supported_eq] at told
  have taken : a.service.take occurrence = s.carryOut ⟨.answer caller, operation⟩ :=
    congrArg Account.service (after_take (a := a) fresh prepared)
  have performed : s.carryOut ⟨.answer caller, operation⟩ =
      { s with world }.finish (.answer caller) result := by
    simp [Service.carryOut, Service.perform, finished]
  refine ⟨world.now, ?_⟩
  rw [taken, performed, ← told, ← replies]
  rfl

/-- From a completed shutdown on, whatever follows: nothing is said to the object, nothing that can
be seen changes, and each reply is the one that is fixed. A request that can be handled is answered
at once, unless its requester has to be asked for first. -/
theorem shutdown_is_final (reachable : Reachable config supported stage a)
    (shut : ∃ d ∈ a.ended, d.operation = .serve .shutDown) (run : Run a b) :
    (b.service.interface.status = a.service.interface.status ∧
      b.service.interface.lifecycle = .shutDown ∧
      b.service.interface.reporting.timer = none ∧
      b.service.interface.reporting.shown = .empty) ∧
    (b.service.world.calls = a.service.world.calls ∧
      b.service.world.creations = a.service.world.creations) ∧
    (∃ replies, b.service.replies = replies ++ a.service.replies ∧ ∀ reply ∈ replies,
      b.service.stage = .stopped ∧ reply.answer = .error Service.gone ∨
      ∃ d ∈ b.ended, d.purpose = .answer reply.caller ∧ Owed b.sent d.purpose d.operation ∧
        reply.answer = d.operation.lastAnswer supported d.turns) ∧
    ∀ occurrence s caller operation, occurrence ∈ b.service.ready →
      b.service.prepare occurrence = (s, some ⟨.answer caller, operation⟩) →
      (∀ rate who, operation ≠ .serve (.setup rate who)) →
      ∃ time, (b.service.take occurrence).replies =
        ⟨caller, time, operation.lastAnswer supported []⟩ :: b.service.replies := by
  have first := reachable.ended
  have gone := first.lifecycle_eq_shutDown_iff.2 shut
  have further := reachable.run run
  obtain ⟨later, replies, ended, told, given⟩ := run.ended reachable.tracks
  obtain ⟨same, final⟩ := first.lasting gone (run.history_ended reachable.tracks ended)
  have past : b.service.interface.Over :=
    further.ended.past ((congrArg Status.lifecycle same).trans gone)
  refine ⟨⟨same, past.lifecycle, past.still, past.cleared⟩, ?_, ?_, ?_⟩
  · obtain ⟨calls, creations⟩ := reachable.said_of_over (first.past gone)
    obtain ⟨moreCalls, moreCreations⟩ := further.said_of_over past
    have uncalled : later.flatMap (fun d => (Signal.calls d.turns).reverse) = [] := by
      rw [List.flatMap_eq_nil_iff]
      intro d mem
      rw [(Deed.silent_of_over (final d mem).1).1, List.reverse_nil]
    have uncreated : Signal.creations (later.flatMap Deed.turns) = 0 := by
      rw [Signal.creations, List.count_eq_zero, List.mem_flatMap]
      rintro ⟨d, mem, created⟩
      exact List.count_eq_zero.1 (Deed.silent_of_over (final d mem).1).2 created
    rw [moreCalls, moreCreations, calls, creations, ended]
    simp [uncalled, uncreated]
  · refine ⟨replies, told, fun reply mem => (given reply mem).imp_right ?_⟩
    rintro ⟨d, left, mem, purpose, answered⟩
    obtain ⟨-, left', fixed⟩ := final d mem
    have here : d ∈ b.ended := by
      rw [ended]
      exact List.mem_append_left _ mem
    refine ⟨d, here, purpose, further.requested.owed d (mem_deeds_of_ended here), ?_⟩
    rw [answered] at fixed
    exact (Prod.mk.inj (Exchange.done.inj fixed)).2
  · intro occurrence s caller operation ready prepared unasked
    exact further.answer_of_over past ready prepared unasked

/-- The interface is shut down while the device is still busy with a query and a Setup request waits
for its authorization. -/
def shutWhileWaiting : Account :=
  (fresh {} true .serving
    { obliging .enabled {} with
      device := fun _ => { delay := 1000, result := .ok {} }
      authorizer := fun count _ => { delay := 1000 * count } }).afterAll
    [.send 0 .bringUp, .take .request, .send 1 (.setup 5 ⟨":1.5"⟩), .take .request,
      .take (.check 1), .take (.load ⟨0, 0⟩), .send 2 (.setup 9 ⟨":1.5"⟩), .take .request,
      .take (.check 2), .send 3 .shutDown, .take .request]

/-- What happens to it afterwards. -/
def afterwards : List Move :=
  [.pass 1000, .take (.check 2), .take (.load ⟨0, 0⟩), .send 4 .bringUp, .take .request,
    .send 5 .enable, .take .request, .send 6 .disable, .take .request]

theorem reachable_shutWhileWaiting : Reachable {} true .serving shutWhileWaiting :=
  reachable_afterAll rfl (by decide +kernel)

/-- The query and the authorization end late, and everything is asked once more. -/
theorem requests_after_shutdown :
    (shutWhileWaiting.afterAll afterwards).service.world.calls =
      shutWhileWaiting.service.world.calls ∧
    (shutWhileWaiting.afterAll afterwards).service.interface.status =
      shutWhileWaiting.service.interface.status ∧
    shutWhileWaiting.service.interface.status.rate = 5 ∧
    [2, 4, 5, 6].map (shutWhileWaiting.afterAll afterwards).service.answerTo? =
      [some (.error Interface.noObject), some (.error Interface.noObject),
        some (.error Interface.noObject), some (.ok ())] := by
  have shut : ∃ d ∈ shutWhileWaiting.ended, d.operation = .serve .shutDown :=
    reachable_shutWhileWaiting.ended.lifecycle_eq_shutDown_iff.1 (by decide +kernel)
  have allowed : shutWhileWaiting.AllowsAll afterwards := by decide +kernel
  obtain ⟨⟨status, -⟩, ⟨calls, -⟩, -⟩ :=
    shutdown_is_final reachable_shutWhileWaiting shut (run_afterAll allowed)
  exact ⟨calls, status, by decide +kernel, by rfl⟩

end Account

end Modem.Session
