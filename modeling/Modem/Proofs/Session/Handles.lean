import Modem.Proofs.Session.Beginnings
import Modem.Proofs.Session.Deletion

/-! # Everybody keeps a handle

A service stops once nobody has a handle any more and the queue is empty. Whoever keeps its handle
until it has been answered is therefore not forgotten. -/

namespace Modem.Session

open Signal

namespace Service

/-- Nothing more can be sent and nobody waits in the queue or for an authorization. -/
def Vacant (s : Service) : Prop := s.isOpen = false ∧ s.queue = [] ∧ s.checks = []

/-- The service has stopped, or its last work is under way. -/
def Closing (s : Service) : Prop :=
  s.stage = .stopped ∨ ∃ work, s.work = some work ∧ work.purpose = .close

theorem Performed.closing {s t : Service} {purpose : Purpose} {world : World}
    {rest : Exchange (Interface × Answer)} (performed : s.Performed purpose world rest t)
    (idle : s.work = none) (going : s.stage ≠ .stopped) (closing : t.Closing) :
    purpose = .close := by
  cases performed with
  | ended result =>
    cases purpose with
    | close => rfl
    | _ =>
      rcases closing with stopped | ⟨work, busy, -⟩
      · exact absurd stopped going
      · cases idle.symm.trans busy
  | waits time rest =>
    rcases closing with stopped | ⟨work, busy, purpose⟩
    · exact absurd stopped going
    · obtain rfl := Option.some.inj busy
      exact purpose

/-- Inside, nobody lets go of a handle. -/
theorem handles_take (s : Service) (occurrence : Occurrence) :
    (s.take occurrence).isOpen = s.isOpen ∧ (s.take occurrence).leavers = s.leavers := by
  refine take_kept (P := fun t => t.isOpen = s.isOpen ∧ t.leavers = s.leavers) ?_ id ?_
  · obtain ⟨world, queue, checks, loads, asked, same⟩ := s.prepare_eq occurrence
    rw [same]
    exact ⟨rfl, rfl⟩
  · intro t purpose x kept
    unfold perform
    split
    · cases purpose <;> exact kept
    · exact kept

end Service

namespace Account

variable {config : Config} {supported : Bool} {stage : Stage} {a b : Account}

/-! ## Runs with handles -/

/-- Whoever sends a request has a handle, and whoever has sent one keeps it until it has been
answered. -/
def Holding (a : Account) : Move → Prop
  | .send _ _ => a.service.isOpen = true
  | .leave caller => caller ∈ a.service.replies.map Reply.caller
  | _ => True

instance (a : Account) (m : Move) : Decidable (a.Holding m) :=
  match m with
  | .send _ _ => inferInstanceAs (Decidable (a.service.isOpen = true))
  | .leave caller => inferInstanceAs (Decidable (caller ∈ a.service.replies.map Reply.caller))
  | .surround _ | .pass _ | .close | .serve | .take _ => inferInstanceAs (Decidable True)

/-- Some run of a service in which everybody keeps its handle ends here. -/
inductive Attended (config : Config) (supported : Bool) : Account → Prop
  | start {surroundings : Surroundings} {service : Service}
      (started : Service.start config supported .serving surroundings = .ok service) :
      Attended config supported { service }
  | move {a : Account} {m : Move} (attended : Attended config supported a) (allowed : a.Allows m)
      (holding : a.Holding m) : Attended config supported (a.after m)

theorem attended_fresh (checked : config.check = .ok ()) (surroundings : Surroundings) :
    Attended config supported (fresh config supported .serving surroundings) :=
  .start (start_of_checked checked surroundings)

theorem Attended.afterAll {moves : List Move} (attended : Attended config supported a)
    (allowed : a.AllowsAll moves) (holding : a.Always Holding moves) :
    Attended config supported (a.afterAll moves) := by
  induction moves generalizing a with
  | nil => exact attended
  | cons m rest ih => exact ih (attended.move allowed.1 holding.1) allowed.2 holding.2

theorem Attended.reachable (attended : Attended config supported a) :
    Reachable config supported .serving a := by
  induction attended with
  | start started => exact ⟨_, _, started, .refl⟩
  | move attended allowed holding ih => exact ih.run (Run.refl.step allowed)

/-- What everybody keeping a handle comes to. -/
structure HandlesKept (a : Account) : Prop where
  left : ∀ caller ∈ a.service.leavers, caller ∈ a.service.replies.map Reply.caller
  vacant : a.service.Closing → a.service.Vacant

/-- A service that nobody has a handle of waits for no authorization. -/
theorem HandlesKept.vacant_of_deserted (kept : a.HandlesKept)
    (reachable : Reachable config supported stage a) (deserted : a.service.Deserted) :
    a.service.Vacant := by
  obtain ⟨accepted, told, ledger⟩ := reachable.ledger
  have apart := (List.nodup_append.1 (ledger.nodup_sent reachable.requested)).2.2
  refine ⟨deserted.shut, deserted.drained, List.eq_nil_iff_forall_not_mem.2 fun c mem => ?_⟩
  -- Whoever has left has been answered, and whoever has been answered waits for nothing.
  have waiting : c.caller ∈ a.service.unanswered := by
    rw [Service.unanswered_eq]
    exact List.mem_append_right _ (List.mem_map_of_mem mem)
  exact apart _ waiting _ (kept.left _ (deserted.alone c mem)) rfl

theorem HandlesKept.take {occurrence : Service.Occurrence} (kept : a.HandlesKept)
    (reachable : Reachable config supported stage a) (ready : occurrence ∈ a.service.ready) :
    (a.after (.take occurrence)).HandlesKept := by
  have going := Service.going_of_mem_ready reachable.idle_of_stopped ready
  have begins := fun d => reachable.begins (d := d) (m := .take occurrence) ready
  have took := reachable.tracks.takes ready
  obtain ⟨isOpen, leavers⟩ : (a.after (.take occurrence)).service.isOpen = a.service.isOpen ∧
      (a.after (.take occurrence)).service.leavers = a.service.leavers :=
    a.service.handles_take occurrence
  generalize a.after (.take occurrence) = b at begins took isOpen leavers
  obtain ⟨more, passes⟩ := took.passes reachable.nodup_checks
  refine ⟨?_, ?_⟩
  · intro caller mem
    rw [leavers] at mem
    rw [passes.replies, List.map_append]
    exact List.mem_append_right _ (kept.left caller mem)
  · intro closing
    cases took with
    | moved s idle prepared =>
      rcases closing with stopped | ⟨work, busy, -⟩
      · exact absurd (prepared.stage_eq.symm.trans stopped) going
      · cases (prepared.untouched.work.trans idle).symm.trans busy
    | began s t job world idle prepared calls performed =>
      have stage : s.stage ≠ .stopped := by rwa [prepared.stage_eq]
      have last := performed.closing (prepared.untouched.work.trans idle) stage closing
      obtain ⟨_, _, begun⟩ := begins _ rfl
      -- The last work is the end of the service, which begins when nobody has a handle.
      cases prepared with
      | close world =>
        cases begun with
        | close deserted =>
          obtain ⟨shut, drained, granted⟩ := kept.vacant_of_deserted reachable deserted
          exact ⟨isOpen.trans shut, performed.queue_eq.trans drained,
            performed.checks_eq.trans granted⟩
      | _ => cases last
    | continued d earlier time t world w deeds busy calls performed =>
      have last := performed.closing rfl going closing
      obtain ⟨shut, drained, granted⟩ := kept.vacant (.inr ⟨_, busy, last⟩)
      exact ⟨isOpen.trans shut, performed.queue_eq.trans drained,
        performed.checks_eq.trans granted⟩

theorem HandlesKept.after {m : Move} (kept : a.HandlesKept)
    (reachable : Reachable config supported stage a) (allowed : a.Allows m)
    (holding : a.Holding m) : (a.after m).HandlesKept := by
  cases m with
  | send caller request =>
    simp only [Account.after, Service.send]
    split
    next stopped =>
      exact ⟨fun leaver mem => List.mem_cons_of_mem _ (kept.left leaver mem), kept.vacant⟩
    · refine ⟨kept.left, fun closing => ?_⟩
      have opened : a.service.isOpen = true := holding
      cases opened.symm.trans (kept.vacant closing).1
  | leave caller =>
    exact ⟨List.forall_mem_cons.2 ⟨holding, kept.left⟩, kept.vacant⟩
  | close =>
    refine ⟨kept.left, fun closing => ?_⟩
    obtain ⟨-, drained, granted⟩ := kept.vacant closing
    exact ⟨rfl, drained, granted⟩
  | serve =>
    refine ⟨kept.left, fun closing => kept.vacant (closing.imp_left fun stopped => ?_)⟩
    simp only [Account.after] at stopped
    split at stopped
    · cases stopped
    · exact stopped
  | take occurrence => exact kept.take reachable allowed
  | _ => exact ⟨kept.left, kept.vacant⟩

theorem Attended.handlesKept (attended : Attended config supported a) : a.HandlesKept := by
  induction attended with
  | start started =>
    obtain rfl := service_of_start started
    refine ⟨nofun, ?_⟩
    rintro (stopped | ⟨work, busy, -⟩)
    · cases stopped
    · cases busy
  | move attended allowed holding ih => exact ih.after attended.reachable allowed holding

/-- Nobody is refused whose handle is kept. -/
theorem Attended.ledger (attended : Attended config supported a) :
    a.Ledger a.sent a.service.replies := by
  induction attended with
  | start started =>
    obtain rfl := service_of_start started
    exact ledger_fresh _
  | @move a m attended allowed holding ih =>
    have reachable := attended.reachable
    cases m with
    | send caller request =>
      have opened : a.service.isOpen = true := holding
      have going : a.service.stage ≠ .stopped := by
        intro stopped
        cases opened.symm.trans (attended.handlesKept.vacant (.inl stopped)).1
      exact ih.queued going caller request
    | take occurrence =>
      exact ih.took reachable.requested
        (Service.going_of_mem_ready reachable.idle_of_stopped allowed)
        (reachable.tracks.takes allowed)
    | _ => exact ⟨.nobody, fun _ => ⟨rfl, rfl⟩, ih.places, ih.order, ih.answers⟩

/-- Each request that a service accepts is in one place: in the queue, being handled, waiting for
its authorization, or answered, and then once. Requests that are not set aside are answered in the
order of the queue. A Setup request is answered with what the end of its authorization leads to,
which begins when that end is taken. If everybody keeps its handle until it has been answered, the
service stops only when everybody has been. -/
theorem requests_are_conserved (reachable : Reachable config supported .serving a) :
    (a.sent.map Queued.caller).Nodup ∧
    (∃ accepted told, a.Ledger accepted told ∧
      ∀ reply ∈ told, ∀ rate who, ⟨reply.caller, .setup rate who⟩ ∈ accepted →
        ∃ d ∈ a.ended, ∃ left refusal, d.purpose = .answer reply.caller ∧
          d.operation = .conclude rate refusal ∧ d.rest = .done (left, reply.answer)) ∧
    (∀ c ∈ a.service.checks, ⟨c.caller, .setup c.rate c.who⟩ ∈ a.sent) ∧
    (∀ m d caller rate who, a.Allows m → (a.after m).deeds = d :: a.deeds →
      ⟨caller, .setup rate who⟩ ∈ a.sent → d.purpose = .answer caller →
      m = .take (.check caller) ∧ ∃ arrival refusal,
        ⟨caller, rate, who, arrival⟩ ∈ a.service.checks ∧
        a.service.Ends ⟨caller, rate, who, arrival⟩ refusal ∧
        d.operation = .conclude rate refusal) ∧
    (Attended config supported a →
      a.Ledger a.sent a.service.replies ∧
        (a.service.stage = .stopped → a.service.unanswered = [])) := by
  have requested := reachable.requested
  refine ⟨requested.callers, ?_, requested.pending, ?_, fun attended => ⟨attended.ledger, ?_⟩⟩
  · obtain ⟨accepted, told, ledger⟩ := reachable.ledger
    refine ⟨accepted, told, ledger, fun reply mem rate who asked => ?_⟩
    obtain ⟨d, ended, left, purpose, answered⟩ := ledger.answers reply mem
    have sent := ledger.refused.mem_sent asked
    obtain ⟨refusal, concludes⟩ :=
      reachable.concludes nofun sent (mem_deeds_of_ended ended) purpose
    exact ⟨d, ended, left, refusal, purpose, concludes, answered⟩
  · intro m d caller rate who allowed deeds asked purpose
    exact reachable.concludes_when_ended nofun allowed deeds asked purpose
  · intro stopped
    obtain ⟨-, drained, granted⟩ := attended.handlesKept.vacant (.inl stopped)
    rw [Service.unanswered_eq, drained, granted,
      Service.handling_of_idle (reachable.idle_of_stopped stopped)]
    rfl

/-- A Setup request is authorized while two others are answered; the last handle goes when all three
have been. -/
def allAnswered : Account :=
  (fresh {} true .serving
    { obliging .enabled {} with authorizer := fun _ _ => { delay := 1000 } }).afterAll
    [.send 0 (.setup 5 ⟨":1.5"⟩), .send 1 .bringUp, .take .request, .take (.check 0),
      .send 2 .status, .take .request, .close, .pass 1000, .take .request, .take (.check 0),
      .leave 0, .take .close]

theorem replies_of_allAnswered :
    allAnswered.service.stage = .stopped ∧
    (allAnswered.service.unanswered = [] ∧
      allAnswered.service.replies.map Reply.caller = [0, 2, 1]) ∧
    allAnswered.Ledger allAnswered.sent allAnswered.service.replies := by
  have attended : Attended {} true allAnswered :=
    (attended_fresh rfl _).afterAll (by decide +kernel) (by decide +kernel)
  obtain ⟨-, -, -, -, conserved⟩ := requests_are_conserved attended.reachable
  obtain ⟨ledger, drained⟩ := conserved attended
  have stopped : allAnswered.service.stage = .stopped := by decide +kernel
  exact ⟨stopped, ⟨drained stopped, by decide +kernel⟩, ledger⟩

end Account

end Modem.Session
