import Modem.Proofs.Session.Ended

/-! # No lost and no doubled reply

A request that has been accepted waits in the queue, waits for its authorization, is being handled,
or has been answered. What a move takes from one of these places it puts into another, so a request
is in one place only and nobody is answered twice. Requests that are not set aside keep their order
from the queue to the answer. -/

namespace Modem.Session

open Signal

/-! ## Places -/

/-- Where each has a mark of its own, one can be told from the others by it. -/
theorem perm_cons_filter_ne {α β : Type} [DecidableEq β] {mark : α → β} {things : List α} {a : α}
    (once : (things.map mark).Nodup) (mem : a ∈ things) :
    things.Perm (a :: things.filter fun b => mark b ≠ mark a) := by
  induction things with
  | nil => cases mem
  | cons b rest ih =>
    rw [List.map_cons, List.nodup_cons] at once
    rcases List.mem_cons.1 mem with rfl | mem
    · have others : (rest.filter fun b => mark b ≠ mark a) = rest := by
        rw [List.filter_eq_self]
        intro b other
        exact decide_eq_true fun same => once.1 (same ▸ List.mem_map_of_mem other)
      rw [List.filter_cons_of_neg (by simp), others]
    · have other : mark b ≠ mark a := fun same => once.1 (same ▸ List.mem_map_of_mem mem)
      rw [List.filter_cons_of_pos (by simpa using other)]
      exact ((ih once.2 mem).cons b).trans (.swap a b _)

namespace Service

/-- The caller whose request is being handled, if there is one. -/
def handling (s : Service) : List Nat :=
  match s.work with
  | some work => work.purpose.callers
  | none => []

/-- Who is handled in turn, the last first. -/
def line (s : Service) : List Nat := (s.queue.map Queued.caller).reverse ++ s.handling

theorem handling_of_idle {s : Service} (idle : s.work = none) : s.handling = [] := by
  simp [handling, idle]

theorem handling_of_busy {s : Service} {work : Work} (busy : s.work = some work) :
    s.handling = work.purpose.callers := by
  simp [handling, busy]

theorem unanswered_eq (s : Service) :
    s.unanswered = s.handling ++ s.queue.map Queued.caller ++ s.checks.map Check.caller := by
  unfold unanswered handling
  cases s.work with
  | none => rfl
  | some work =>
    obtain ⟨purpose, time, rest⟩ := work
    cases purpose <;> rfl

/-- The caller for whom a job begins, if there is one. -/
def begun : Option Job → List Nat
  | some job => job.purpose.callers
  | none => []

/-- Whoever leaves the queue goes on to an authorization or is handled, and whoever leaves the
authorizations is handled. -/
theorem Prepared.callers {s t : Service} {job : Option Job} (prepared : s.Prepared (t, job))
    (once : (s.checks.map Check.caller).Nodup) :
    (begun job ++ t.queue.map Queued.caller ++ t.checks.map Check.caller).Perm
      (s.queue.map Queued.caller ++ s.checks.map Check.caller) := by
  cases prepared with
  | setAside caller rate who rest world queue =>
    rw [queue]
    simp only [begun, List.map_append, List.map_cons, List.map_nil, List.nil_append,
      List.cons_append, ← List.append_assoc]
    exact List.perm_append_singleton caller _
  | serve caller request rest queue =>
    rw [queue]
    exact .refl _
  | ask c arrival world pending =>
    have same : (s.checks.map fun d =>
        if d.caller = c.caller then { c with arrival } else d).map Check.caller =
        s.checks.map Check.caller := by
      rw [List.map_map]
      refine List.map_congr_left fun d _ => ?_
      by_cases here : d.caller = c.caller <;> simp [here]
    simp only [begun, List.nil_append, same]
    exact .refl _
  | conclude c refusal world pending =>
    have split := (perm_cons_filter_ne once pending).map Check.caller
    exact List.perm_middle.symm.trans (split.symm.append_left _)
  | _ => exact .refl _

/-- Of those who do not wait for authorizations, the first in the queue is handled first. -/
theorem Prepared.order {s t : Service} {job : Option Job} {ordered : Nat → Bool}
    (prepared : s.Prepared (t, job))
    (setup : ∀ q ∈ s.queue, ∀ rate who, q.request = .setup rate who → ordered q.caller = false)
    (aside : ∀ c ∈ s.checks, ordered c.caller = false) :
    ((t.queue.map Queued.caller).reverse ++ begun job).filter ordered =
      (s.queue.map Queued.caller).reverse.filter ordered := by
  cases prepared with
  | setAside caller rate who rest world queue =>
    have apart : ordered caller = false :=
      setup ⟨caller, .setup rate who⟩ (by simp [queue]) rate who rfl
    simp [queue, begun, apart]
  | serve caller request rest queue => simp [queue, begun, Purpose.callers]
  | conclude c refusal world pending => simp [begun, Purpose.callers, aside c pending]
  | _ => simp [begun, Purpose.callers]

/-- Who was being handled is told the result, or is still being handled. -/
theorem Performed.callers {s t : Service} {purpose : Purpose} {world : World}
    {rest : Exchange (Interface × Answer)} (performed : s.Performed purpose world rest t)
    (idle : s.work = none) :
    ∃ more, t.replies = more ++ s.replies ∧
      t.handling ++ more.map Reply.caller = purpose.callers := by
  cases performed with
  | ended result =>
    have still : ({ s with world }.finish purpose result).handling = [] :=
      handling_of_idle ((work_finish _ _ _).trans idle)
    rw [still]
    cases purpose with
    | answer caller => exact ⟨[⟨caller, world.now, result.2⟩], rfl, rfl⟩
    | refresh => exact ⟨[], rfl, rfl⟩
    | close => exact ⟨[], rfl, rfl⟩
  | waits => exact ⟨[], rfl, List.append_nil _⟩

theorem Prepared.stage_eq {s t : Service} {job : Option Job} (prepared : s.Prepared (t, job)) :
    t.stage = s.stage := by
  cases prepared <;> rfl

/-- Only the last work of a service stops it. -/
theorem Performed.stage_cases {s t : Service} {purpose : Purpose} {world : World}
    {rest : Exchange (Interface × Answer)} (performed : s.Performed purpose world rest t) :
    t.stage = s.stage ∨ purpose = .close ∧ t.stage = .stopped ∧ t.work = s.work := by
  cases performed with
  | ended result =>
    cases purpose with
    | close => exact .inr ⟨rfl, rfl, rfl⟩
    | _ => exact .inl rfl
  | waits => exact .inl rfl

theorem perm_told (handling queue checks told : List Nat) :
    (handling ++ queue ++ checks ++ told).Perm (handling ++ told ++ queue ++ checks) := by
  simp only [List.append_assoc]
  refine .append_left _ ?_
  rw [← List.append_assoc]
  exact List.perm_append_comm

/-- One service comes from another by moving requests on and by telling answers. -/
structure Passes (s t : Service) (more : List Reply) : Prop where
  replies : t.replies = more ++ s.replies
  places : (t.unanswered ++ more.map Reply.caller).Perm s.unanswered
  order : ∀ ordered : Nat → Bool,
    (∀ q ∈ s.queue, ∀ rate who, q.request = .setup rate who → ordered q.caller = false) →
    (∀ c ∈ s.checks, ordered c.caller = false) →
    (t.line ++ more.map Reply.caller).filter ordered = s.line.filter ordered

theorem passes_of_performed {s t u : Service} {job : Job} {world : World}
    {rest : Exchange (Interface × Answer)} (idle : s.work = none)
    (prepared : s.Prepared (t, some job)) (once : (s.checks.map Check.caller).Nodup)
    (performed : t.Performed job.purpose world rest u) : ∃ more, s.Passes u more := by
  obtain ⟨-, work, replies, -⟩ := prepared.untouched
  obtain ⟨more, told, handled⟩ := performed.callers (work.trans idle)
  refine ⟨more, told.trans (congrArg _ replies), ?_, ?_⟩
  · have moved := prepared.callers once
    simp only [begun, ← handled] at moved
    rw [unanswered_eq, unanswered_eq, handling_of_idle idle, performed.queue_eq,
      performed.checks_eq, List.nil_append]
    exact (perm_told _ _ _ _).trans moved
  · intro ordered setup aside
    have moved := prepared.order setup aside
    simp only [begun, ← handled] at moved
    rw [line, line, handling_of_idle idle, performed.queue_eq, List.append_nil, List.append_assoc]
    exact moved

end Service

namespace Account

variable {config : Config} {supported : Bool} {stage : Stage} {start : Interface} {a b : Account}

theorem Took.passes (took : a.Took b) (once : (a.service.checks.map Check.caller).Nodup) :
    ∃ more, a.service.Passes b.service more := by
  cases took with
  | moved s idle prepared =>
    obtain ⟨-, work, replies, -⟩ := prepared.untouched
    have moved := prepared.callers once
    refine ⟨[], replies, ?_, ?_⟩
    · rw [Service.unanswered_eq, Service.unanswered_eq, Service.handling_of_idle idle,
        Service.handling_of_idle (work.trans idle)]
      simpa [Service.begun] using moved
    · intro ordered setup aside
      rw [Service.line, Service.line, Service.handling_of_idle idle,
        Service.handling_of_idle (work.trans idle)]
      simpa [Service.begun] using prepared.order setup aside
  | began s t job world idle prepared calls performed =>
    exact Service.passes_of_performed idle prepared once performed
  | continued d earlier time t world w deeds busy calls performed =>
    obtain ⟨more, told, handled⟩ := performed.callers rfl
    have before : a.service.handling = t.handling ++ more.map Reply.caller := by
      rw [Service.handling_of_busy busy, handled]
    refine ⟨more, told, ?_, ?_⟩
    · rw [Service.unanswered_eq, Service.unanswered_eq, before, performed.queue_eq,
        performed.checks_eq]
      exact Service.perm_told _ _ _ _
    · intro ordered setup aside
      rw [Service.line, Service.line, before, performed.queue_eq, List.append_assoc]

/-! ## After the stop -/

theorem Took.idle_of_stopped (took : a.Took b) (going : a.service.stage ≠ .stopped)
    (stopped : b.service.stage = .stopped) : b.service.work = none := by
  cases took with
  | moved s idle prepared => exact prepared.untouched.work.trans idle
  | began s t job world idle prepared calls performed =>
    rcases performed.stage_cases with same | ⟨-, -, work⟩
    · exact absurd (prepared.stage_eq.symm.trans (same.symm.trans stopped)) going
    · exact work.trans (prepared.untouched.work.trans idle)
  | continued d earlier time t world w deeds busy calls performed =>
    rcases performed.stage_cases with same | ⟨-, -, work⟩
    · exact absurd (same.symm.trans stopped) going
    · exact work

/-- A service that has stopped does nothing any more. -/
theorem Reachable.idle_of_stopped (reachable : Reachable config supported stage a)
    (stopped : a.service.stage = .stopped) : a.service.work = none := by
  induction reachable using Reachable.induct with
  | fresh surroundings _ => rfl
  | @step a m reachable allowed ih =>
    cases m with
    | send caller request =>
      simp only [after, Service.send] at stopped ⊢
      split at stopped
      · exact ih stopped
      · exact ih stopped
    | serve =>
      refine ih ?_
      simp only [after] at stopped
      split at stopped
      · cases stopped
      · exact stopped
    | take occurrence =>
      have going := Service.going_of_mem_ready ih allowed
      exact (reachable.tracks.takes allowed).idle_of_stopped going stopped
    | _ => exact ih stopped

/-! ## Ledgers -/

/-- What has been sent and replied, apart from requests that came too late and were refused at
once. -/
inductive Refused (accepted : List Queued) (told : List Reply) :
    List Queued → List Reply → Prop
  | nobody : Refused accepted told accepted told
  | refuse {sent : List Queued} {replies : List Reply} (caller time : Nat) (request : Request)
      (refused : Refused accepted told sent replies) :
      Refused accepted told (⟨caller, request⟩ :: sent)
        (⟨caller, time, .error Service.gone⟩ :: replies)

/-- Each request that has been accepted is in one place or has been answered, once. -/
structure Ledger (a : Account) (accepted : List Queued) (told : List Reply) : Prop where
  refused : Refused accepted told a.sent a.service.replies
  /-- Nobody is refused before the stop. -/
  going : a.service.stage ≠ .stopped → a.sent = accepted ∧ a.service.replies = told
  places : (a.service.unanswered ++ told.map Reply.caller).Perm (accepted.map Queued.caller)
  /-- Who does not wait for an authorization is handled and answered in turn. -/
  order : ∀ ordered : Nat → Bool,
    (∀ caller rate who, ⟨caller, .setup rate who⟩ ∈ accepted → ordered caller = false) →
    (a.service.line ++ told.map Reply.caller).filter ordered =
      (accepted.map Queued.caller).filter ordered
  /-- An answer is what the deed for the caller ended with. -/
  answers : ∀ reply ∈ told, ∃ d ∈ a.ended, ∃ left,
    d.purpose = .answer reply.caller ∧ d.rest = .done (left, reply.answer)

section

variable {accepted : List Queued} {told : List Reply}

theorem Refused.perm {sent : List Queued} {replies : List Reply} {waiting : List Nat}
    (refused : Refused accepted told sent replies)
    (places : (waiting ++ told.map Reply.caller).Perm (accepted.map Queued.caller)) :
    (waiting ++ replies.map Reply.caller).Perm (sent.map Queued.caller) := by
  induction refused with
  | nobody => exact places
  | refuse caller time request refused ih => exact List.perm_middle.trans (ih.cons caller)

theorem Refused.mem_sent {sent : List Queued} {replies : List Reply} {queued : Queued}
    (refused : Refused accepted told sent replies) (mem : queued ∈ accepted) : queued ∈ sent := by
  induction refused with
  | nobody => exact mem
  | refuse caller time request refused ih => exact List.mem_cons_of_mem _ ih

/-- Each request that has been sent is unanswered or has been answered, once. -/
theorem Ledger.sent (ledger : a.Ledger accepted told) :
    (a.service.unanswered ++ a.service.replies.map Reply.caller).Perm
      (a.sent.map Queued.caller) :=
  ledger.refused.perm ledger.places

theorem Ledger.nodup_sent (ledger : a.Ledger accepted told) (requested : a.Requested) :
    (a.service.unanswered ++ a.service.replies.map Reply.caller).Nodup :=
  ledger.sent.nodup_iff.2 requested.callers

theorem Ledger.nodup_checks (ledger : a.Ledger accepted told) (requested : a.Requested) :
    (a.service.checks.map Check.caller).Nodup := by
  have once := (List.nodup_append.1 (ledger.nodup_sent requested)).1
  rw [Service.unanswered_eq] at once
  exact (List.nodup_append.1 once).2.1

theorem ledger_fresh (surroundings : Surroundings) :
    (fresh config supported stage surroundings).Ledger [] [] where
  refused := .nobody
  going _ := ⟨rfl, rfl⟩
  places := .nil
  order _ _ := rfl
  answers := nofun

theorem Ledger.queued (ledger : a.Ledger accepted told) (going : a.service.stage ≠ .stopped)
    (caller : Nat) (request : Request) :
    (a.after (.send caller request)).Ledger (a.after (.send caller request)).sent
      (a.after (.send caller request)).service.replies := by
  obtain ⟨rfl, rfl⟩ := ledger.going going
  have queued : a.service.send caller request =
      { a.service with queue := a.service.queue ++ [⟨caller, request⟩] } := by
    unfold Service.send
    split
    next stopped => exact absurd stopped going
    · rfl
  have line : Service.line { a.service with queue := a.service.queue ++ [⟨caller, request⟩] } =
      caller :: a.service.line := by
    simp [Service.line, Service.handling]
  rw [after, queued]
  refine ⟨.nobody, fun _ => ⟨rfl, rfl⟩, ?_, ?_, ledger.answers⟩
  · have places := ledger.places
    rw [Service.unanswered_eq] at places ⊢
    simp only [List.map_append, List.map_cons, List.map_nil, List.append_assoc,
      List.cons_append, List.nil_append] at places ⊢
    rw [← List.append_assoc] at places ⊢
    exact List.perm_middle.trans (places.cons caller)
  · intro ordered setup
    have before := ledger.order ordered fun caller rate who mem =>
      setup caller rate who (List.mem_cons_of_mem _ mem)
    rw [line, List.map_cons, List.cons_append, List.filter_cons, List.filter_cons, before]

theorem Ledger.took (ledger : a.Ledger accepted told) (requested : a.Requested)
    (going : a.service.stage ≠ .stopped) (took : a.Took b) :
    b.Ledger b.sent b.service.replies := by
  obtain ⟨more, passes⟩ := took.passes (ledger.nodup_checks requested)
  -- Before the stop nothing has been refused, so the ledger is about everything.
  obtain ⟨sent, replies⟩ := ledger.going going
  have same : b.sent = a.sent := by cases took <;> rfl
  have now : b.service.replies = more ++ told := by rw [passes.replies, replies]
  refine ⟨.nobody, fun _ => ⟨rfl, rfl⟩, ?_, ?_, ?_⟩
  · rw [same, sent, now, List.map_append, ← List.append_assoc]
    exact (passes.places.append_right _).trans ledger.places
  · intro ordered setup
    rw [same, sent] at setup ⊢
    rw [now, List.map_append, ← List.append_assoc, List.filter_append,
      passes.order ordered ?_ ?_, ← List.filter_append, ledger.order ordered setup]
    · intro q mem rate who asks
      apply setup q.caller rate who
      rw [← sent, ← asks]
      exact requested.queued q mem
    · intro c mem
      apply setup c.caller c.rate c.who
      rw [← sent]
      exact requested.pending c mem
  · intro reply mem
    rcases took.answered mem with old | ⟨idle, d, earlier, deeds, purpose, left⟩
    · rw [replies] at old
      obtain ⟨d, mem, told⟩ := ledger.answers reply old
      exact ⟨d, took.outcome.mem_ended mem, told⟩
    · refine ⟨d, ?_, _, purpose, left⟩
      rw [ended_of_idle idle, deeds]
      exact List.mem_cons_self

theorem Ledger.after {m : Move} (ledger : a.Ledger accepted told) (requested : a.Requested)
    (tracks : a.Tracks start) (quiet : a.service.stage = .stopped → a.service.work = none)
    (allowed : a.Allows m) : ∃ accepted told, (a.after m).Ledger accepted told := by
  cases m with
  | send caller request =>
    by_cases stopped : a.service.stage = .stopped
    · simp only [Account.after, Service.send, stopped]
      refine ⟨accepted, told, .refuse caller _ request ledger.refused, ?_, ledger.places,
        ledger.order, ledger.answers⟩
      exact fun going => absurd stopped going
    · exact ⟨_, _, ledger.queued stopped caller request⟩
  | take occurrence =>
    have going := Service.going_of_mem_ready quiet allowed
    exact ⟨_, _, ledger.took requested going (tracks.takes allowed)⟩
  | serve =>
    refine ⟨accepted, told, ledger.refused, ?_, ledger.places, ledger.order, ledger.answers⟩
    intro going
    apply ledger.going
    intro stopped
    simp [Account.after, stopped] at going
  | _ =>
    exact ⟨accepted, told, ledger.refused, ledger.going, ledger.places, ledger.order,
      ledger.answers⟩

end

theorem Reachable.ledger (reachable : Reachable config supported stage a) :
    ∃ accepted told, a.Ledger accepted told := by
  induction reachable using Reachable.induct with
  | fresh surroundings _ => exact ⟨[], [], ledger_fresh surroundings⟩
  | step reachable allowed ih =>
    obtain ⟨accepted, told, ledger⟩ := ih
    exact ledger.after reachable.requested reachable.tracks reachable.idle_of_stopped allowed

end Account

end Modem.Session
