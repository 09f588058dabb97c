import Mathlib.Data.List.Perm.Subperm
import Modem.Proofs.Session.Beginnings

/-! # What the authorizer has decided

The authorizer is asked once for each Setup request, when its authorization begins. What it says
waits until the authorization ends, or is acted on at once. So whatever is done for the caller of
such a request goes by what the authorizer has said of that caller, and by nothing else. -/

namespace Modem.Session

open Signal

variable {config : Config} {supported : Bool} {stage : Stage}

/-! ## The past of an account -/

namespace Account

/-- The moves that an account comes from. An account does not keep what its surroundings have been,
so that different pasts can lead to it. -/
inductive Past (config : Config) (supported : Bool) (stage : Stage) : Account → Type
  | start (checked : config.check = .ok ()) (surroundings : Surroundings) :
      Past config supported stage (fresh config supported stage surroundings)
  | step {a : Account} {m : Move} (past : Past config supported stage a) (allowed : a.Allows m) :
      Past config supported stage (a.after m)

namespace Past

variable {a : Account} {α : Type}

theorem reachable (past : Past config supported stage a) : Reachable config supported stage a := by
  induction past with
  | start checked surroundings =>
    exact ⟨surroundings, _, start_of_checked checked surroundings, .refl⟩
  | step past allowed ih => exact ih.run (Run.refl.step allowed)

/-- The past after some more moves. -/
def afterAll {a : Account} (past : Past config supported stage a) :
    (moves : List Move) → a.AllowsAll moves → Past config supported stage (a.afterAll moves)
  | [], _ => past
  | _ :: rest, allowed => (past.step allowed.1).afterAll rest allowed.2

/-- What has been noted down as occurrences were taken, the latest first. -/
def gather (note : Service → Service.Occurrence → Option α) {a : Account} :
    Past config supported stage a → List α
  | .start _ _ => []
  | @step _ _ _ a (.take occurrence) past _ =>
    (note a.service occurrence).toList ++ past.gather note
  | .step past _ => past.gather note

end Past

theorem Reachable.nonempty_past {a : Account} (reachable : Reachable config supported stage a) :
    Nonempty (Past config supported stage a) := by
  obtain ⟨surroundings, service, started, run⟩ := reachable
  have checked : config.check = .ok () := by
    cases checked : config.check with
    | ok => rfl
    | error defect => simp [Service.start, checked, bind, Except.bind] at started
  obtain rfl := service_of_start started
  induction run with
  | refl => exact ⟨.start checked surroundings⟩
  | step run allowed ih => exact ih.map fun past => past.step allowed

end Account

/-! ## Taking an occurrence -/

/-- The same waits in the queue, for an authorization and for the device. -/
structure Service.Keeps (s t : Service) : Prop where
  queue : t.queue = s.queue
  checks : t.checks = s.checks
  loads : t.loads = s.loads

theorem Service.Performed.keeps {s t : Service} {purpose : Purpose} {world : World}
    {rest : Exchange (Interface × Answer)} (performed : s.Performed purpose world rest t) :
    s.Keeps t :=
  ⟨performed.queue_eq, performed.checks_eq, performed.loads_eq⟩

namespace Account

/-- An occurrence goes on with the latest deed, or it comes to what it prepares and the deed that
begins then. -/
inductive Brings (a : Account) (occurrence : Service.Occurrence) (b : Account) : Prop
  | resumed (d : Deed) (earlier : List Deed) (w : World) (resume : occurrence = .resume)
      (before : a.deeds = d :: earlier) (deeds : b.deeds = d.resume w :: earlier)
      (sent : b.sent = a.sent) (keeps : a.service.Keeps b.service)
  | prepared (s : Service) (job : Option Job) (prepared : a.service.prepare occurrence = (s, job))
      (deeds : b.deeds = (job.map fun j => Deed.begin j s).toList ++ a.deeds)
      (sent : b.sent = a.sent) (keeps : s.Keeps b.service)

theorem Reachable.brings {a : Account} {occurrence : Service.Occurrence}
    (reachable : Reachable config supported stage a) (ready : occurrence ∈ a.service.ready) :
    a.Brings occurrence (a.after (.take occurrence)) := by
  by_cases resume : occurrence = .resume
  · subst resume
    obtain ⟨work, busy⟩ := Service.busy_of_resume_mem_ready ready
    have took := reachable.tracks.takes ready
    generalize a.after (.take .resume) = b at took
    cases took with
    | moved s idle | began s t job world idle => cases idle.symm.trans busy
    | continued d earlier time t world w deeds busy calls performed =>
      have keeps := performed.keeps
      exact .resumed d earlier w rfl deeds rfl rfl ⟨keeps.queue, keeps.checks, keeps.loads⟩
  · rcases prepared : a.service.prepare occurrence with ⟨s, job⟩
    rw [after_take resume prepared]
    cases job with
    | none => exact .prepared s none prepared rfl rfl ⟨rfl, rfl, rfl⟩
    | some job =>
      have performed := s.performed job.purpose (s.interface.carryOut job.operation)
      exact .prepared s job prepared rfl rfl performed.keeps

end Account

theorem filterMap_begin {α : Type} (f : Deed → Option α) (job : Option Job) (s : Service) :
    (job.map fun j => Deed.begin j s).toList.filterMap f =
      (job.bind fun j => f (Deed.begin j s)).toList := by
  cases job with
  | none => rfl
  | some j => cases told : f (Deed.begin j s) <;> simp [told]

/-- What is kept until it is used goes on in this way. -/
theorem perm_of_moved {α : Type} {all kept left used new begun : List α}
    (moved : (new ++ kept).Perm (left ++ begun)) (places : all.Perm (kept ++ used)) :
    (new ++ all).Perm (left ++ (begun ++ used)) := by
  refine (places.append_left new).trans ?_
  rw [← List.append_assoc, ← List.append_assoc]
  exact moved.append_right used

/-! ## Decisions -/

/-- What the authorizer has said of a caller who wants to set a rate. -/
structure Decision where
  caller : Nat
  who : Requester
  refusal : Option Fault
  deriving DecidableEq

/-- The caller and what it is told. -/
def Decision.outcome (d : Decision) : Nat × Option Fault := (d.caller, d.refusal)

namespace Check

/-- What the authorizer has said of a caller whose authorization has begun. -/
def outcome? (c : Check) : Option (Nat × Option Fault) :=
  c.arrival.map fun arrival => (c.caller, arrival.content)

/-- The caller, if its authorization has not begun. -/
def undecided? (c : Check) : Option Nat := if c.arrival.isNone then some c.caller else none

end Check

namespace Service

/-- What the authorizer says of a caller when it is asked now. -/
def decision (s : Service) (caller : Nat) (who : Requester) : Decision :=
  ⟨caller, who, (s.world.beginAuthorization who).2.refusal⟩

/-- What the authorizer says as an occurrence is taken. A service that is serving asks when an
authorization begins; where requests act on the interface, one that sets a rate asks itself. -/
def decision? (s : Service) : Occurrence → Option Decision
  | .request =>
    match s.queue with
    | ⟨caller, .setup _ who⟩ :: _ =>
      if s.stage = .serving then none else some (s.decision caller who)
    | _ => none
  | .check caller =>
    match s.checks.find? fun c => c.caller = caller with
    | some c => if c.arrival.isNone then some (s.decision c.caller c.who) else none
    | none => none
  | _ => none

/-- The callers of whom the authorizer has said nothing. -/
def undecided (s : Service) : List Nat :=
  s.queue.map Queued.caller ++ s.checks.filterMap Check.undecided?

end Service

/-- What a deed for a caller takes to be said of it. -/
def Deed.outcome? (d : Deed) : Option (Nat × Option Fault) :=
  match d.purpose with
  | .answer caller => (d.operation.decided? d.turns).map fun refusal => (caller, refusal)
  | _ => none

/-! ## What a service makes of decisions -/

theorem nodup_of_subperm {α : Type} {first second : List α} (fewer : first.Subperm second)
    (once : second.Nodup) : first.Nodup := by
  obtain ⟨list, perm, sublist⟩ := fewer
  exact perm.nodup_iff.1 (once.sublist sublist)

theorem Deed.outcome?_begin_conclude (caller : Nat) (rate : UInt32) (refusal : Option Fault)
    (s : Service) :
    (begin ⟨.answer caller, .conclude rate refusal⟩ s).outcome? = some (caller, refusal) := rfl

theorem Deed.outcome?_begin_setup (caller : Nat) (rate : UInt32) (who : Requester) (s : Service) :
    (begin ⟨.answer caller, .serve (.setup rate who)⟩ s).outcome? =
      some (s.decision caller who).outcome := rfl

theorem Deed.hasAsked_begin (job : Job) (s : Service) :
    (begin job s).operation.HasAsked (begin job s).turns := by
  rintro rate who operation
  obtain ⟨purpose, operation⟩ := job
  subst operation
  exact ⟨_, rfl⟩

namespace Service

/-- What becomes of the requests that the authorizer decides on, and what it says meanwhile. -/
inductive Consults (s t : Service) : Option Job → Option Decision → Prop
  | apart {job : Option Job} (queue : t.queue.Sublist s.queue) (checks : t.checks = s.checks)
      (other : ∀ j, job = some j → (Deed.begin j t).outcome? = none) : Consults s t job none
  /-- A Setup request is set aside. -/
  | aside (caller : Nat) (rate : UInt32) (who : Requester)
      (queue : s.queue = ⟨caller, .setup rate who⟩ :: t.queue)
      (checks : t.checks = s.checks ++ [⟨caller, rate, who, none⟩]) : Consults s t none none
  /-- A Setup request is served whole. -/
  | whole (caller : Nat) (rate : UInt32) (who : Requester)
      (queue : s.queue = ⟨caller, .setup rate who⟩ :: t.queue) (checks : t.checks = s.checks)
      (world : t.world = s.world) :
      Consults s t (some ⟨.answer caller, .serve (.setup rate who)⟩) (some (s.decision caller who))
  | begins (c : Check) (time : Nat) (rest : List Check) (unbegun : c.arrival = none)
      (queue : t.queue = s.queue) (before : s.checks.Perm (c :: rest))
      (after : t.checks.Perm
        ({ c with arrival := some ⟨time, (s.decision c.caller c.who).refusal⟩ } :: rest)) :
      Consults s t none (some (s.decision c.caller c.who))
  | ends (c : Check) (arrival : Arrival (Option Fault)) (rest : List Check)
      (begun : c.arrival = some arrival) (queue : t.queue = s.queue)
      (before : s.checks.Perm (c :: rest)) (after : t.checks = rest) :
      Consults s t (some ⟨.answer c.caller, .conclude c.rate arrival.content⟩) none
  /-- An authorization ends as it begins. -/
  | prompt (c : Check) (rest : List Check) (unbegun : c.arrival = none) (queue : t.queue = s.queue)
      (before : s.checks.Perm (c :: rest)) (after : t.checks = rest) :
      Consults s t
        (some ⟨.answer c.caller, .conclude c.rate (s.decision c.caller c.who).refusal⟩)
        (some (s.decision c.caller c.who))

/-- One authorization can be taken from the others or renewed among them. -/
theorem perm_checks {s : Service} {c : Check} (once : (s.checks.map Check.caller).Nodup)
    (pending : c ∈ s.checks) :
    s.checks.Perm (c :: s.checks.filter fun d => d.caller ≠ c.caller) ∧
      ∀ begun, (s.checks.map fun d => if d.caller = c.caller then begun else d).Perm
        (begun :: s.checks.filter fun d => d.caller ≠ c.caller) := by
  have split := perm_cons_filter_ne once pending
  refine ⟨split, fun begun => ?_⟩
  have renewed := split.map fun d => if d.caller = c.caller then begun else d
  have kept : ((s.checks.filter fun d => d.caller ≠ c.caller).map fun d =>
      if d.caller = c.caller then begun else d) =
        s.checks.filter fun d => d.caller ≠ c.caller := by
    refine (List.map_congr_left fun d mem => if_neg ?_).trans (List.map_id _)
    exact of_decide_eq_true (List.mem_filter.1 mem).2
  rwa [List.map_cons, if_pos rfl, kept] at renewed

theorem consults_dispatch {s t : Service} {queued : Queued} {rest : List Queued}
    {job : Option Job} (queue : s.queue = queued :: rest)
    (dispatched : { s with queue := rest }.dispatch queued = (t, job)) :
    s.Consults t job (s.decision? .request) := by
  unfold dispatch at dispatched
  split at dispatched
  next rate who serving setup =>
    obtain ⟨rfl, rfl⟩ := Prod.mk.inj dispatched
    obtain ⟨caller, request⟩ := queued
    dsimp only at serving setup
    subst setup
    have silent : s.decision? .request = none := by simp [decision?, queue, serving]
    rw [silent]
    exact .aside caller rate who queue rfl
  next other =>
    obtain ⟨rfl, rfl⟩ := Prod.mk.inj dispatched
    obtain ⟨caller, request⟩ := queued
    cases request with
    | setup rate who =>
      have asks : s.decision? .request = some (s.decision caller who) := by
        have apart : s.stage ≠ .serving := fun serving => other rate who serving rfl
        simp [decision?, queue, apart]
      rw [asks]
      exact .whole caller rate who queue rfl rfl
    | _ =>
      have silent : s.decision? .request = none := by simp [decision?, queue]
      rw [silent]
      exact .apart (by simp [queue]) rfl (by rintro _ ⟨⟩; rfl)

theorem consults_beginCheck {s t : Service} {c : Check} {job : Option Job}
    (once : (s.checks.map Check.caller).Nodup) (pending : c ∈ s.checks)
    (unbegun : c.arrival = none) (prepared : s.beginCheck c = (t, job)) :
    s.Consults t job (some (s.decision c.caller c.who)) := by
  obtain ⟨before, renewed⟩ := perm_checks once pending
  unfold beginCheck conclude at prepared
  dsimp only at prepared
  split at prepared
  · obtain ⟨rfl, rfl⟩ := Prod.mk.inj prepared
    exact .prompt c _ unbegun rfl before rfl
  · obtain ⟨rfl, rfl⟩ := Prod.mk.inj prepared
    exact .begins c _ _ unbegun rfl before (renewed _)

theorem consults_prepare {s t : Service} {occurrence : Occurrence} {job : Option Job}
    (once : (s.checks.map Check.caller).Nodup)
    (prepared : s.prepare occurrence = (t, job)) : s.Consults t job (s.decision? occurrence) := by
  cases occurrence with
  | resume =>
    obtain ⟨rfl, rfl⟩ := Prod.mk.inj prepared
    exact .apart (.refl _) rfl (by rintro _ ⟨⟩)
  | request =>
    simp only [prepare] at prepared
    split at prepared
    next queued rest queue => exact consults_dispatch queue prepared
    next drained =>
      obtain ⟨rfl, rfl⟩ := Prod.mk.inj prepared
      have silent : s.decision? .request = none := by simp [decision?, drained]
      rw [silent]
      exact .apart (.refl _) rfl (by rintro _ ⟨⟩)
  | check caller =>
    simp only [prepare] at prepared
    split at prepared
    next c here =>
      have pending := List.mem_of_find?_eq_some here
      split at prepared
      next arrival begun =>
        obtain ⟨rfl, rfl⟩ := Prod.mk.inj prepared
        have silent : s.decision? (.check caller) = none := by simp [decision?, here, begun]
        rw [silent]
        exact .ends c arrival _ begun rfl (perm_checks once pending).1 rfl
      next unbegun =>
        have asks : s.decision? (.check caller) = some (s.decision c.caller c.who) := by
          simp [decision?, here, unbegun]
        rw [asks]
        exact consults_beginCheck once pending unbegun prepared
    next absent =>
      obtain ⟨rfl, rfl⟩ := Prod.mk.inj prepared
      have silent : s.decision? (.check caller) = none := by simp [decision?, absent]
      rw [silent]
      exact .apart (.refl _) rfl (by rintro _ ⟨⟩)
  | tick =>
    obtain ⟨rfl, rfl⟩ := Prod.mk.inj prepared
    exact .apart (.refl _) rfl (by rintro _ ⟨⟩; rfl)
  | load query =>
    simp only [prepare, beginLoad, concludeLoad] at prepared
    split at prepared
    · obtain ⟨rfl, rfl⟩ := Prod.mk.inj prepared
      exact .apart (.refl _) rfl (by rintro _ ⟨⟩; rfl)
    · split at prepared
      · obtain ⟨rfl, rfl⟩ := Prod.mk.inj prepared
        exact .apart (.refl _) rfl (by rintro _ ⟨⟩; rfl)
      · obtain ⟨rfl, rfl⟩ := Prod.mk.inj prepared
        exact .apart (.refl _) rfl (by rintro _ ⟨⟩)
  | close =>
    obtain ⟨rfl, rfl⟩ := Prod.mk.inj prepared
    exact .apart (.refl _) rfl (by rintro _ ⟨⟩; rfl)

section

variable {s t : Service} {job : Option Job} {decision : Option Decision}

/-- A caller of whom the authorizer has spoken is no longer without a decision. -/
theorem undecided_of_decided {c : Check} {rest : List Check} (unbegun : c.arrival = none)
    (queue : t.queue = s.queue) (before : s.checks.Perm (c :: rest))
    (left : (t.checks.filterMap Check.undecided?).Perm (rest.filterMap Check.undecided?)) :
    (c.caller :: t.undecided).Perm s.undecided := by
  have waits : c.undecided? = some c.caller := by simp [Check.undecided?, unbegun]
  have all := before.filterMap Check.undecided?
  rw [List.filterMap_cons_some waits] at all
  rw [undecided, undecided, queue]
  exact ((left.append_left _).cons _).trans
    (List.perm_middle.symm.trans (all.append_left _).symm)

/-- Nobody is without a decision who was not before, and whoever the authorizer speaks of is no
longer. -/
theorem Consults.undecided (consults : s.Consults t job decision) :
    (decision.toList.map Decision.caller ++ t.undecided).Subperm s.undecided := by
  cases consults with
  | apart queue checks =>
    simp only [Service.undecided, checks]
    exact ((queue.map _).append_right _).subperm
  | aside asking rate who queue checks =>
    have last : [(⟨asking, rate, who, none⟩ : Check)].filterMap Check.undecided? = [asking] := rfl
    refine List.Perm.subperm ?_
    change t.undecided.Perm s.undecided
    rw [Service.undecided, Service.undecided, queue, checks, List.filterMap_append, last,
      ← List.append_assoc]
    exact List.perm_append_singleton asking _
  | whole asking rate who queue checks =>
    simp [Service.undecided, queue, checks, decision, List.Subperm.refl]
  | begins c time rest unbegun queue before after =>
    have left := after.filterMap Check.undecided?
    rw [List.filterMap_cons_none rfl] at left
    exact (undecided_of_decided unbegun queue before left).subperm
  | ends c arrival rest begun queue before after =>
    have told : c.undecided? = none := by simp [Check.undecided?, begun]
    have all := before.filterMap Check.undecided?
    rw [List.filterMap_cons_none told, ← after] at all
    rw [Service.undecided, Service.undecided, queue]
    exact (all.symm.append_left _).subperm
  | prompt c rest unbegun queue before after =>
    exact (undecided_of_decided unbegun queue before (by rw [after])).subperm

/-- What the authorizer says is kept with the request or acted on. -/
theorem Consults.outcomes (consults : s.Consults t job decision) :
    (decision.toList.map Decision.outcome ++ s.checks.filterMap Check.outcome?).Perm
      (t.checks.filterMap Check.outcome? ++
        (job.bind fun j => (Deed.begin j t).outcome?).toList) := by
  cases consults with
  | apart queue checks other =>
    have silent : (job.bind fun j => (Deed.begin j t).outcome?) = none := by
      cases job with
      | none => rfl
      | some j => exact other j rfl
    simp [silent, checks]
  | aside asking rate who queue checks =>
    have waits : Check.outcome? ⟨asking, rate, who, none⟩ = none := rfl
    simp [checks, waits]
  | whole asking rate who queue checks world =>
    have same : t.decision asking who = s.decision asking who := by simp [decision, world]
    rw [checks, Option.bind_some, Deed.outcome?_begin_setup, same]
    exact List.perm_append_comm
  | begins c time rest unbegun queue before after =>
    have waits : c.outcome? = none := by simp [Check.outcome?, unbegun]
    have told : Check.outcome?
        { c with arrival := some ⟨time, (s.decision c.caller c.who).refusal⟩ } =
          some (s.decision c.caller c.who).outcome := rfl
    have others := before.filterMap Check.outcome?
    have more := after.filterMap Check.outcome?
    rw [List.filterMap_cons_none waits] at others
    rw [List.filterMap_cons_some told] at more
    simp only [Option.bind_none, Option.toList_none, List.append_nil]
    exact (others.cons _).trans more.symm
  | ends c arrival rest begun queue before after =>
    have told : c.outcome? = some (c.caller, arrival.content) := by simp [Check.outcome?, begun]
    have all := before.filterMap Check.outcome?
    rw [List.filterMap_cons_some told] at all
    rw [Option.bind_some, Deed.outcome?_begin_conclude, after]
    exact all.trans (List.perm_append_singleton _ _).symm
  | prompt c rest unbegun queue before after =>
    have waits : c.outcome? = none := by simp [Check.outcome?, unbegun]
    have others := before.filterMap Check.outcome?
    rw [List.filterMap_cons_none waits] at others
    rw [Option.bind_some, Deed.outcome?_begin_conclude, after]
    exact (others.cons _).trans (List.perm_append_singleton _ _).symm

/-- Of whom the authorizer speaks has asked for a rate. -/
theorem Consults.asked {d : Decision} (consults : s.Consults t job (some d)) :
    ∃ rate, ⟨d.caller, .setup rate d.who⟩ ∈ s.queue ∨
      ∃ c ∈ s.checks, c.caller = d.caller ∧ c.rate = rate ∧ c.who = d.who := by
  cases consults with
  | whole asking rate who queue => exact ⟨rate, .inl (by simp [queue, decision])⟩
  | begins c time rest unbegun queue before | prompt c rest unbegun queue before =>
    exact ⟨c.rate, .inr ⟨c, before.mem_iff.2 List.mem_cons_self, rfl, rfl, rfl⟩⟩

end

theorem undecided_send (s : Service) (caller : Nat) (request : Request) :
    (s.send caller request).undecided.Subperm (caller :: s.undecided) := by
  rw [undecided, checks_send, undecided]
  unfold Service.send
  split
  · exact (List.sublist_cons_self _ _).subperm
  · rw [List.map_append, List.append_assoc]
    exact List.perm_middle.subperm

end Service

/-! ## What has been decided -/

namespace Account

variable {a b : Account}

/-- The authorizer has spoken of each caller once at the most. What it has said is kept with the
request until the authorization ends, and then a deed goes by it. -/
structure Decided (a : Account) (decisions : List Decision) : Prop where
  once : (decisions.map Decision.caller ++ a.service.undecided).Nodup
  asked : ∀ d ∈ decisions, ∃ rate, ⟨d.caller, .setup rate d.who⟩ ∈ a.sent
  outcomes : (decisions.map Decision.outcome).Perm
    (a.service.checks.filterMap Check.outcome? ++ a.deeds.filterMap Deed.outcome?)
  begun : ∀ d ∈ a.deeds, d.operation.HasAsked d.turns

theorem decided_fresh (surroundings : Surroundings) :
    (fresh config supported stage surroundings).Decided [] where
  once := List.nodup_nil
  asked _ mem := absurd mem List.not_mem_nil
  outcomes := List.Perm.nil
  begun _ mem := absurd mem List.not_mem_nil

theorem Decided.of_consults {decisions : List Decision} {s : Service} {job : Option Job}
    {decision : Option Decision} (decided : a.Decided decisions) (requested : a.Requested)
    (consults : a.service.Consults s job decision)
    (deeds : b.deeds = (job.map fun j => Deed.begin j s).toList ++ a.deeds)
    (sent : b.sent = a.sent) (keeps : s.Keeps b.service) :
    b.Decided (decision.toList ++ decisions) := by
  have undecided : b.service.undecided = s.undecided := by
    rw [Service.undecided, Service.undecided, keeps.queue, keeps.checks]
  constructor
  case once =>
    -- Whoever is decided on now has been without a decision.
    have fewer := (List.subperm_append_left (decisions.map Decision.caller)).2 consults.undecided
    have once := nodup_of_subperm fewer decided.once
    rw [← List.append_assoc] at once
    rw [undecided, List.map_append]
    exact (List.perm_append_comm.append_right _).nodup_iff.1 once
  case asked =>
    rw [sent]
    intro d mem
    rcases List.mem_append.1 mem with new | old
    · obtain rfl := Option.mem_toList.1 new
      obtain ⟨rate, waiting | ⟨c, pending, caller, rfl, who⟩⟩ := consults.asked
      · exact ⟨rate, requested.queued _ waiting⟩
      · rw [← caller, ← who]
        exact ⟨c.rate, requested.pending c pending⟩
    · exact decided.asked d old
  case outcomes =>
    rw [keeps.checks, deeds, List.map_append, List.filterMap_append, filterMap_begin]
    exact perm_of_moved consults.outcomes decided.outcomes
  case begun =>
    rw [deeds]
    intro d mem
    rcases List.mem_append.1 mem with new | old
    · obtain ⟨j, rfl, rfl⟩ := Option.map_eq_some_iff.1 (Option.mem_toList.1 new)
      exact Deed.hasAsked_begin j s
    · exact decided.begun d old

/-- A deed that goes on goes by what it has gone by. -/
theorem Decided.resumed {decisions : List Decision} {d : Deed} {earlier : List Deed} {w : World}
    (decided : a.Decided decisions) (before : a.deeds = d :: earlier)
    (deeds : b.deeds = d.resume w :: earlier) (sent : b.sent = a.sent)
    (keeps : a.service.Keeps b.service) : b.Decided decisions := by
  obtain ⟨once, asked, outcomes, begun⟩ := decided
  rw [before, List.forall_mem_cons] at begun
  have same : (d.resume w).outcome? = d.outcome? := by
    have decided : (d.resume w).operation.decided? (d.resume w).turns =
        d.operation.decided? d.turns := begun.1.decided?_append _
    rw [Deed.outcome?, Deed.outcome?, decided]
    rfl
  constructor
  case once => rwa [Service.undecided, keeps.queue, keeps.checks]
  case asked => rwa [sent]
  case outcomes =>
    rw [before] at outcomes
    rwa [keeps.checks, deeds, List.filterMap_cons, same, ← List.filterMap_cons]
  case begun =>
    rw [deeds]
    exact List.forall_mem_cons.2 ⟨begun.1.append _, begun.2⟩

theorem Decided.take {decisions : List Decision} {occurrence : Service.Occurrence}
    (decided : a.Decided decisions) (reachable : Reachable config supported stage a)
    (ready : occurrence ∈ a.service.ready) :
    (a.after (.take occurrence)).Decided
      ((a.service.decision? occurrence).toList ++ decisions) := by
  cases reachable.brings ready with
  | resumed d earlier w resume before deeds sent keeps =>
    subst resume
    exact decided.resumed before deeds sent keeps
  | prepared s job prepared deeds sent keeps =>
    have consults := Service.consults_prepare reachable.nodup_checks prepared
    exact decided.of_consults reachable.requested consults deeds sent keeps

/-- Whoever has been spoken of has sent a request, and so has whoever waits for that. -/
theorem Decided.mem_sent {decisions : List Decision} {caller : Nat} (decided : a.Decided decisions)
    (requested : a.Requested)
    (known : caller ∈ decisions.map Decision.caller ++ a.service.undecided) :
    caller ∈ a.sent.map Queued.caller := by
  rcases List.mem_append.1 known with told | waits
  · obtain ⟨d, mem, rfl⟩ := List.mem_map.1 told
    obtain ⟨rate, sent⟩ := decided.asked d mem
    exact List.mem_map_of_mem sent
  rcases List.mem_append.1 waits with queued | pending
  · obtain ⟨q, mem, rfl⟩ := List.mem_map.1 queued
    exact List.mem_map_of_mem (requested.queued q mem)
  · obtain ⟨c, mem, same⟩ := List.mem_filterMap.1 pending
    obtain ⟨-, rfl⟩ : c.arrival = none ∧ c.caller = caller := by
      simpa [Check.undecided?] using same
    exact List.mem_map_of_mem (requested.pending c mem)

theorem Decided.send {decisions : List Decision} {caller : Nat} {request : Request}
    (decided : a.Decided decisions) (requested : a.Requested)
    (allowed : a.Allows (.send caller request)) :
    (a.after (.send caller request)).Decided decisions := by
  -- The caller has sent nothing before, so nobody has spoken of it.
  have new : caller ∉ decisions.map Decision.caller ++ a.service.undecided :=
    fun known => allowed (decided.mem_sent requested known)
  have checks := a.service.checks_send caller request
  obtain ⟨once, asked, outcomes, begun⟩ := decided
  constructor
  case once =>
    have fewer := (List.subperm_append_left (decisions.map Decision.caller)).2
      (a.service.undecided_send caller request)
    exact nodup_of_subperm fewer (List.nodup_middle.2 (List.nodup_cons.2 ⟨new, once⟩))
  case asked =>
    intro d mem
    obtain ⟨rate, sent⟩ := asked d mem
    exact ⟨rate, List.mem_cons_of_mem _ sent⟩
  case outcomes => rwa [← checks] at outcomes
  case begun => exact begun

/-- What a deed takes to be said of its caller has been said of it. -/
theorem Decided.mem_of_outcome {decisions : List Decision} {d : Deed} {caller : Nat} {rate : UInt32}
    {who : Requester} {refusal : Option Fault} (decided : a.Decided decisions)
    (requested : a.Requested) (mem : d ∈ a.deeds) (outcome : d.outcome? = some (caller, refusal))
    (sent : ⟨caller, .setup rate who⟩ ∈ a.sent) : ⟨caller, who, refusal⟩ ∈ decisions := by
  have known : (caller, refusal) ∈ decisions.map Decision.outcome := by
    rw [decided.outcomes.mem_iff]
    exact List.mem_append_right _ (List.mem_filterMap.2 ⟨d, mem, outcome⟩)
  obtain ⟨⟨asking, other, said⟩, said_of, same⟩ := List.mem_map.1 known
  obtain ⟨rfl, rfl⟩ := Prod.mk.inj same
  obtain ⟨asked, mem⟩ := decided.asked _ said_of
  obtain ⟨-, rfl⟩ := Request.setup.inj (requested.unique mem sent)
  exact said_of

/-- Whatever is done for the caller of a Setup request goes by what has been said of it. -/
theorem Decided.decision_of_deed {decisions : List Decision} {d : Deed} {caller : Nat}
    {rate : UInt32} {who : Requester} (decided : a.Decided decisions) (requested : a.Requested)
    (mem : d ∈ a.deeds) (purpose : d.purpose = .answer caller)
    (sent : ⟨caller, .setup rate who⟩ ∈ a.sent) :
    ∃ refusal, ⟨caller, who, refusal⟩ ∈ decisions ∧
      (d.operation = .conclude rate refusal ∨
        d.operation = .serve (.setup rate who) ∧ verdict? d.turns = some refusal) := by
  have owed := requested.owed d mem
  have begun := decided.begun d mem
  rw [purpose] at owed
  have outcome {refusal : Option Fault} (said : d.operation.decided? d.turns = some refusal) :
      d.outcome? = some (caller, refusal) := by
    rw [Deed.outcome?, purpose]
    simp [said]
  have known {refusal : Option Fault} (said : d.operation.decided? d.turns = some refusal) :
      ⟨caller, who, refusal⟩ ∈ decisions :=
    decided.mem_of_outcome requested mem (outcome said) sent
  generalize d.operation = operation at owed begun known ⊢
  cases owed with
  | serve asked =>
    obtain rfl := requested.unique asked sent
    obtain ⟨refusal, said⟩ := begun rate who rfl
    exact ⟨refusal, known said, .inr ⟨rfl, said⟩⟩
  | conclude refusal asked =>
    obtain ⟨rfl, -⟩ := Request.setup.inj (requested.unique asked sent)
    exact ⟨refusal, known rfl, .inl rfl⟩

theorem Decided.unique {decisions : List Decision} (decided : a.Decided decisions)
    {first second : Decision} (one : first ∈ decisions) (other : second ∈ decisions)
    (same : first.caller = second.caller) : first = second :=
  List.inj_on_of_nodup_map (List.nodup_append.1 decided.once).1 one other same

/-- What the authorizer has said, the latest first. -/
def Past.decisions (past : Past config supported stage a) : List Decision :=
  past.gather Service.decision?

theorem Past.decided (past : Past config supported stage a) : a.Decided past.decisions := by
  induction past with
  | start checked surroundings => exact decided_fresh surroundings
  | @step a m past allowed ih =>
    have reachable := past.reachable
    cases m with
    | send caller request => exact ih.send reachable.requested allowed
    | take occurrence => exact ih.take reachable allowed
    | _ => exact ⟨ih.once, ih.asked, ih.outcomes, ih.begun⟩

end Account

end Modem.Session
