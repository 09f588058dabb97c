import Mathlib.Data.List.Nodup
import Modem.Proofs.Session.Conservation
import Modem.Proofs.Session.Ready
import Modem.Proofs.Session.Refusals

/-! # What an occurrence begins

An occurrence that is ready begins at most one deed, and under one condition for each kind of
occurrence. A service that asks for rights works for the caller of a Setup request only when the
authorization ends. -/

namespace Modem.Session

open Signal

/-! ## What begins -/

namespace Service

/-- The authorization of a Setup request ends now: its end has arrived, or it has not begun and is
over at once. -/
inductive Ends (s : Service) (c : Check) : Option Fault → Prop
  | arrived (arrival : Arrival (Option Fault)) (begun : c.arrival = some arrival)
      (due : arrival.time ≤ s.now) : Ends s c arrival.content
  | prompt (unbegun : c.arrival = none) (prompt : (s.world.beginAuthorization c.who).2.delay = 0) :
      Ends s c (s.world.beginAuthorization c.who).2.refusal

/-- The answer to a query is handled now: it has arrived, or the query reaches the device and is
answered at once. -/
inductive Answers (s : Service) (query : Query) : Except Fault Snapshot → Prop
  | arrived (l : Load) (asked : l ∈ s.loads) (same : l.query = query)
      (due : l.arrival.time ≤ s.now) : Answers s query l.arrival.content
  | prompt (unasked : query ∈ s.unbegun) (prompt : s.world.beginQuery.2.delay = 0) :
      Answers s query s.world.beginQuery.2.result

/-- What a service begins by taking an occurrence. -/
inductive Begins (s : Service) : Occurrence → Purpose → Operation → Prop
  | request (queued : Queued) (rest : List Queued) (queue : s.queue = queued :: rest)
      (unasked : s.stage ≠ .direct → ∀ rate who, queued.request ≠ .setup rate who) :
      Begins s .request (.answer queued.caller) (.serve queued.request)
  | check (c : Check) (refusal : Option Fault) (pending : c ∈ s.checks)
      (ends : s.Ends c refusal) :
      Begins s (.check c.caller) (.answer c.caller) (.conclude c.rate refusal)
  | tick : Begins s .tick .refresh .tick
  | load (query : Query) (result : Except Fault Snapshot) (answers : s.Answers query result) :
      Begins s (.load query) .refresh (.loaded query result)
  | close (deserted : s.Deserted) : Begins s .close .close (.serve .shutDown)

/-- A query reaches the device only if it has not done so before. -/
theorem Prepared.nodup_loads {s t : Service} {job : Option Job} (prepared : s.Prepared (t, job))
    (once : (s.loads.map Load.query).Nodup) : (t.loads.map Load.query).Nodup := by
  cases prepared with
  | query query arrival world pending calls unasked =>
    have new : query ∉ s.loads.map Load.query := by
      intro mem
      obtain ⟨l, asked, same⟩ := List.mem_map.1 mem
      exact unasked l asked same
    rw [List.map_append]
    exact once.append (List.nodup_singleton _) (List.disjoint_singleton.2 new)
  | loaded query result world pending =>
    exact once.sublist (List.filter_sublist.map _)
  | _ => exact once

/-- An authorization that has begun is ready only when its end has arrived. -/
theorem due_of_mem_readyChecks {s : Service} {c : Check} {arrival : Arrival (Option Fault)}
    (once : (s.checks.map Check.caller).Nodup) (pending : c ∈ s.checks)
    (begun : c.arrival = some arrival) (ready : .check c.caller ∈ s.readyChecks) :
    arrival.time ≤ s.now := by
  obtain ⟨d, same, here | first⟩ := mem_readyChecks_iff.1 ready
  · obtain ⟨mem, arrived, arrives, due⟩ := mem_arrived_iff.1 here
    obtain rfl := List.inj_on_of_nodup_map once mem pending same
    obtain rfl := Option.some.inj (begun.symm.trans arrives)
    exact due
  · obtain ⟨mem, unbegun⟩ := List.mem_filter.1 (List.mem_of_head? first)
    obtain rfl := List.inj_on_of_nodup_map once mem pending same
    rw [begun] at unbegun
    cases unbegun

/-- A query that has reached the device is ready only when its answer has arrived. -/
theorem due_of_mem_readyLoads {s : Service} {l : Load} (once : (s.loads.map Load.query).Nodup)
    (asked : l ∈ s.loads) (ready : .load l.query ∈ s.readyLoads) : l.arrival.time ≤ s.now := by
  rcases mem_readyLoads_iff.1 ready with ⟨k, mem, same, due⟩ | first
  · obtain rfl := List.inj_on_of_nodup_map once mem asked same
    exact due
  · have unasked := (List.mem_filter.1 (List.mem_of_head? first)).2
    simp only [Bool.not_eq_true', List.any_eq_false] at unasked
    exact absurd (decide_eq_true rfl) (unasked l asked)

theorem begins_of_dispatch {s t : Service} {queued : Queued} {rest : List Queued} {job : Job}
    (ready : .request ∈ s.ready) (queue : s.queue = queued :: rest)
    (dispatched : { s with queue := rest }.dispatch queued = (t, some job)) :
    s.Begins .request job.purpose job.operation := by
  unfold dispatch at dispatched
  split at dispatched
  · cases dispatched
  next other =>
    obtain rfl := Option.some.inj (Prod.mk.inj dispatched).2
    refine .request queued rest queue fun served rate who setup => ?_
    have serving : s.stage = .serving := serving_of_request_mem_ready ready served
    exact other rate who serving setup

theorem begins_of_check {s t : Service} {c : Check} {job : Job}
    (once : (s.checks.map Check.caller).Nodup) (pending : c ∈ s.checks)
    (ready : .check c.caller ∈ s.readyChecks)
    (prepared : (match c.arrival with
      | some arrival => s.conclude c arrival.content
      | none => s.beginCheck c) = (t, some job)) :
    s.Begins (.check c.caller) job.purpose job.operation := by
  cases begun : c.arrival with
  | some arrival =>
    simp only [begun, conclude] at prepared
    obtain rfl := Option.some.inj (Prod.mk.inj prepared).2
    have due := due_of_mem_readyChecks once pending begun ready
    exact .check c _ pending (.arrived arrival begun due)
  | none =>
    simp only [begun, beginCheck, conclude] at prepared
    split at prepared
    next prompt =>
      obtain rfl := Option.some.inj (Prod.mk.inj prepared).2
      exact .check c _ pending (.prompt begun prompt)
    · cases prepared

theorem begins_of_load {s t : Service} {query : Query} {job : Job}
    (once : (s.loads.map Load.query).Nodup) (ready : .load query ∈ s.readyLoads)
    (prepared : s.prepare (.load query) = (t, some job)) :
    s.Begins (.load query) job.purpose job.operation := by
  simp only [prepare, beginLoad, concludeLoad] at prepared
  split at prepared
  next l found =>
    obtain rfl := Option.some.inj (Prod.mk.inj prepared).2
    obtain rfl : l.query = query := by simpa using List.find?_some found
    have asked := List.mem_of_find?_eq_some found
    exact .load _ _ (.arrived l asked rfl (due_of_mem_readyLoads once asked ready))
  next absent =>
    have unasked : ∀ l ∈ s.loads, l.query ≠ query := by simpa using absent
    split at prepared
    next prompt =>
      obtain rfl := Option.some.inj (Prod.mk.inj prepared).2
      exact .load query _ (.prompt (mem_unbegun_of_mem_readyLoads unasked ready) prompt)
    · cases prepared

/-- What begins with an occurrence that is ready. -/
theorem begins_of_prepare {s t : Service} {occurrence : Occurrence} {job : Job}
    (once : (s.checks.map Check.caller).Nodup) (asked : (s.loads.map Load.query).Nodup)
    (ready : occurrence ∈ s.ready) (prepared : s.prepare occurrence = (t, some job)) :
    s.Begins occurrence job.purpose job.operation := by
  cases occurrence with
  | resume => cases prepared
  | request =>
    simp only [prepare] at prepared
    split at prepared
    next queued rest queue => exact begins_of_dispatch ready queue prepared
    · cases prepared
  | check asking =>
    simp only [prepare] at prepared
    split at prepared
    next c found =>
      obtain rfl : c.caller = asking := by simpa using List.find?_some found
      cases ready_of_mem ready with
      | check _ _ _ mem =>
        exact begins_of_check once (List.mem_of_find?_eq_some found) mem prepared
    · cases prepared
  | tick =>
    obtain rfl := Option.some.inj (Prod.mk.inj prepared).2
    exact .tick
  | load query =>
    cases ready_of_mem ready with
    | load _ _ _ mem => exact begins_of_load asked mem prepared
  | close =>
    obtain rfl := Option.some.inj (Prod.mk.inj prepared).2
    cases ready_of_mem ready with
    | close _ _ deserted => exact .close deserted

theorem Begins.unasked {s : Service} {occurrence : Occurrence} {purpose : Purpose}
    {operation : Operation} (begins : s.Begins occurrence purpose operation)
    (served : s.stage ≠ .direct) (rate : UInt32) (who : Requester) :
    operation ≠ .serve (.setup rate who) := by
  cases begins with
  | request queued rest queue unasked =>
    intro same
    exact unasked served rate who (Operation.serve.inj same)
  | _ => exact nofun

end Service

namespace Account

variable {config : Config} {supported : Bool} {stage : Stage} {a b : Account}

theorem Reachable.nodup_checks (reachable : Reachable config supported stage a) :
    (a.service.checks.map Check.caller).Nodup := by
  obtain ⟨accepted, told, ledger⟩ := reachable.ledger
  exact ledger.nodup_checks reachable.requested

/-- A query reaches the device once. -/
theorem Reachable.nodup_loads (reachable : Reachable config supported stage a) :
    (a.service.loads.map Load.query).Nodup := by
  induction reachable using Reachable.induct with
  | fresh surroundings _ => exact List.nodup_nil
  | @step a m reachable allowed ih =>
    cases m with
    | send caller request => rwa [after, Service.loads_send]
    | take occurrence =>
      have took := reachable.tracks.takes allowed
      generalize a.after (.take occurrence) = b at took
      cases took with
      | moved s idle prepared => exact prepared.nodup_loads ih
      | began s t job world idle prepared calls performed =>
        rw [performed.loads_eq]
        exact prepared.nodup_loads ih
      | continued d earlier time t world w deeds busy calls performed =>
        rwa [performed.loads_eq]
    | _ => exact ih

/-- A deed begins only with the occurrence that is taken. -/
theorem Reachable.begins {m : Move} {d : Deed} (reachable : Reachable config supported stage a)
    (allowed : a.Allows m) (deeds : (a.after m).deeds = d :: a.deeds) :
    ∃ occurrence, m = .take occurrence ∧ a.service.Begins occurrence d.purpose d.operation := by
  cases m with
  | take occurrence =>
    refine ⟨occurrence, rfl, ?_⟩
    by_cases resume : occurrence = .resume
    · subst resume
      have length := congrArg List.length deeds
      simp only [after, deedsAfter] at length
      split at length
      next same => simp [same] at length
      next same => simp [same] at length
    · rcases prepared : a.service.prepare occurrence with ⟨s, job⟩
      rw [after_take resume prepared] at deeds
      cases job with
      | none => exact absurd deeds.symm (List.cons_ne_self _ _)
      | some job =>
        obtain ⟨rfl, -⟩ := List.cons.inj deeds
        exact Service.begins_of_prepare reachable.nodup_checks reachable.nodup_loads allowed
          prepared
  | _ => exact absurd deeds.symm (List.cons_ne_self _ _)

/-! ## Setup requests -/

theorem served_after {m : Move} (served : a.service.stage ≠ .direct) :
    (a.after m).service.stage ≠ .direct := by
  cases m with
  | send caller request => rwa [after, Service.stage_send]
  | serve =>
    rw [after, if_neg served]
    exact served
  | take occurrence => exact fun direct => served (Service.direct_take direct)
  | _ => exact served

theorem Reachable.served (reachable : Reachable config supported stage a)
    (served : stage ≠ .direct) : a.service.stage ≠ .direct := by
  induction reachable using Reachable.induct with
  | fresh surroundings _ => exact served
  | step reachable allowed ih => exact served_after ih

/-- A service asks for the rights of a requester before it changes the rate. -/
theorem Reachable.asks (reachable : Reachable config supported stage a) (served : stage ≠ .direct) :
    ∀ d ∈ a.deeds, ∀ rate who, d.operation ≠ .serve (.setup rate who) := by
  induction reachable using Reachable.induct with
  | fresh surroundings _ => exact fun d mem => absurd mem List.not_mem_nil
  | @step a m reachable allowed ih =>
    have begins := fun d => reachable.begins (d := d) allowed
    cases m with
    | take occurrence =>
      have took := reachable.tracks.takes allowed
      generalize a.after (.take occurrence) = b at took begins
      cases took with
      | moved s idle prepared => exact ih
      | began s t job world =>
        obtain ⟨_, _, begun⟩ := begins _ rfl
        exact List.forall_mem_cons.2 ⟨begun.unasked (reachable.served served), ih⟩
      | continued d earlier time t world w deeds =>
        rw [deeds, List.forall_mem_cons] at ih
        exact List.forall_mem_cons.2 ih
    | _ => exact ih

/-- What is done for the caller of a Setup request is the end of its authorization. -/
theorem Reachable.concludes {caller : Nat} {rate : UInt32} {who : Requester} {d : Deed}
    (reachable : Reachable config supported stage a) (served : stage ≠ .direct)
    (asked : ⟨caller, .setup rate who⟩ ∈ a.sent) (mem : d ∈ a.deeds)
    (purpose : d.purpose = .answer caller) : ∃ refusal, d.operation = .conclude rate refusal := by
  have requested := reachable.requested
  have owed := requested.owed d mem
  have unasked := reachable.asks served d mem
  rw [purpose] at owed
  generalize d.operation = operation at owed unasked
  cases owed with
  | serve sent => exact absurd (requested.unique sent asked ▸ rfl) (unasked rate who)
  | conclude refusal sent =>
    obtain ⟨rfl, -⟩ := Request.setup.inj (requested.unique sent asked)
    exact ⟨refusal, rfl⟩

/-- The deed for the caller of a Setup request begins when its authorization ends. -/
theorem Reachable.concludes_when_ended {m : Move} {d : Deed} {caller : Nat} {rate : UInt32}
    {who : Requester} (reachable : Reachable config supported stage a) (served : stage ≠ .direct)
    (allowed : a.Allows m) (deeds : (a.after m).deeds = d :: a.deeds)
    (asked : ⟨caller, .setup rate who⟩ ∈ a.sent) (purpose : d.purpose = .answer caller) :
    m = .take (.check caller) ∧ ∃ arrival refusal,
      ⟨caller, rate, who, arrival⟩ ∈ a.service.checks ∧
      a.service.Ends ⟨caller, rate, who, arrival⟩ refusal ∧
      d.operation = .conclude rate refusal := by
  have requested := reachable.requested
  obtain ⟨occurrence, rfl, begins⟩ := reachable.begins allowed deeds
  rw [purpose] at begins
  generalize d.operation = operation at begins
  cases begins with
  | request queued rest queue unasked =>
    have sent : queued ∈ a.sent := requested.queued queued (by simp [queue])
    exact absurd (requested.unique sent asked) (unasked (reachable.served served) rate who)
  | check c refusal pending ends =>
    have same := requested.unique (requested.pending c pending) asked
    obtain ⟨rfl, rfl⟩ := Request.setup.inj same
    exact ⟨rfl, c.arrival, refusal, pending, ends, rfl⟩

end Account

end Modem.Session
