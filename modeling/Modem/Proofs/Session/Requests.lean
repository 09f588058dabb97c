import Modem.Proofs.Session.Account

/-! # Requests and answers

Whatever a service has queued, set aside or begun goes back to what has been sent to it, and a
caller is answered only at the end of the deed that its request led to. -/

namespace Modem.Session

open Signal

/-! ## Where deeds come from -/

/-- What a deed is good for: a request that has been sent, the timer, a query, or the end. -/
inductive Owed (sent : List Queued) : Purpose → Operation → Prop
  | serve {caller : Nat} {request : Request} (asked : ⟨caller, request⟩ ∈ sent) :
      Owed sent (.answer caller) (.serve request)
  | conclude {caller : Nat} {rate : UInt32} {who : Requester} (refusal : Option Fault)
      (asked : ⟨caller, .setup rate who⟩ ∈ sent) :
      Owed sent (.answer caller) (.conclude rate refusal)
  | tick : Owed sent .refresh .tick
  | loaded (query : Query) (result : Except Fault Snapshot) :
      Owed sent .refresh (.loaded query result)
  | close : Owed sent .close (.serve .shutDown)

theorem Owed.mono {sent more : List Queued} {purpose : Purpose} {operation : Operation}
    (owed : Owed sent purpose operation) (subset : ∀ q ∈ sent, q ∈ more) :
    Owed more purpose operation := by
  cases owed with
  | serve asked => exact .serve (subset _ asked)
  | conclude refusal asked => exact .conclude refusal (subset _ asked)
  | tick => exact .tick
  | loaded query result => exact .loaded query result
  | close => exact .close

/-- A deed for a caller is owed to a request of the caller. -/
theorem Owed.caller_mem {sent : List Queued} {caller : Nat} {operation : Operation}
    (owed : Owed sent (.answer caller) operation) : caller ∈ sent.map Queued.caller := by
  cases owed with
  | serve asked => exact List.mem_map_of_mem asked
  | conclude refusal asked => exact List.mem_map_of_mem asked

namespace Account

/-- Everything that the service has goes back to what has been sent. -/
structure Requested (a : Account) : Prop where
  callers : (a.sent.map Queued.caller).Nodup
  queued : ∀ q ∈ a.service.queue, q ∈ a.sent
  pending : ∀ c ∈ a.service.checks, ⟨c.caller, .setup c.rate c.who⟩ ∈ a.sent
  owed : ∀ d ∈ a.deeds, Owed a.sent d.purpose d.operation

theorem requested_initial {service : Service} (unqueued : service.queue = [])
    (unchecked : service.checks = []) : Requested { service } where
  callers := .nil
  queued := by simp [unqueued]
  pending := by simp [unchecked]
  owed d mem := absurd mem List.not_mem_nil

theorem Requested.of_prepared {a : Account} {s : Service} {job : Option Job}
    (requested : a.Requested) (prepared : a.service.Prepared (s, job)) :
    (∀ q ∈ s.queue, q ∈ a.sent) ∧ (∀ c ∈ s.checks, ⟨c.caller, .setup c.rate c.who⟩ ∈ a.sent) ∧
      ∀ j, job = some j → Owed a.sent j.purpose j.operation := by
  obtain ⟨-, queued, pending, -⟩ := requested
  have idle : ∀ j : Job, none = some j → Owed a.sent j.purpose j.operation := by
    intro j begun
    cases begun
  have begins : ∀ job : Job, Owed a.sent job.purpose job.operation →
      ∀ j, some job = some j → Owed a.sent j.purpose j.operation := by
    intro job owed j begun
    obtain rfl := Option.some.inj begun
    exact owed
  cases prepared with
  | nothing => exact ⟨queued, pending, idle⟩
  | setAside caller rate who rest world queue =>
    rw [queue, List.forall_mem_cons] at queued
    refine ⟨queued.2, ?_, idle⟩
    intro c mem
    rcases List.mem_append.1 mem with old | new
    · exact pending c old
    · obtain rfl := List.mem_singleton.1 new
      exact queued.1
  | serve caller request rest queue =>
    rw [queue, List.forall_mem_cons] at queued
    exact ⟨queued.2, pending, begins _ (.serve queued.1)⟩
  | ask c arrival world mem =>
    refine ⟨queued, ?_, idle⟩
    intro e mapped
    obtain ⟨d, old, rfl⟩ := List.mem_map.1 mapped
    split
    · exact pending c mem
    · exact pending d old
  | conclude c refusal world mem =>
    refine ⟨queued, ?_, begins _ (.conclude refusal (pending c mem))⟩
    intro e kept
    exact pending e (List.mem_filter.1 kept).1
  | tick => exact ⟨queued, pending, begins _ .tick⟩
  | query => exact ⟨queued, pending, idle⟩
  | loaded query result => exact ⟨queued, pending, begins _ (.loaded query result)⟩
  | close => exact ⟨queued, pending, begins _ .close⟩

theorem Requested.took {a b : Account} (requested : a.Requested) (took : a.Took b) :
    b.Requested := by
  cases took with
  | moved s idle prepared =>
    obtain ⟨queued, pending, -⟩ := requested.of_prepared prepared
    exact ⟨requested.callers, queued, pending, requested.owed⟩
  | began s t job world idle prepared calls performed =>
    obtain ⟨queued, pending, owed⟩ := requested.of_prepared prepared
    refine ⟨requested.callers, by rwa [performed.queue_eq], by rwa [performed.checks_eq], ?_⟩
    exact List.forall_mem_cons.2 ⟨owed job rfl, requested.owed⟩
  | continued d earlier time t world w deeds busy calls performed =>
    obtain ⟨callers, queued, pending, owed⟩ := requested
    rw [deeds, List.forall_mem_cons] at owed
    refine ⟨callers, by rwa [performed.queue_eq], by rwa [performed.checks_eq], ?_⟩
    exact List.forall_mem_cons.2 owed

theorem Requested.after {start : Interface} {a : Account} {m : Move} (requested : a.Requested)
    (tracks : a.Tracks start) (allowed : a.Allows m) : (a.after m).Requested := by
  cases m with
  | send caller request =>
    obtain ⟨callers, queued, pending, owed⟩ := requested
    have old : ∀ q ∈ a.sent, q ∈ (⟨caller, request⟩ :: a.sent : List Queued) :=
      fun q mem => List.mem_cons_of_mem _ mem
    have unsent : (a.sent.map Queued.caller).Nodup := callers
    refine ⟨List.nodup_cons.2 ⟨allowed, unsent⟩, ?_, ?_, fun d mem => (owed d mem).mono old⟩
    · intro q mem
      simp only [Account.after, Service.send] at mem
      split at mem
      · exact old q (queued q mem)
      · rcases List.mem_append.1 mem with waiting | new
        · exact old q (queued q waiting)
        · obtain rfl := List.mem_singleton.1 new
          exact List.mem_cons_self
    · intro c mem
      simp only [Account.after, Service.send] at mem
      split at mem
      · exact old _ (pending c mem)
      · exact old _ (pending c mem)
  | take occurrence => exact requested.took (tracks.takes allowed)
  | _ => exact ⟨requested.callers, requested.queued, requested.pending, requested.owed⟩

theorem Reachable.requested {config : Config} {supported : Bool} {stage : Stage} {a : Account}
    (reachable : Reachable config supported stage a) : a.Requested := by
  induction reachable using Reachable.induct with
  | fresh surroundings _ => exact requested_initial rfl rfl
  | step reachable allowed ih => exact ih.after reachable.tracks allowed

/-- A caller has sent one request. -/
theorem Requested.unique {a : Account} (requested : a.Requested) {caller : Nat}
    {first second : Request} (one : ⟨caller, first⟩ ∈ a.sent) (other : ⟨caller, second⟩ ∈ a.sent) :
    first = second := by
  have callers := requested.callers
  generalize a.sent = sent at callers one other
  induction sent with
  | nil => cases one
  | cons q rest ih =>
    rw [List.map_cons, List.nodup_cons] at callers
    have once : ∀ request, ⟨caller, request⟩ ∈ rest → q.caller ≠ caller := by
      rintro request mem rfl
      exact callers.1 (List.mem_map.2 ⟨_, mem, rfl⟩)
    rcases List.mem_cons.1 one with here | one
    · rcases List.mem_cons.1 other with there | other
      · exact congrArg Queued.request (here.trans there.symm)
      · exact absurd (congrArg Queued.caller here).symm (once second other)
    · rcases List.mem_cons.1 other with there | other
      · exact absurd (congrArg Queued.caller there).symm (once first one)
      · exact ih callers.2 one other

/-! ## Where answers come from -/

/-- The latest deed has just ended and its caller is answered. -/
structure Answered (a : Account) (reply : Reply) : Prop where
  idle : a.service.work = none
  ended : ∃ d earlier, a.deeds = d :: earlier ∧ d.purpose = .answer reply.caller ∧
    d.rest = .done (a.service.interface, reply.answer)

theorem answered_of_performed {a : Account} {s : Service} {d : Deed} {earlier : List Deed}
    {world : World} {reply : Reply} (deeds : a.deeds = d :: earlier) (idle : s.work = none)
    (performed : s.Performed d.purpose world d.rest a.service)
    (mem : reply ∈ a.service.replies) : reply ∈ s.replies ∨ a.Answered reply := by
  generalize left : d.rest = rest at performed
  generalize whole : a.service = t at performed mem
  cases performed with
  | ended result =>
    rcases Service.replies_finish { s with world } d.purpose result with same | ⟨caller, told, more⟩
    · rw [same] at mem
      exact .inl mem
    · rw [more] at mem
      rcases List.mem_cons.1 mem with rfl | old
      · refine .inr ⟨?_, d, earlier, deeds, told, ?_⟩
        · rw [whole, Service.work_finish]
          exact idle
        · rw [whole, Service.interface_finish, left]
      · exact .inl old
  | waits => exact .inl mem

theorem Took.answered {a b : Account} {reply : Reply} (took : a.Took b)
    (mem : reply ∈ b.service.replies) : reply ∈ a.service.replies ∨ b.Answered reply := by
  cases took with
  | moved s idle prepared =>
    rw [prepared.untouched.replies] at mem
    exact .inl mem
  | began s t job world idle prepared calls performed =>
    obtain ⟨-, work, replies, -⟩ := prepared.untouched
    have answered := answered_of_performed (a := ⟨t, a.sent, .begin job s :: a.deeds⟩)
      rfl (work.trans idle) performed mem
    rwa [replies] at answered
  | continued d earlier time t world w deeds busy calls performed =>
    have answered := answered_of_performed (a := ⟨t, a.sent, d.resume w :: earlier⟩)
      rfl rfl performed mem
    exact answered

/-- A move answers nobody but the caller whose deed ends with it, unless the service has stopped. -/
theorem answered_of_after {start : Interface} {a : Account} {m : Move} {reply : Reply}
    (tracks : a.Tracks start) (allowed : a.Allows m)
    (mem : reply ∈ (a.after m).service.replies) :
    reply ∈ a.service.replies ∨ reply.answer = .error Service.gone ∨
      (a.after m).Answered reply := by
  cases m with
  | send caller request =>
    simp only [Account.after, Service.send] at mem
    split at mem
    · rcases List.mem_cons.1 mem with rfl | old
      · exact .inr (.inl rfl)
      · exact .inl old
    · exact .inl mem
  | take occurrence => exact ((tracks.takes allowed).answered mem).imp_right .inr
  | _ => exact .inl mem

end Account

end Modem.Session
