import Modem.Proofs.Session.Beginnings
import Modem.Proofs.Session.Rests

/-! # Before the first authorization

At a service, the rate changes only after an authorization. Before the first one begins, no Setup
request has got further than being set aside, and the rate is the configured one. -/

namespace Modem.Signal

/-- The operation is a Setup request or the end of its authorization. -/
def Operation.isSetup : Operation → Bool
  | .serve (.setup _ _) | .conclude _ _ => true
  | _ => false

end Modem.Signal

namespace Modem.Session

open Signal

namespace World

theorem authorizationsBegun_beginAuthorization (w : World) (who : Requester) :
    (w.beginAuthorization who).1.authorizationsBegun = w.authorizationsBegun + 1 := by
  rw [beginAuthorization, recordLines_eq]
  rfl

theorem Asked.authorizationsBegun {w v : World} (asked : w.Asked v) :
    w.authorizationsBegun ≤ v.authorizationsBegun := by
  cases asked with
  | nothing => exact Nat.le_refl _
  | line line => exact Nat.le_refl _
  | authorization who =>
    rw [authorizationsBegun_beginAuthorization]
    exact Nat.le_succ _
  | query => exact Nat.le_of_eq w.authorizationsBegun_beginQuery.symm

end World

theorem authorizationsBegun_proceed {α : Type} (x : Exchange α) (w : World) :
    w.authorizationsBegun ≤ (proceed x w).1.authorizationsBegun := by
  induction x generalizing w with
  | done result => exact Nat.le_refl _
  | note n rest ih => exact ih (w.record (eventOf n))
  | call c rest ih =>
    simp only [proceed]
    split
    · exact ih _ (w.beginCall c).1
    · exact Nat.le_refl _
  | authorize who rest ih =>
    have begun := (World.Asked.authorization (w := w) who).authorizationsBegun
    simp only [proceed]
    split
    · exact Nat.le_trans begun (ih _ _)
    · exact begun
  | modem rest ih => exact ih _ w
  | clock rest ih => exact ih _ w

namespace Service

theorem authorizationsBegun_carryOut (s : Service) (job : Job) :
    s.world.authorizationsBegun ≤ (s.carryOut job).world.authorizationsBegun := by
  rw [carryOut, (s.performed _ _).world_eq]
  exact authorizationsBegun_proceed _ _

theorem authorizationsBegun_take (s : Service) (occurrence : Occurrence) :
    s.world.authorizationsBegun ≤ (s.take occurrence).world.authorizationsBegun := by
  refine take_kept (P := fun t => s.world.authorizationsBegun ≤ t.world.authorizationsBegun) ?_ id
    fun t purpose x kept => ?_
  · obtain ⟨world, queue, checks, loads, asked, same⟩ := s.prepare_eq occurrence
    rw [same]
    exact asked.authorizationsBegun
  · rw [(t.performed purpose x).world_eq]
    exact Nat.le_trans kept (authorizationsBegun_proceed _ _)

/-- The authorization of a request that is set aside begins. -/
theorem authorizationsBegun_check {s : Service} {c : Check} {caller : Nat}
    (found : (s.checks.find? fun c => c.caller = caller) = some c) (unbegun : c.arrival = none) :
    s.world.authorizationsBegun < (s.take (.check caller)).world.authorizationsBegun := by
  have prepared := prepare_check found
  rw [unbegun] at prepared
  have begun : (s.beginCheck c).1.world.authorizationsBegun = s.world.authorizationsBegun + 1 := by
    rw [← World.authorizationsBegun_beginAuthorization _ c.who]
    unfold beginCheck
    dsimp only
    split <;> rfl
  have fresh : Occurrence.check caller ≠ .resume := nofun
  change s.prepare (.check caller) = s.beginCheck c at prepared
  rcases begins : s.beginCheck c with ⟨t, job⟩
  rw [begins] at prepared begun
  rw [take_of_prepare fresh prepared]
  dsimp only at begun
  cases job with
  | none => exact Nat.lt_of_lt_of_eq (Nat.lt_succ_self _) begun.symm
  | some job =>
    have more := t.authorizationsBegun_carryOut job
    dsimp only
    omega

theorem world_send (s : Service) (caller : Nat) (request : Request) :
    (s.send caller request).world = s.world := by
  unfold Service.send
  split <;> rfl

end Service

namespace Account

variable {config : Config} {supported : Bool} {stage : Stage} {a : Account} {m : Move}

/-- No Setup request has got further than being set aside. -/
structure Unasked (a : Account) : Prop where
  checks : ∀ c ∈ a.service.checks, c.arrival = none
  deeds : ∀ d ∈ a.deeds, d.operation.isSetup = false

theorem Unasked.of_prepared (unasked : a.Unasked) {occurrence : Service.Occurrence}
    (fresh : occurrence ≠ .resume) {s : Service} {job : Option Job}
    (prepared : a.service.prepare occurrence = (s, job))
    (still : ∀ c ∈ s.checks, c.arrival = none)
    (plain : ∀ j, job = some j → j.operation.isSetup = false) :
    (a.after (.take occurrence)).Unasked := by
  rw [after_take fresh prepared]
  cases job with
  | none => exact ⟨still, unasked.deeds⟩
  | some job =>
    refine ⟨?_, List.forall_mem_cons.2 ⟨plain job rfl, unasked.deeds⟩⟩
    change ∀ c ∈ (s.carryOut job).checks, c.arrival = none
    rwa [Service.checks_carryOut]

theorem Unasked.resume (unasked : a.Unasked) (ready : .resume ∈ a.service.ready) :
    (a.after (.take .resume)).Unasked := by
  obtain ⟨checks, deeds⟩ := unasked
  obtain ⟨work, busy⟩ := Service.busy_of_resume_mem_ready ready
  constructor
  · change ∀ c ∈ (a.service.take .resume).checks, c.arrival = none
    simp only [Service.take, busy, (Service.performed _ _ _).checks_eq]
    exact checks
  · simp only [after, deedsAfter]
    cases began : a.deeds with
    | nil => simp
    | cons d earlier =>
      rw [began, List.forall_mem_cons] at deeds
      exact List.forall_mem_cons.2 deeds

/-- Before the first authorization begins, an occurrence comes to nothing that a Setup request
leads to. -/
theorem Unasked.take (unasked : a.Unasked) {occurrence : Service.Occurrence}
    (served : a.service.stage ≠ .direct) (ready : occurrence ∈ a.service.ready)
    (early : (a.after (.take occurrence)).service.world.authorizationsBegun = 0) :
    (a.after (.take occurrence)).Unasked := by
  have checks := unasked.checks
  cases occurrence with
  | resume => exact unasked.resume ready
  | request =>
    have serving := Service.serving_of_request_mem_ready ready served
    cases queue : a.service.queue with
    | nil =>
      exact unasked.of_prepared nofun (Service.prepare_request_of_nil queue) checks
        fun j begun => by cases begun
    | cons queued rest =>
      have prepared := Service.prepare_request queue
      obtain ⟨caller, request⟩ := queued
      by_cases setup : ∃ rate who, request = .setup rate who
      · obtain ⟨rate, who, rfl⟩ := setup
        rw [Service.dispatch_setup (s := { a.service with queue := rest }) serving] at prepared
        refine unasked.of_prepared nofun prepared ?_ fun j begun => by cases begun
        exact List.forall_mem_append.2 ⟨checks, by simp⟩
      · rw [Service.dispatch_other fun _ rate who same => setup ⟨rate, who, same⟩] at prepared
        refine unasked.of_prepared nofun prepared checks fun j begun => ?_
        obtain rfl := Option.some.inj begun
        cases request with
        | setup rate who => exact absurd ⟨rate, who, rfl⟩ setup
        | _ => rfl
  | check caller =>
    cases found : a.service.checks.find? fun c => c.caller = caller with
    | none =>
      exact unasked.of_prepared nofun (Service.prepare_check_of_none found) checks
        fun j begun => by cases begun
    | some c =>
      have unbegun := checks c (List.mem_of_find?_eq_some found)
      have more := Service.authorizationsBegun_check found unbegun
      change (a.service.take (.check caller)).world.authorizationsBegun = 0 at early
      omega
  | tick => exact unasked.of_prepared nofun rfl checks fun j begun => by cases begun; rfl
  | load query =>
    have prepares : a.service.Prepares (.load query) (a.service.prepare (.load query)) := by
      cases Service.ready_of_mem ready with
      | load _ idle serving mem => exact Service.prepares_load mem
    rcases prepared : a.service.prepare (.load query) with ⟨s, job⟩
    rw [prepared] at prepares
    refine unasked.of_prepared nofun prepared ?_ fun j begun => ?_
    · cases prepares <;> exact checks
    · subst begun
      cases prepares <;> rfl
  | close => exact unasked.of_prepared nofun rfl checks fun j begun => by cases begun; rfl

/-- Before the first authorization begins, no Setup request has led to anything. -/
theorem Reachable.unasked (reachable : Reachable config supported .serving a)
    (early : a.service.world.authorizationsBegun = 0) : a.Unasked := by
  induction reachable using Reachable.induct with
  | fresh surroundings _ =>
    refine ⟨?_, ?_⟩
    · exact fun c mem => absurd mem List.not_mem_nil
    · exact fun d mem => absurd mem List.not_mem_nil
  | @step a m reachable allowed ih =>
    cases m with
    | take occurrence =>
      have more := a.service.authorizationsBegun_take occurrence
      have before : a.service.world.authorizationsBegun = 0 := Nat.le_zero.1 (early ▸ more)
      exact (ih before).take (reachable.served nofun) allowed early
    | send caller request =>
      change (a.service.send caller request).world.authorizationsBegun = 0 at early
      rw [Service.world_send] at early
      refine ⟨?_, (ih early).deeds⟩
      change ∀ c ∈ (a.service.send caller request).checks, c.arrival = none
      rw [Service.checks_send]
      exact (ih early).checks
    | _ => exact ⟨(ih early).checks, (ih early).deeds⟩

/-- Before the first authorization begins, the rate is the configured one. -/
theorem Reachable.initialRate (reachable : Reachable config supported .serving a)
    (early : a.service.world.authorizationsBegun = 0) :
    a.service.interface.status.rate = config.initialRate := by
  have unstored : a.ended.findSome? Deed.stored? = none := by
    rw [List.findSome?_eq_none_iff]
    intro d mem
    have plain := (reachable.unasked early).deeds d (mem_deeds_of_ended mem)
    cases stored : d.stored? with
    | none => rfl
    | some rate =>
      have granted := Interface.granted?_of_stored stored
      generalize d.operation = operation at plain granted
      cases operation with
      | serve request =>
        cases request with
        | setup rate who => cases plain
        | _ => cases granted
      | conclude rate refusal => cases plain
      | _ => cases granted
  rw [reachable.ended.rate, unstored]
  rfl

end Account

end Modem.Session
