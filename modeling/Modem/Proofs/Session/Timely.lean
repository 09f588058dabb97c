import Modem.Proofs.Session.Rests

/-! # Answers in time

As long as each call and each authorization is over within the patience of the surroundings, a Setup
request that is awaited is answered before the horizon, whatever the device does meanwhile. Besides
the request, only refreshes have ended by then. -/

namespace Modem.Session

open Signal

/-- What the authorizer makes of the next request. -/
def World.verdict (w : World) (who : Requester) : Verdict :=
  w.surroundings.authorizer w.authorizationsBegun who

namespace Service

variable {s : Service}

/-- By some time, the work under way is over. -/
structure Until (s : Service) (limit : Nat) : Prop where
  now : s.now ≤ limit
  work : ∀ work, s.work = some work → work.time ≤ limit

theorem Until.moveTo {limit time : Nat} (soon : s.Until limit) (within : time ≤ limit) :
    (s.moveTo time).Until limit :=
  ⟨Nat.max_le.2 ⟨soon.now, within⟩, soon.work⟩

theorem wake?_of_busy {work : Work} (busy : s.work = some work) : s.wake? = some work.time := by
  simp only [wake?, busy]

/-- A request that is queued comes first. -/
theorem ready_of_queued (serving : s.stage = .serving) (idle : s.work = none)
    (waiting : s.queue ≠ []) : ∃ rest, s.ready = .request :: rest := by
  have request : s.readyRequest = [.request] := by simp [readyRequest, waiting]
  refine ⟨s.readyChecks ++ s.readyTick ++ s.readyLoads ++ s.readyClose, ?_⟩
  simp only [ready, idle, serving, request, List.append_assoc, List.cons_append, List.nil_append]

/-- Then comes an authorization that has not begun or has ended. -/
theorem ready_of_check {c : Check} (serving : s.stage = .serving) (idle : s.work = none)
    (queue : s.queue = []) (checks : s.checks = [c])
    (here : ∀ arrival, c.arrival = some arrival → arrival.time ≤ s.now) :
    ∃ rest, s.ready = .check c.caller :: rest := by
  have request : s.readyRequest = [] := readyRequest_eq_nil_iff.2 queue
  have check : s.readyChecks = [.check c.caller] := by
    cases arrives : c.arrival with
    | none => simp [readyChecks, arrived, checks, arrives]
    | some arrival => simp [readyChecks, arrived, checks, arrives, here arrival arrives]
  refine ⟨s.readyTick ++ s.readyLoads ++ s.readyClose, ?_⟩
  simp only [ready, idle, serving, request, check, List.append_assoc, List.cons_append,
    List.nil_append]

end Service

namespace Account

variable {config : Config} {supported : Bool} {stage : Stage} {o a b : Account}
  {occurrence : Service.Occurrence}

/-! ## How far a request has got -/

/-- The request has just been answered, when its authorization had ended. -/
structure Concluded (o a : Account) (caller : Nat) (rate : UInt32) (refusal : Option Fault) :
    Prop where
  run : Run o a
  serving : a.service.stage = .serving
  isOpen : a.service.isOpen = true
  surroundings : a.service.world.surroundings = o.service.world.surroundings
  idle : a.service.work = none
  queue : a.service.queue = []
  checks : a.service.checks = []
  ended : ∃ (d : Deed) (later : List Deed) (time : Nat) (answer : Answer),
    (∀ e ∈ later, e.purpose = .refresh) ∧ a.ended = d :: (later ++ o.ended) ∧
      d.purpose = .answer caller ∧ d.operation = .conclude rate refusal ∧
      d.rest = .done (a.service.interface, answer) ∧
      a.service.replies = ⟨caller, time, answer⟩ :: o.service.replies

/-- How far a Setup request has got since it was sent. The base is a time by which whatever was
under way is over. -/
inductive Phase (o : Account) (caller : Nat) (rate : UInt32) (who : Requester) (base : Nat)
    (a : Account) : Prop
  | queued (since : Since o a) (queue : a.service.queue = [⟨caller, .setup rate who⟩])
      (checks : a.service.checks = [])
      (begun : a.service.world.authorizationsBegun = o.service.world.authorizationsBegun)
      (refreshes : a.service.Refreshes) (soon : a.service.Until base)
  | aside (since : Since o a) (queue : a.service.queue = [])
      (checks : a.service.checks = [⟨caller, rate, who, none⟩])
      (begun : a.service.world.authorizationsBegun = o.service.world.authorizationsBegun)
      (idle : a.service.work = none) (soon : a.service.now ≤ base)
  | asked (time : Nat) (since : Since o a) (queue : a.service.queue = [])
      (checks : a.service.checks =
        [⟨caller, rate, who, some ⟨time, (o.service.world.verdict who).refusal⟩⟩])
      (refreshes : a.service.Refreshes)
      (arrives : time ≤ base + o.service.world.surroundings.patience)
      (soon : a.service.Until (base + 2 * o.service.world.surroundings.patience))
  | working (d : Deed) (n time : Nat) (since : Since o a) (queue : a.service.queue = [])
      (checks : a.service.checks = []) (deeds : a.deeds = d :: a.ended)
      (purpose : d.purpose = .answer caller)
      (operation : d.operation = .conclude rate (o.service.world.verdict who).refusal)
      (busy : a.service.work = some ⟨.answer caller, time, d.rest⟩) (brief : d.rest.Brief n)
      (soon : max a.service.now time + n * o.service.world.surroundings.patience ≤
        base + 4 * o.service.world.surroundings.patience)
  | answered (concluded : Concluded o a caller rate (o.service.world.verdict who).refusal)

section

variable {caller : Nat} {rate : UInt32} {who : Requester} {base : Nat}

/-- What concludes the request answers it, or has one call less to make. -/
theorem phase_of_performed {s : Service} {d : Deed} {x : Exchange (Interface × Answer)} {n : Nat}
    (since : Since o a) (run : Run o b) (patient : o.service.world.surroundings.Patient)
    (serving : s.stage = .serving) (isOpen : s.isOpen = true)
    (surroundings : s.world.surroundings = o.service.world.surroundings)
    (replies : s.replies = o.service.replies) (idle : s.work = none) (queue : s.queue = [])
    (checks : s.checks = []) (brief : x.Brief n)
    (soon : s.now + n * o.service.world.surroundings.patience ≤
      base + 4 * o.service.world.surroundings.patience)
    (goes : b.service = s.perform (.answer caller) x) (deeds : b.deeds = d :: a.ended)
    (purpose : d.purpose = .answer caller)
    (operation : d.operation = .conclude rate (o.service.world.verdict who).refusal)
    (left : d.rest = (proceed x s.world).2.rest) : Phase o caller rate who base b := by
  obtain ⟨-, -, -, -, -, later, refreshes, ended⟩ := since
  have now := now_proceed x s.world
  have kept : (proceed x s.world).1.surroundings = o.service.world.surroundings :=
    (surroundings_proceed x s.world).trans surroundings
  rcases Service.perform_of_brief (surroundings ▸ patient) (.answer caller) brief with
    ⟨result, same, done⟩ | ⟨m, time, rest, rfl, same, more, shorter, early⟩
  · rw [same] at goes
    have still : b.service.work = none := by rw [goes]; exact idle
    refine .answered ⟨run, ?_, ?_, ?_, still, ?_, ?_, d, later,
      (proceed x s.world).1.now, result.2, refreshes, ?_, purpose, operation, ?_, ?_⟩
    · rw [goes]; exact serving
    · rw [goes]; exact isOpen
    · rw [goes]; exact kept
    · rw [goes]; exact queue
    · rw [goes]; exact checks
    · rw [ended_of_idle still, deeds, ended]
    · rw [left, done, goes]; rfl
    · rw [goes, ← replies]; rfl
  · rw [same] at goes
    have busy : b.service.work = some ⟨.answer caller, time, d.rest⟩ := by rw [goes, left, more]
    have same : b.ended = a.ended := by rw [ended_of_busy busy, deeds, List.tail_cons]
    refine .working d m time ⟨run, ?_, ?_, ?_, ?_, later, refreshes, same.trans ended⟩ ?_ ?_
      (deeds.trans (congrArg _ same.symm)) purpose operation busy (left ▸ more ▸ shorter) ?_
    · rw [goes]; exact serving
    · rw [goes]; exact isOpen
    · rw [goes]; exact kept
    · rw [goes]; exact replies
    · rw [goes]; exact queue
    · rw [goes]; exact checks
    · have here : b.service.now = s.now := by rw [goes]; exact now
      rw [surroundings] at early
      rw [Nat.add_mul, Nat.one_mul] at soon
      rw [here]
      omega

/-- The authorization of a request that waits alone ends, and the request is concluded. -/
theorem Phase.of_conclude {c : Check} {world : World} (since : Since o a)
    (patient : o.service.world.surroundings.Patient) (idle : a.service.work = none)
    (queue : a.service.queue = []) (checks : a.service.checks = [c]) (whose : c.caller = caller)
    (wanted : c.rate = rate) (surroundings : world.surroundings = a.service.world.surroundings)
    (now : world.now = a.service.now)
    (soon : a.service.now ≤ base + 2 * o.service.world.surroundings.patience)
    (allowed : a.Allows (.take (.check caller)))
    (prepared : a.service.prepare (.check caller) =
      { a.service with world }.conclude c (o.service.world.verdict who).refusal) :
    Phase o caller rate who base (a.after (.take (.check caller))) := by
  subst whose wanted
  have fresh : Service.Occurrence.check c.caller ≠ .resume := nofun
  have goes := after_take fresh prepared
  have run := since.run.step allowed
  rw [goes] at run ⊢
  have alone : (a.service.checks.filter fun d => d.caller ≠ c.caller) = [] := by simp [checks]
  let left : Service :=
    { a.service with world, checks := a.service.checks.filter fun d => d.caller ≠ c.caller }
  have here : left.now = a.service.now := now
  exact phase_of_performed (s := left) since run patient since.serving since.isOpen
    (surroundings.trans since.surroundings) since.replies idle queue alone
    (Interface.brief_conclude _ c.rate (o.service.world.verdict who).refusal) (by omega) rfl
    (by rw [ended_of_idle idle]) rfl rfl rfl

/-- A request that is taken up is set aside. -/
theorem Phase.of_request (since : Since o a)
    (queue : a.service.queue = [⟨caller, .setup rate who⟩]) (checks : a.service.checks = [])
    (begun : a.service.world.authorizationsBegun = o.service.world.authorizationsBegun)
    (idle : a.service.work = none) (soon : a.service.now ≤ base)
    (allowed : a.Allows (.take .request)) :
    Phase o caller rate who base (a.after (.take .request)) := by
  have fresh : Service.Occurrence.request ≠ .resume := nofun
  have prepared := Service.prepare_request queue
  rw [Service.dispatch_setup (s := { a.service with queue := [] }) since.serving] at prepared
  have goes := after_take fresh prepared
  have run := since.run.step allowed
  rw [goes] at run ⊢
  have same := (ended_of_idle (a := { a with service := _ }) idle).trans (ended_of_idle idle).symm
  exact .aside (since.kept run same rfl rfl rfl rfl) rfl (congrArg (· ++ [_]) checks) begun idle
    soon

/-- The authorization of a request that has been set aside ends at once or in time. -/
theorem Phase.of_check (since : Since o a) (patient : o.service.world.surroundings.Patient)
    (queue : a.service.queue = []) (checks : a.service.checks = [⟨caller, rate, who, none⟩])
    (begun : a.service.world.authorizationsBegun = o.service.world.authorizationsBegun)
    (idle : a.service.work = none) (soon : a.service.now ≤ base)
    (allowed : a.Allows (.take (.check caller))) :
    Phase o caller rate who base (a.after (.take (.check caller))) := by
  have found : (a.service.checks.find? fun c => c.caller = caller) =
      some ⟨caller, rate, who, none⟩ := by simp [checks]
  have prepared := Service.prepare_check found
  have verdict : (a.service.world.beginAuthorization who).2 = o.service.world.verdict who := by
    change a.service.world.surroundings.authorizer a.service.world.authorizationsBegun who = _
    rw [since.surroundings, begun]
    rfl
  have kept := World.surroundings_beginAuthorization a.service.world who
  have now := World.now_beginAuthorization a.service.world who
  have fresh : Service.Occurrence.check caller ≠ .resume := nofun
  simp only [Service.beginCheck, verdict] at prepared
  split at prepared
  next prompt =>
    exact .of_conclude since patient idle queue checks rfl rfl kept now (by omega) allowed prepared
  next slow =>
    have goes := after_take fresh prepared
    have run := since.run.step allowed
    rw [goes] at run ⊢
    have same := (ended_of_idle (a := { a with service := _ }) idle).trans
      (ended_of_idle idle).symm
    have delay : (o.service.world.verdict who).delay ≤ o.service.world.surroundings.patience :=
      patient.authorizer _ who
    refine .asked (a.service.now + (o.service.world.verdict who).delay)
      (since.kept run same rfl rfl kept rfl) queue ?_ (Service.refreshes_of_idle idle) (by omega)
      ⟨?_, fun work busy => by cases idle.symm.trans busy⟩
    · simp [checks, Service.now]
    · exact Nat.le_trans (Nat.le_of_eq now) (Nat.le_trans soon (Nat.le_add_right _ _))

/-- While the authorization is awaited, a refresh that begins does so before it ends. -/
theorem Phase.of_refresh {rest : List Service.Occurrence} {time : Nat} (since : Since o a)
    (reachable : Reachable config supported stage o)
    (patient : o.service.world.surroundings.Patient) (queue : a.service.queue = [])
    (checks : a.service.checks =
      [⟨caller, rate, who, some ⟨time, (o.service.world.verdict who).refusal⟩⟩])
    (refreshes : a.service.Refreshes)
    (arrives : time ≤ base + o.service.world.surroundings.patience)
    (soon : a.service.Until (base + 2 * o.service.world.surroundings.patience))
    (ready : a.service.ready = occurrence :: rest) (other : occurrence ≠ .check caller) :
    Phase o caller rate who base (a.after (.take occurrence)) := by
  have allowed : occurrence ∈ a.service.ready := by rw [ready]; exact List.mem_cons_self
  have unasked (asking : Nat) : occurrence ≠ .check asking := by
    rintro rfl
    obtain ⟨c, pending, rfl⟩ := Service.mem_checks_of_mem_ready allowed
    rw [checks] at pending
    exact other (List.mem_singleton.1 pending ▸ rfl)
  have refreshed := (reachable.run since.run).refreshed since.attends refreshes
    (since.patient patient) allowed (Service.ne_request_of_mem_ready queue allowed) unasked
  have spares := refreshed.spares
  refine .asked time (since.refreshed allowed refreshed) (spares.queue.trans queue)
    (spares.checks.trans checks) refreshed.refreshes arrives
    ⟨spares.now ▸ soon.now, fun work busy => ?_⟩
  obtain ⟨idle, early⟩ := refreshed.soon.resolve_left (by simp [busy])
  -- If the authorization had ended, it would come first.
  have later : a.service.now < time := by
    refine Nat.lt_of_not_le fun due => other ?_
    obtain ⟨others, first⟩ := Service.ready_of_check since.serving idle queue checks
      fun arrival here => Option.some.inj here ▸ due
    exact (List.cons.inj (ready.symm.trans first)).1
  have wait := early work busy
  rw [since.surroundings] at wait
  omega

theorem Phase.takes {rest : List Service.Occurrence} (phase : Phase o caller rate who base a)
    (reachable : Reachable config supported stage o)
    (patient : o.service.world.surroundings.Patient)
    (unanswered : (a.service.answerTo? caller).isSome = false)
    (ready : a.service.ready = occurrence :: rest) :
    Phase o caller rate who base (a.after (.take occurrence)) := by
  have allowed : a.Allows (.take occurrence) := by
    change occurrence ∈ a.service.ready
    rw [ready]
    exact List.mem_cons_self
  cases phase with
  | queued since queue checks begun refreshes soon =>
    cases busy : a.service.work with
    | some work =>
      obtain rfl := Service.resume_of_mem_ready busy allowed
      have refreshed := (reachable.run since.run).refreshed since.attends refreshes
        (since.patient patient) allowed nofun nofun
      have spares := refreshed.spares
      have still : (a.after (.take .resume)).service.work = none :=
        refreshed.soon.resolve_right fun idle => by cases idle.1.symm.trans busy
      exact .queued (since.refreshed allowed refreshed) (spares.queue.trans queue)
        (spares.checks.trans checks) (spares.begun.trans begun) refreshed.refreshes
        ⟨spares.now ▸ soon.now, fun work here => by cases still.symm.trans here⟩
    | none =>
      obtain ⟨others, first⟩ := Service.ready_of_queued since.serving busy (by simp [queue])
      obtain ⟨rfl, -⟩ := List.cons.inj (ready.symm.trans first)
      exact .of_request since queue checks begun busy soon.now allowed
  | aside since queue checks begun idle soon =>
    obtain ⟨others, first⟩ := Service.ready_of_check since.serving idle queue checks (by simp)
    obtain ⟨rfl, -⟩ := List.cons.inj (ready.symm.trans first)
    exact .of_check since patient queue checks begun idle soon allowed
  | asked time since queue checks refreshes arrives soon =>
    by_cases mine : occurrence = .check caller
    · subst mine
      have idle := Service.idle_of_mem_ready allowed nofun
      have found : (a.service.checks.find? fun c => c.caller = caller) =
          some ⟨caller, rate, who, some ⟨time, (o.service.world.verdict who).refusal⟩⟩ := by
        simp [checks]
      exact .of_conclude since patient idle queue checks rfl rfl rfl rfl soon.now allowed
        (Service.prepare_check found)
    · exact .of_refresh since reachable patient queue checks refreshes arrives soon ready mine
  | working d n time since queue checks deeds purpose operation busy brief soon =>
    obtain rfl := Service.resume_of_mem_ready busy allowed
    have goes : (a.after (.take .resume)).service =
        { a.service with work := none }.perform (.answer caller) d.rest := by
      simp only [after, Service.take, busy]
    have deeds' : (a.after (.take .resume)).deeds = d.resume a.service.world :: a.ended := by
      simp only [after, deedsAfter]
      rw [deeds]
    refine phase_of_performed (s := { a.service with work := none }) since
      (since.run.step allowed) patient since.serving since.isOpen since.surroundings since.replies
      rfl queue checks brief ?_ goes deeds' purpose operation rfl
    have here : Service.now { a.service with work := none } = a.service.now := rfl
    omega
  | answered concluded =>
    obtain ⟨-, -, -, -, -, -, -, d, later, time, answer, -, -, -, -, -, replies⟩ := concluded
    simp [Service.answerTo?, replies] at unanswered

theorem Phase.passes {time : Nat} (phase : Phase o caller rate who base a)
    (unanswered : (a.service.answerTo? caller).isSome = false) (quiet : a.service.ready = [])
    (wakes : a.service.wake? = some time) :
    Phase o caller rate who base (a.after (.pass time)) := by
  cases phase with
  | queued since queue checks begun refreshes soon =>
    cases busy : a.service.work with
    | some work =>
      obtain rfl := Option.some.inj (wakes.symm.trans (Service.wake?_of_busy busy))
      exact .queued (since.passes _) queue checks begun refreshes
        (soon.moveTo (soon.work work busy))
    | none =>
      obtain ⟨others, first⟩ := Service.ready_of_queued since.serving busy (by simp [queue])
      cases quiet.symm.trans first
  | aside since queue checks begun idle soon =>
    obtain ⟨others, first⟩ := Service.ready_of_check since.serving idle queue checks (by simp)
    cases quiet.symm.trans first
  | asked arrival since queue checks refreshes arrives soon =>
    have within : time ≤ base + 2 * o.service.world.surroundings.patience := by
      cases busy : a.service.work with
      | some work =>
        obtain rfl := Option.some.inj (wakes.symm.trans (Service.wake?_of_busy busy))
        exact soon.work work busy
      | none =>
        have next (wake : Nat) (here : wake ∈ a.service.wake?) : time ≤ wake :=
          Nat.le_of_eq (Option.some.inj (wakes.symm.trans here))
        obtain ⟨first, -⟩ := Service.le_of_early busy since.serving next
        have early := first _ (checks ▸ List.mem_cons_self) _ rfl
        dsimp only at early
        omega
    exact .asked arrival (since.passes _) queue checks refreshes arrives (soon.moveTo within)
  | working d n later since queue checks deeds purpose operation busy brief soon =>
    have same : time = later := Option.some.inj (wakes.symm.trans (Service.wake?_of_busy busy))
    subst same
    refine .working d n time (since.passes time) queue checks deeds purpose operation busy brief ?_
    change max (max a.service.now time) time + _ ≤ _
    rwa [Nat.max_assoc, Nat.max_self]
  | answered concluded =>
    obtain ⟨-, -, -, -, -, -, -, d, later, time, answer, -, -, -, -, -, replies⟩ := concluded
    simp [Service.answerTo?, replies] at unanswered

/-- When there is an answer, the request has been concluded, and there is one in time. -/
theorem Phase.concluded {limit : Nat} (phase : Phase o caller rate who base a)
    (unheard : o.service.answerTo? caller = none)
    (far : base + 4 * o.service.world.surroundings.patience < limit)
    (stops : (a.service.answerTo? caller).isSome = true ∨ a.service.Stalled limit) :
    Concluded o a caller rate (o.service.world.verdict who).refusal := by
  have silent (since : Since o a) : a.service.Stalled limit := by
    refine stops.resolve_left ?_
    rw [Service.answerTo?, since.replies, ← Service.answerTo?, unheard]
    nofun
  have busy_until {work : Work} (since : Since o a) (busy : a.service.work = some work) :
      limit < work.time :=
    (silent since).late _ (Service.wake?_of_busy busy)
  cases phase with
  | queued since queue checks begun refreshes soon =>
    cases busy : a.service.work with
    | some work =>
      have late := busy_until since busy
      have early := soon.work work busy
      omega
    | none =>
      obtain ⟨others, first⟩ := Service.ready_of_queued since.serving busy (by simp [queue])
      cases (silent since).quiet.symm.trans first
  | aside since queue checks begun idle soon =>
    obtain ⟨others, first⟩ := Service.ready_of_check since.serving idle queue checks (by simp)
    cases (silent since).quiet.symm.trans first
  | asked arrival since queue checks refreshes arrives soon =>
    cases busy : a.service.work with
    | some work =>
      have late := busy_until since busy
      have early := soon.work work busy
      omega
    | none =>
      obtain ⟨first, -⟩ := Service.le_of_early busy since.serving (silent since).late
      have late := first _ (checks ▸ List.mem_cons_self) _ rfl
      dsimp only at late
      omega
  | working d n time since queue checks deeds purpose operation busy brief soon =>
    have late := busy_until since busy
    dsimp only at late
    omega
  | answered concluded => exact concluded

theorem Phase.fits (phase : Phase o caller rate who base a)
    (reachable : Reachable config supported stage o) :
    Reachable config supported stage a ∧ a.service.Attends := by
  cases phase with
  | queued since => exact ⟨reachable.run since.run, since.attends⟩
  | aside since => exact ⟨reachable.run since.run, since.attends⟩
  | asked _ since => exact ⟨reachable.run since.run, since.attends⟩
  | working _ _ _ since => exact ⟨reachable.run since.run, since.attends⟩
  | answered concluded =>
    exact ⟨reachable.run concluded.run, concluded.serving, concluded.isOpen⟩

/-- A request that is awaited is concluded. -/
theorem Phase.concludes (phase : Phase o caller rate who base o)
    (reachable : Reachable config supported stage o)
    (patient : o.service.world.surroundings.Patient)
    (unheard : o.service.answerTo? caller = none)
    (far : base + 4 * o.service.world.surroundings.patience < o.service.horizon) :
    ∃ b, Run o b ∧ b.sent = o.sent ∧
      b.service = o.service.advance (fun s => (s.answerTo? caller).isSome) o.service.horizon
        (o.service.moves o.service.horizon) ∧
      Concluded o b caller rate (o.service.world.verdict who).refusal := by
  obtain ⟨b, run, here, sent, holds, stops⟩ :=
    goes_on (P := Phase o caller rate who base) (fun s => (s.answerTo? caller).isSome)
      o.service.horizon (fun phase => phase.fits reachable)
      (fun phase unanswered ready => phase.takes reachable patient unanswered ready)
      (fun phase unanswered quiet wakes _ => phase.passes unanswered quiet wakes)
      phase (Service.effort_le_moves _ _)
  exact ⟨b, run, sent, here, holds.concluded unheard far stops⟩

end

/-! ## A request from its call to its answer -/

/-- The request has been handled, and besides it only refreshes have ended. -/
structure Handled (o a : Account) (caller : Nat) (rate : UInt32) (refusal : Option Fault) :
    Prop where
  run : Run o a
  available : a.service.Available
  ended : ∃ (d : Deed) (earlier later : List Deed) (left : Interface) (answer : Answer),
    (∀ e ∈ earlier, e.purpose = .refresh) ∧ (∀ e ∈ later, e.purpose = .refresh) ∧
      a.ended = later ++ d :: (earlier ++ o.ended) ∧ d.purpose = .answer caller ∧
      d.operation = .conclude rate refusal ∧ d.rest = .done (left, answer) ∧
      a.service.answerTo? caller = some answer

section

variable {caller : Nat} {rate : UInt32} {refusal : Option Fault}

theorem Concluded.handled (concluded : Concluded o a caller rate refusal)
    (patient : o.service.world.surroundings.Patient) : Handled o a caller rate refusal := by
  obtain ⟨run, serving, isOpen, surroundings, idle, queue, checks, d, later, time, answer,
    refreshes, ended, purpose, operation, left, replies⟩ := concluded
  refine ⟨run, ⟨serving, isOpen, surroundings ▸ patient, queue, checks,
    Service.refreshes_of_idle idle⟩, d, later, [], _, answer, refreshes,
    fun _ mem => absurd mem List.not_mem_nil, ended, purpose, operation, left, ?_⟩
  simp [Service.answerTo?, replies]

theorem Handled.trans (handled : Handled o a caller rate refusal) (since : Since a b)
    (available : b.service.Available) : Handled o b caller rate refusal := by
  obtain ⟨run, -, d, earlier, later, left, answer, refreshes, others, ended, purpose, operation,
    done, told⟩ := handled
  obtain ⟨more, -, -, -, replies, latest, all, ends⟩ := since
  refine ⟨run.trans more, available, d, earlier, latest ++ later, left, answer, refreshes,
    List.forall_mem_append.2 ⟨all, others⟩, ?_, purpose, operation, done, ?_⟩
  · rw [ends, ended, List.append_assoc]
  · rwa [Service.answerTo?, replies]

end

end Account

end Modem.Session
