import Modem.Proofs.Session.Deed

/-! # Handling of occurrences

An occurrence that is ready either only moves something between the queue, the authorizations under
way and the queries under way, or begins a job. The interface changes only where a job is carried
out, when it has ended. -/

namespace Modem.Session.Service

open Signal

/-! ## Arrivals -/

theorem mem_arrived_iff {α β : Type} {arrival : α → Option (Arrival β)} {now : Nat}
    {things : List α} {a : α} :
    a ∈ arrived arrival now things ↔
      a ∈ things ∧ ∃ arrived, arrival a = some arrived ∧ arrived.time ≤ now := by
  simp only [arrived, List.mem_map, List.mem_mergeSort, List.mem_filterMap]
  constructor
  · rintro ⟨⟨time, b⟩, ⟨c, mem, due⟩, rfl⟩
    cases arrives : arrival c with
    | none => simp [arrives] at due
    | some arrived =>
      simp only [arrives, Option.bind_some, Option.ite_none_right_eq_some, Option.some.injEq,
        Prod.mk.injEq] at due
      obtain ⟨here, -, rfl⟩ := due
      exact ⟨mem, arrived, arrives, here⟩
  · rintro ⟨mem, arrived, arrives, here⟩
    exact ⟨(arrived.time, a), ⟨a, mem, by simp [arrives, here]⟩, rfl⟩

theorem mem_readyChecks_iff {s : Service} {asking : Nat} :
    .check asking ∈ s.readyChecks ↔
      ∃ c, c.caller = asking ∧
        (c ∈ arrived Check.arrival s.now s.checks ∨
          (s.checks.filter fun c => c.arrival.isNone).head? = some c) := by
  simp only [readyChecks, List.mem_map, List.mem_append, Occurrence.check.injEq,
    List.take_one, Option.mem_toList, and_comm]

theorem mem_readyLoads_iff {s : Service} {query : Query} :
    .load query ∈ s.readyLoads ↔
      (∃ l ∈ s.loads, l.query = query ∧ l.arrival.time ≤ s.now) ∨
        s.unbegun.head? = some query := by
  simp only [readyLoads, List.mem_map, List.mem_append, Occurrence.load.injEq, exists_eq_right,
    List.take_one, Option.mem_toList]
  refine or_congr_left (exists_congr fun l => ?_)
  simp only [mem_arrived_iff, Option.some.injEq, exists_eq_left']
  rw [and_right_comm, and_assoc]

/-- A query that has not reached the device is ready only while it waits for that. -/
theorem mem_unbegun_of_mem_readyLoads {s : Service} {query : Query}
    (unasked : ∀ l ∈ s.loads, l.query ≠ query) (ready : .load query ∈ s.readyLoads) :
    query ∈ s.unbegun := by
  rcases mem_readyLoads_iff.1 ready with ⟨l, asked, same, -⟩ | first
  · exact absurd same (unasked l asked)
  · exact List.mem_of_head? first

/-! ## What is ready -/

/-- Nobody can send a request, none is left, and whoever waits for an authorization has let go of
its handle. -/
structure Deserted (s : Service) : Prop where
  shut : s.isOpen = false
  drained : s.queue = []
  alone : ∀ c ∈ s.checks, c.caller ∈ s.leavers

/-- When an occurrence is ready. -/
inductive Ready (s : Service) : Occurrence → Prop
  | resume (work : Work) (busy : s.work = some work) (due : work.time ≤ s.now) : Ready s .resume
  | request (idle : s.work = none) (going : s.stage ≠ .stopped) (waiting : s.queue ≠ []) :
      Ready s .request
  | check (caller : Nat) (idle : s.work = none) (serving : s.stage = .serving)
      (mem : .check caller ∈ s.readyChecks) : Ready s (.check caller)
  | tick (idle : s.work = none) (serving : s.stage = .serving)
      (due : s.interface.reporting.timer.any fun t => t.isDue s.now) : Ready s .tick
  | load (query : Query) (idle : s.work = none) (serving : s.stage = .serving)
      (mem : .load query ∈ s.readyLoads) : Ready s (.load query)
  | close (idle : s.work = none) (serving : s.stage = .serving) (deserted : s.Deserted) :
      Ready s .close

section

variable {s : Service} {occurrence : Occurrence}

theorem mem_readyRequest_iff :
    occurrence ∈ s.readyRequest ↔ occurrence = .request ∧ s.queue ≠ [] := by
  simp [readyRequest, and_comm]

theorem mem_readyClose_iff : occurrence ∈ s.readyClose ↔ occurrence = .close ∧ s.Deserted := by
  unfold readyClose
  split
  next deserted =>
    simp only [Bool.and_eq_true, Bool.not_eq_true', List.isEmpty_iff, List.all_eq_true,
      List.contains_iff_mem] at deserted
    obtain ⟨⟨shut, drained⟩, alone⟩ := deserted
    simp [Deserted.mk shut drained alone]
  next held =>
    refine iff_of_false List.not_mem_nil ?_
    rintro ⟨-, shut, drained, alone⟩
    exact held (by simpa [shut, drained] using alone)

theorem ready_of_mem (mem : occurrence ∈ s.ready) : s.Ready occurrence := by
  unfold Service.ready at mem
  split at mem
  next work busy =>
    split at mem
    next due =>
      obtain rfl := List.mem_singleton.1 mem
      exact .resume work busy due
    · cases mem
  next idle =>
    split at mem
    next direct =>
      obtain ⟨rfl, waiting⟩ := mem_readyRequest_iff.1 mem
      exact .request idle (by simp [direct]) waiting
    next serving =>
      simp only [List.mem_append, or_assoc] at mem
      rcases mem with request | check | tick | load | close
      · obtain ⟨rfl, waiting⟩ := mem_readyRequest_iff.1 request
        exact .request idle (by simp [serving]) waiting
      · obtain ⟨c, -, rfl⟩ := List.mem_map.1 check
        exact .check c.caller idle serving check
      · unfold readyTick at tick
        split at tick
        next due =>
          obtain rfl := List.mem_singleton.1 tick
          exact .tick idle serving due
        · cases tick
      · obtain ⟨query, -, rfl⟩ := List.mem_map.1 load
        exact .load query idle serving load
      · obtain ⟨rfl, deserted⟩ := mem_readyClose_iff.1 close
        exact .close idle serving deserted
    · cases mem

/-- While something waits, nothing else happens. -/
theorem resume_of_mem_ready {work : Work} (busy : s.work = some work)
    (ready : occurrence ∈ s.ready) : occurrence = .resume := by
  cases ready_of_mem ready with
  | resume => rfl
  | request idle | check _ idle | tick idle | load _ idle | close idle =>
    cases idle.symm.trans busy

theorem idle_of_mem_ready (ready : occurrence ∈ s.ready) (other : occurrence ≠ .resume) :
    s.work = none := by
  cases busy : s.work with
  | none => rfl
  | some work => exact absurd (resume_of_mem_ready busy ready) other

theorem busy_of_resume_mem_ready (ready : .resume ∈ s.ready) : ∃ work, s.work = some work := by
  cases ready_of_mem ready with
  | resume work busy => exact ⟨work, busy⟩

theorem going_of_mem_ready (quiet : s.stage = .stopped → s.work = none)
    (ready : occurrence ∈ s.ready) : s.stage ≠ .stopped := by
  cases ready_of_mem ready with
  | resume work busy =>
    intro stopped
    cases (quiet stopped).symm.trans busy
  | request idle going => exact going
  | check _ idle serving | tick idle serving | load _ idle serving | close idle serving =>
    simp [serving]

theorem serving_of_request_mem_ready (ready : .request ∈ s.ready) (served : s.stage ≠ .direct) :
    s.stage = .serving := by
  cases ready_of_mem ready with
  | request idle going =>
    cases stage : s.stage with
    | direct => exact absurd stage served
    | serving => rfl
    | stopped => exact absurd stage going

end

/-! ## What a ready occurrence comes to -/

/-- The service and the job, if any, that an occurrence comes to before anything is carried out. -/
inductive Prepared (s : Service) : Service × Option Job → Prop
  | nothing : Prepared s (s, none)
  /-- A Setup request is set aside. -/
  | setAside (caller : Nat) (rate : UInt32) (who : Requester) (rest : List Queued) (world : World)
      (queue : s.queue = ⟨caller, .setup rate who⟩ :: rest) (calls : world.calls = s.world.calls) :
      Prepared s
        ({ s with world, queue := rest, checks := s.checks ++ [⟨caller, rate, who, none⟩] }, none)
  | serve (caller : Nat) (request : Request) (rest : List Queued)
      (queue : s.queue = ⟨caller, request⟩ :: rest) :
      Prepared s ({ s with queue := rest }, some ⟨.answer caller, .serve request⟩)
  /-- An authorization begins. -/
  | ask (c : Check) (arrival : Option (Arrival (Option Fault))) (world : World)
      (pending : c ∈ s.checks) (calls : world.calls = s.world.calls) :
      Prepared s
        ({ s with
          world
          checks := s.checks.map fun d =>
            if d.caller = c.caller then { c with arrival } else d }, none)
  | conclude (c : Check) (refusal : Option Fault) (world : World)
      (pending : c ∈ s.checks) (calls : world.calls = s.world.calls) :
      Prepared s
        ({ s with world, checks := s.checks.filter fun d => d.caller ≠ c.caller },
          some ⟨.answer c.caller, .conclude c.rate refusal⟩)
  | tick : Prepared s (s, some ⟨.refresh, .tick⟩)
  /-- A query reaches the device. -/
  | query (query : Query) (arrival : Arrival (Except Fault Snapshot)) (world : World)
      (pending : query ∈ s.interface.reporting.inFlight) (calls : world.calls = s.world.calls)
      (unasked : ∀ l ∈ s.loads, l.query ≠ query) :
      Prepared s ({ s with world, loads := s.loads ++ [⟨query, arrival⟩] }, none)
  | loaded (query : Query) (result : Except Fault Snapshot) (world : World)
      (pending : query ∈ s.interface.reporting.inFlight) (calls : world.calls = s.world.calls) :
      Prepared s
        ({ s with world, loads := s.loads.filter fun l => l.query ≠ query },
          some ⟨.refresh, .loaded query result⟩)
  | close (world : World) (calls : world.calls = s.world.calls) :
      Prepared s ({ s with world }, some ⟨.close, .serve .shutDown⟩)

theorem mem_inFlight_of_mem_ready {s : Service} {query : Query}
    (begun : ∀ l ∈ s.loads, l.query ∈ s.interface.reporting.inFlight)
    (ready : .load query ∈ s.ready) : query ∈ s.interface.reporting.inFlight := by
  cases ready_of_mem ready with
  | load _ idle serving mem =>
    rcases mem_readyLoads_iff.1 mem with ⟨l, asked, rfl, -⟩ | first
    · exact begun l asked
    · exact (List.mem_filter.1 (List.mem_of_head? first)).1

theorem prepared_dispatch {s : Service} {caller : Nat} {request : Request} {rest : List Queued}
    (queue : s.queue = ⟨caller, request⟩ :: rest) :
    Prepared s ({ s with queue := rest }.dispatch ⟨caller, request⟩) := by
  unfold dispatch
  split
  next rate who _ setup =>
    dsimp only at setup
    rw [setup] at queue
    exact .setAside caller rate who rest _ queue rfl
  · exact .serve caller request rest queue

theorem prepared_beginCheck {s : Service} {c : Check} (pending : c ∈ s.checks) :
    Prepared s (s.beginCheck c) := by
  have calls := World.calls_beginAuthorization s.world c.who
  unfold beginCheck
  dsimp only
  split
  · exact .conclude c _ _ pending calls
  · exact .ask c _ _ pending calls

theorem prepared_beginLoad {s : Service} {query : Query}
    (pending : query ∈ s.interface.reporting.inFlight) (unasked : ∀ l ∈ s.loads, l.query ≠ query) :
    Prepared s (s.beginLoad query) := by
  have calls := World.calls_beginQuery s.world
  unfold beginLoad
  dsimp only
  split
  · exact .loaded query _ _ pending calls
  · exact .query query _ _ pending calls unasked

theorem prepared {s : Service} {occurrence : Occurrence}
    (begun : ∀ l ∈ s.loads, l.query ∈ s.interface.reporting.inFlight)
    (ready : occurrence ∈ s.ready) : Prepared s (s.prepare occurrence) := by
  cases occurrence with
  | resume => exact .nothing
  | request =>
    simp only [prepare]
    split
    · exact prepared_dispatch ‹_›
    · exact .nothing
  | check caller =>
    simp only [prepare]
    split
    next c found =>
      have pending : c ∈ s.checks := List.mem_of_find?_eq_some found
      split
      · exact .conclude c _ _ pending rfl
      · exact prepared_beginCheck pending
    · exact .nothing
  | tick => exact .tick
  | load query =>
    have pending := mem_inFlight_of_mem_ready begun ready
    simp only [prepare]
    split
    · exact .loaded query _ _ pending rfl
    next absent => exact prepared_beginLoad pending (by simpa using absent)
  | close => exact .close _ rfl

/-- Nothing has been carried out, called or answered between two services. -/
structure Untouched (s t : Service) : Prop where
  interface : t.interface = s.interface
  work : t.work = s.work
  replies : t.replies = s.replies
  calls : t.world.calls = s.world.calls

theorem Prepared.untouched {s t : Service} {job : Option Job} (prepared : Prepared s (t, job)) :
    Untouched s t := by
  cases prepared with
  | nothing => exact ⟨rfl, rfl, rfl, rfl⟩
  | setAside _ _ _ _ _ _ calls => exact ⟨rfl, rfl, rfl, calls⟩
  | serve => exact ⟨rfl, rfl, rfl, rfl⟩
  | ask _ _ _ _ calls => exact ⟨rfl, rfl, rfl, calls⟩
  | conclude _ _ _ _ calls => exact ⟨rfl, rfl, rfl, calls⟩
  | tick => exact ⟨rfl, rfl, rfl, rfl⟩
  | query _ _ _ _ calls => exact ⟨rfl, rfl, rfl, calls⟩
  | loaded _ _ _ _ calls => exact ⟨rfl, rfl, rfl, calls⟩
  | close _ calls => exact ⟨rfl, rfl, rfl, calls⟩

theorem Prepared.expected {s t : Service} {job : Job} (prepared : Prepared s (t, some job))
    {query : Query} (answered : job.operation.answered? = some query) :
    query ∈ s.interface.reporting.inFlight := by
  cases prepared with
  | loaded asked result world pending =>
    obtain rfl := Option.some.inj answered
    exact pending
  | _ => cases answered

/-- A query is answered once. -/
theorem Prepared.loads {s t : Service} {job : Job} (prepared : Prepared s (t, some job)) {l : Load}
    (mem : l ∈ t.loads) : l ∈ s.loads ∧ job.operation.answered? ≠ some l.query := by
  cases prepared with
  | loaded query result world pending =>
    obtain ⟨kept, other⟩ := List.mem_filter.1 mem
    have different : l.query ≠ query := by simpa using other
    exact ⟨kept, fun same => different (Option.some.inj same).symm⟩
  | _ => exact ⟨mem, nofun⟩

/-! ## What work comes to -/

/-- The service after some work, of which the rest is left. -/
inductive Performed (s : Service) (purpose : Purpose) (world : World) :
    Exchange (Interface × Answer) → Service → Prop
  | ended (result : Interface × Answer) :
      Performed s purpose world (.done result) ({ s with world }.finish purpose result)
  | waits (time : Nat) (rest : Exchange (Interface × Answer)) :
      Performed s purpose world rest { s with world, work := some ⟨purpose, time, rest⟩ }

theorem performed (s : Service) (purpose : Purpose) (x : Exchange (Interface × Answer)) :
    Performed s purpose (proceed x s.world).1 (proceed x s.world).2.rest (s.perform purpose x) := by
  unfold perform
  split
  next world result progress =>
    rw [progress]
    exact .ended result
  next world time rest progress =>
    rw [progress]
    exact .waits time rest

section

variable (s : Service) (purpose : Purpose) (result : Interface × Answer)

@[simp]
theorem interface_finish : (s.finish purpose result).interface = result.1 := by
  cases purpose <;> rfl

@[simp]
theorem world_finish : (s.finish purpose result).world = s.world := by
  cases purpose <;> rfl

@[simp]
theorem work_finish : (s.finish purpose result).work = s.work := by
  cases purpose <;> rfl

@[simp]
theorem queue_finish : (s.finish purpose result).queue = s.queue := by
  cases purpose <;> rfl

@[simp]
theorem checks_finish : (s.finish purpose result).checks = s.checks := by
  cases purpose <;> rfl

@[simp]
theorem loads_finish : (s.finish purpose result).loads = s.loads := by
  cases purpose <;> rfl

/-- The end of some work answers at most the caller whose request it was. -/
theorem replies_finish :
    (s.finish purpose result).replies = s.replies ∨
      ∃ caller, purpose = .answer caller ∧
        (s.finish purpose result).replies = ⟨caller, s.now, result.2⟩ :: s.replies := by
  cases purpose with
  | answer caller => exact .inr ⟨caller, rfl, rfl⟩
  | refresh => exact .inl rfl
  | close => exact .inl rfl

end

section

variable {s t : Service} {purpose : Purpose} {world : World}
  {rest : Exchange (Interface × Answer)}

theorem Performed.world_eq (performed : s.Performed purpose world rest t) : t.world = world := by
  cases performed with
  | ended result => simp
  | waits => rfl

theorem Performed.queue_eq (performed : s.Performed purpose world rest t) : t.queue = s.queue := by
  cases performed with
  | ended result => simp
  | waits => rfl

theorem Performed.checks_eq (performed : s.Performed purpose world rest t) :
    t.checks = s.checks := by
  cases performed with
  | ended result => simp
  | waits => rfl

theorem Performed.loads_eq (performed : s.Performed purpose world rest t) : t.loads = s.loads := by
  cases performed with
  | ended result => simp
  | waits => rfl

end

/-! ## What a service may come to -/

/-- The service has the interface, or the work under way can leave it. -/
def Holds (s : Service) (i : Interface) : Prop :=
  i = s.interface ∨ ∃ work turns answer, s.work = some work ∧ work.rest.Ends turns (i, answer)

theorem holds_interface (s : Service) : s.Holds s.interface := .inl rfl

theorem Holds.of_idle {s : Service} {i : Interface} (holds : s.Holds i) (idle : s.work = none) :
    i = s.interface := by
  rcases holds with here | ⟨work, turns, answer, busy, -⟩
  · exact here
  · rw [idle] at busy
    cases busy

theorem Performed.holds {s t : Service} {purpose : Purpose} {world : World}
    {rest : Exchange (Interface × Answer)} {i : Interface}
    (performed : s.Performed purpose world rest t) (idle : s.work = none) (holds : t.Holds i) :
    i = s.interface ∨ ∃ turns answer, rest.Ends turns (i, answer) := by
  cases performed with
  | ended result =>
    have here := holds.of_idle ((work_finish _ _ _).trans idle)
    refine .inr ⟨[], result.2, ?_⟩
    rw [here, interface_finish]
    exact .refl _
  | waits time rest =>
    rcases holds with here | ⟨work, turns, answer, busy, ends⟩
    · exact .inl here
    · obtain rfl := Option.some.inj busy
      exact .inr ⟨turns, answer, ends⟩

end Modem.Session.Service
