import Modem.Proofs.Session.Heard

/-! # Services without a caller

A service can be told apart from the same service without one of its callers only by what belongs to
that caller, and by the number of authorizations. As long as nobody hears of that number, whatever
happens to somebody else happens to both of them alike. -/

namespace Modem.Session

open Signal

namespace Service

/-! ## With and without a caller -/

/-- The service in another world and without anything that belongs to a caller. -/
def without (s : Service) (caller : Nat) (world : World) : Service :=
  { s with
    world
    queue := s.queue.filter fun q => q.caller ≠ caller
    checks := s.checks.filter fun c => c.caller ≠ caller
    replies := s.replies.filter fun r => r.caller ≠ caller }

/-- What belongs to a caller: its request in the queue, or set aside, and what it has been told. -/
structure Share where
  queue : List Queued
  checks : List Check
  replies : List Reply

/-- What a service has of a caller. -/
def share (s : Service) (caller : Nat) : Share where
  queue := s.queue.filter fun q => q.caller = caller
  checks := s.checks.filter fun c => c.caller = caller
  replies := s.replies.filter fun r => r.caller = caller

section

variable (s : Service) (caller : Nat) (world : World)

theorem world_without : (s.without caller world).world = world := rfl

theorem stage_without : (s.without caller world).stage = s.stage := rfl

theorem isOpen_without : (s.without caller world).isOpen = s.isOpen := rfl

theorem leavers_without : (s.without caller world).leavers = s.leavers := rfl

theorem loads_without : (s.without caller world).loads = s.loads := rfl

theorem work_without : (s.without caller world).work = s.work := rfl

end

/-- The second service is the first one without a caller, and one does not hear what has been
written down for that. -/
inductive Apart (audible : Event → Bool) (caller : Nat) (trace : List Event) (s : Service) :
    Service → Prop
  | mk {world : World} (apart : s.world.Apart audible trace world) :
      Apart audible caller trace s (s.without caller world)

variable {audible : Event → Bool} {caller : Nat} {trace : List Event} {s t : Service}
  {purpose : Purpose} {verdict : Requester → Verdict}

theorem apart_of_eq {world : World} (apart : s.world.Apart audible trace world)
    (same : t = s.without caller world) : Apart audible caller trace s t := by
  rw [same]
  exact .mk apart

theorem Apart.interface (apart : Apart audible caller trace s t) : t.interface = s.interface := by
  obtain ⟨worlds⟩ := apart
  rfl

theorem Apart.replies (apart : Apart audible caller trace s t) :
    t.replies = s.replies.filter fun r => r.caller ≠ caller := by
  obtain ⟨worlds⟩ := apart
  rfl

theorem Apart.heard (apart : Apart audible caller trace s t) :
    ∃ own, Interleaved own (t.world.heard audible) (s.world.heard audible) ∧
      own.map Entry.event = trace.filter audible := by
  obtain ⟨⟨n, said, rest⟩⟩ := apart
  exact ⟨_, rest, said⟩

/-! ## Work -/

theorem Apart.finish (apart : Apart audible caller trace s t) (other : purpose ≠ .answer caller)
    (result : Interface × Answer) :
    Apart audible caller trace (s.finish purpose result) (t.finish purpose result) ∧
      (s.finish purpose result).share caller = s.share caller := by
  obtain ⟨apart⟩ := apart
  cases purpose with
  | answer answered =>
    have different : answered ≠ caller := fun same => other (congrArg Purpose.answer same)
    constructor
    · refine apart_of_eq (s := s.finish (.answer answered) result) apart ?_
      simp [Service.finish, without, reply, now, different, apart.now]
    · simp [Service.finish, share, reply, different]
  | refresh => exact ⟨.mk (s := s.finish .refresh result) apart, rfl⟩
  | close => exact ⟨.mk (s := s.finish .close result) apart, rfl⟩

theorem Apart.perform (apart : Apart audible caller trace s t) (other : purpose ≠ .answer caller)
    (steady : s.world.surroundings.Steady audible verdict) (x : Exchange (Interface × Answer)) :
    Apart audible caller trace (s.perform purpose x) (t.perform purpose x) ∧
      (s.perform purpose x).share caller = s.share caller := by
  obtain @⟨world, apart⟩ := apart
  obtain ⟨worlds, progress⟩ := apart.proceed steady x
  unfold Service.perform
  rw [world_without]
  rcases here : proceed x s.world with ⟨w, p⟩
  rcases there : proceed x world with ⟨v, q⟩
  rw [here, there] at worlds progress
  dsimp only at worlds progress
  subst progress
  cases q with
  | finished result =>
    dsimp only
    have moved : Apart audible caller trace { s with world := w }
        { s.without caller world with world := v } := .mk worlds
    exact moved.finish other result
  | waiting time rest =>
    exact ⟨.mk (s := { s with world := w, work := some ⟨purpose, time, rest⟩ }) worlds, rfl⟩

/-! ## Occurrences -/

/-- Whether an occurrence handles the request of a caller or its authorization. -/
def concerns (s : Service) (caller : Nat) : Occurrence → Bool
  | .request => s.queue.head?.any fun q => q.caller = caller
  | .check asking => asking = caller
  | _ => false

/-- Two services come to the same with and without a caller, of which nothing is touched. -/
structure Alike (audible : Event → Bool) (caller : Nat) (trace : List Event) (untouched : Share)
    (p q : Service × Option Job) : Prop where
  apart : Apart audible caller trace p.1 q.1
  job : q.2 = p.2
  share : p.1.share caller = untouched
  other : ∀ job, p.2 = some job → job.purpose ≠ .answer caller

/-- What begins nothing begins nothing for the caller. -/
theorem nothing_begun (job : Job) (begun : none = some job) : job.purpose ≠ .answer caller :=
  absurd begun.symm (Option.some_ne_none job)

theorem dispatch_setup {asking : Nat} {rate : UInt32} {who : Requester}
    (serving : s.stage = .serving) :
    s.dispatch ⟨asking, .setup rate who⟩ =
      ({ s with
        world := s.world.record (.line ⟨.debug,
          "Setup request from " ++ who.name ++ ": rate " ++ toString rate.toNat⟩)
        checks := s.checks ++ [⟨asking, rate, who, none⟩] }, none) := by
  simp only [Service.dispatch, serving]

theorem dispatch_other {queued : Queued}
    (other : s.stage = .serving → ∀ rate who, queued.request ≠ .setup rate who) :
    s.dispatch queued = (s, some ⟨.answer queued.caller, .serve queued.request⟩) := by
  unfold Service.dispatch
  split
  next rate who serving setup => exact absurd setup (other serving rate who)
  · rfl

theorem Apart.dispatch (apart : Apart audible caller trace s t) {queued : Queued}
    (other : queued.caller ≠ caller) :
    Alike audible caller trace (s.share caller) (s.dispatch queued) (t.dispatch queued) := by
  obtain @⟨world, apart⟩ := apart
  by_cases aside : s.stage = .serving ∧ ∃ rate who, queued.request = .setup rate who
  · obtain ⟨serving, rate, who, setup⟩ := aside
    obtain ⟨asking, request⟩ := queued
    dsimp only at setup other
    subst setup
    rw [dispatch_setup serving, dispatch_setup (s := s.without caller world) serving]
    refine ⟨apart_of_eq (apart.record _) ?_, rfl, ?_, nothing_begun⟩
    · simp [without, other]
    · simp [share, other]
  · have plain : s.stage = .serving → ∀ rate who, queued.request ≠ .setup rate who :=
      fun serving rate who setup => aside ⟨serving, rate, who, setup⟩
    rw [dispatch_other plain, dispatch_other (s := s.without caller world) plain]
    refine ⟨.mk apart, rfl, rfl, ?_⟩
    intro job begun
    obtain rfl := Option.some.inj begun
    simpa using other

theorem Apart.conclude (apart : Apart audible caller trace s t) {c : Check}
    (other : c.caller ≠ caller) (refusal : Option Fault) :
    Alike audible caller trace (s.share caller) (s.conclude c refusal) (t.conclude c refusal) := by
  obtain ⟨apart⟩ := apart
  have kept : (s.checks.filter fun d => d.caller ≠ c.caller).filter (fun d => d.caller = caller) =
      s.checks.filter fun d => d.caller = caller := by
    rw [List.filter_filter]
    refine List.filter_congr fun d _ => ?_
    by_cases mine : d.caller = caller
    · simp [mine, Ne.symm other]
    · simp [mine]
  refine ⟨apart_of_eq (s := (s.conclude c refusal).1) apart ?_, rfl, ?_, ?_⟩
  · simp [Service.conclude, without, List.filter_filter, Bool.and_comm]
  · simp only [Service.conclude, Service.share, kept]
  · intro job begun
    obtain rfl := Option.some.inj begun
    simpa using other

/-- What begins for one caller leaves the others as they are. -/
theorem filter_map_begun (checks : List Check) {c : Check} (begun : Check)
    (same : begun.caller = c.caller)
    (p : Nat → Bool) :
    (checks.map fun d => if d.caller = c.caller then begun else d).filter (fun d => p d.caller) =
      (checks.filter fun d => p d.caller).map fun d =>
        if d.caller = c.caller then begun else d := by
  rw [List.filter_map]
  congr 1
  refine List.filter_congr fun d _ => ?_
  by_cases mine : d.caller = c.caller
  · simp [mine, same]
  · simp [mine]

theorem map_begun_of_ne {checks : List Check} {c : Check} (begun : Check)
    (others : ∀ d ∈ checks, d.caller ≠ c.caller) :
    (checks.map fun d => if d.caller = c.caller then begun else d) = checks :=
  (List.map_congr_left fun d mem => if_neg (others d mem)).trans (List.map_id' _)

theorem Apart.beginCheck (apart : Apart audible caller trace s t) {c : Check}
    (other : c.caller ≠ caller) (steady : s.world.surroundings.Steady audible verdict) :
    Alike audible caller trace (s.share caller) (s.beginCheck c) (t.beginCheck c) := by
  obtain @⟨world, apart⟩ := apart
  obtain ⟨worlds, agrees⟩ := apart.beginAuthorization steady c.who
  unfold Service.beginCheck
  rw [world_without]
  rcases here : s.world.beginAuthorization c.who with ⟨w, given⟩
  rcases there : world.beginAuthorization c.who with ⟨v, same⟩
  rw [here, there] at worlds agrees
  dsimp only at worlds agrees ⊢
  rw [agrees.delay, agrees.refusal, worlds.now]
  split
  · have moved : Apart audible caller trace { s with world := w }
        { s.without caller world with world := v } := .mk worlds
    exact moved.conclude other _
  · have begun := filter_map_begun s.checks (c := c)
      { c with arrival := some ⟨w.now + given.delay, given.refusal⟩ } rfl
    have others := begun fun asking => asking ≠ caller
    have mine := begun fun asking => asking = caller
    refine ⟨apart_of_eq worlds ?_, rfl, ?_, nothing_begun⟩
    · simp only [without, others]
    · have untouched : ∀ d ∈ s.checks.filter fun d => d.caller = caller, d.caller ≠ c.caller := by
        intro d mem same
        have asking : d.caller = caller := by simpa using (List.mem_filter.1 mem).2
        exact other (same.symm.trans asking)
      simp only [share, mine, map_begun_of_ne _ untouched]

theorem Apart.concludeLoad (apart : Apart audible caller trace s t) (query : Query)
    (result : Except Fault Snapshot) :
    Alike audible caller trace (s.share caller) (s.concludeLoad query result)
      (t.concludeLoad query result) := by
  obtain ⟨apart⟩ := apart
  refine ⟨.mk (s := (s.concludeLoad query result).1) apart, rfl, rfl, ?_⟩
  intro job begun
  obtain rfl := Option.some.inj begun
  simp

theorem Apart.beginLoad (apart : Apart audible caller trace s t) (query : Query) :
    Alike audible caller trace (s.share caller) (s.beginLoad query) (t.beginLoad query) := by
  obtain @⟨world, apart⟩ := apart
  obtain ⟨worlds, answer⟩ := apart.beginQuery
  unfold Service.beginLoad
  rw [world_without]
  rcases here : s.world.beginQuery with ⟨w, given⟩
  rcases there : world.beginQuery with ⟨v, same⟩
  rw [here, there] at worlds answer
  dsimp only at worlds answer ⊢
  subst answer
  split
  · have moved : Apart audible caller trace { s with world := w }
        { s.without caller world with world := v } := .mk worlds
    exact moved.concludeLoad query _
  · refine ⟨apart_of_eq worlds ?_, rfl, rfl, nothing_begun⟩
    simp only [without, worlds.now]

theorem find?_without (s : Service) (world : World) {asking : Nat} (other : asking ≠ caller) :
    (s.without caller world).checks.find? (fun c => c.caller = asking) =
      s.checks.find? fun c => c.caller = asking := by
  rw [without, List.find?_filter]
  congr 1
  funext c
  by_cases found : c.caller = asking
  · simp [found, other]
  · simp [found]

theorem prepare_request {queued : Queued} {rest : List Queued} (queue : s.queue = queued :: rest) :
    s.prepare .request = { s with queue := rest }.dispatch queued := by
  simp only [Service.prepare, queue]

theorem prepare_request_of_nil (queue : s.queue = []) : s.prepare .request = (s, none) := by
  simp only [Service.prepare, queue]

theorem prepare_check {asking : Nat} {c : Check}
    (found : s.checks.find? (fun c => c.caller = asking) = some c) :
    s.prepare (.check asking) =
      match c.arrival with
      | some arrival => s.conclude c arrival.content
      | none => s.beginCheck c := by
  cases arrives : c.arrival with
  | some arrival => simp only [Service.prepare, found, arrives]
  | none => simp only [Service.prepare, found, arrives]

theorem prepare_check_of_none {asking : Nat}
    (found : s.checks.find? (fun c => c.caller = asking) = none) :
    s.prepare (.check asking) = (s, none) := by
  simp only [Service.prepare, found]

theorem Apart.idle (apart : Apart audible caller trace s t) :
    Alike audible caller trace (s.share caller) (s, none) (t, none) :=
  ⟨apart, rfl, rfl, nothing_begun⟩

theorem Apart.begins (apart : Apart audible caller trace s t) {job : Job}
    (other : job.purpose ≠ .answer caller) :
    Alike audible caller trace (s.share caller) (s, some job) (t, some job) := by
  refine ⟨apart, rfl, rfl, ?_⟩
  intro begun same
  obtain rfl := Option.some.inj same
  exact other

/-- What happens to another caller, or to nobody, happens alike with and without a caller. -/
theorem Apart.prepare (apart : Apart audible caller trace s t) {occurrence : Occurrence}
    (other : s.concerns caller occurrence = false)
    (steady : s.world.surroundings.Steady audible verdict) :
    Alike audible caller trace (s.share caller) (s.prepare occurrence) (t.prepare occurrence) := by
  cases occurrence with
  | resume => exact apart.idle
  | request =>
    obtain @⟨world, worlds⟩ := apart
    cases queue : s.queue with
    | nil =>
      have nobody : (s.without caller world).queue = [] := by simp [without, queue]
      rw [prepare_request_of_nil queue, prepare_request_of_nil nobody]
      exact (Apart.mk worlds).idle
    | cons queued rest =>
      have different : queued.caller ≠ caller := by simpa [concerns, queue] using other
      have first : (s.without caller world).queue =
          queued :: rest.filter fun q => q.caller ≠ caller := by
        simp [without, queue, different]
      have share : { s with queue := rest }.share caller = s.share caller := by
        simp [Service.share, queue, different]
      have popped : Apart audible caller trace { s with queue := rest }
          { s.without caller world with queue := rest.filter fun q => q.caller ≠ caller } :=
        .mk worlds
      rw [prepare_request queue, prepare_request first, ← share]
      exact popped.dispatch different
  | check asking =>
    obtain @⟨world, worlds⟩ := apart
    have different : asking ≠ caller := by simpa [concerns] using other
    have there := find?_without s world different
    cases found : s.checks.find? fun c => c.caller = asking with
    | none =>
      rw [prepare_check_of_none found, prepare_check_of_none (there.trans found)]
      exact (Apart.mk worlds).idle
    | some c =>
      have same : c.caller = asking := by simpa using List.find?_some found
      have different : c.caller ≠ caller := by rwa [same]
      rw [prepare_check found, prepare_check (there.trans found)]
      cases c.arrival with
      | some arrival => exact (Apart.mk worlds).conclude different arrival.content
      | none => exact (Apart.mk worlds).beginCheck different steady
  | tick => exact apart.begins (by simp)
  | load query =>
    obtain @⟨world, worlds⟩ := apart
    simp only [Service.prepare, loads_without]
    split
    · exact (Apart.mk worlds).concludeLoad query _
    · exact (Apart.mk worlds).beginLoad query
  | close =>
    obtain ⟨worlds⟩ := apart
    have recorded := worlds.record (.line ⟨.debug, "All signal handles dropped, stopping service"⟩)
    exact (Apart.mk (s := { s with world := _ }) recorded).begins (by simp)

/-! ## Taking an occurrence -/

theorem surroundings_perform (s : Service) (purpose : Purpose)
    (x : Exchange (Interface × Answer)) :
    (s.perform purpose x).world.surroundings = s.world.surroundings := by
  rw [(s.performed purpose x).world_eq, surroundings_proceed]

theorem surroundings_prepare (s : Service) (occurrence : Occurrence) :
    (s.prepare occurrence).1.world.surroundings = s.world.surroundings := by
  obtain ⟨world, queue, checks, loads, asked, same⟩ := s.prepare_eq occurrence
  rw [same]
  exact asked.surroundings

theorem work_prepare (s : Service) (occurrence : Occurrence) :
    (s.prepare occurrence).1.work = s.work := by
  obtain ⟨world, queue, checks, loads, asked, same⟩ := s.prepare_eq occurrence
  rw [same]

theorem surroundings_take (s : Service) (occurrence : Occurrence) :
    (s.take occurrence).world.surroundings = s.world.surroundings :=
  take_kept (P := fun t => t.world.surroundings = s.world.surroundings)
    (s.surroundings_prepare occurrence) id
    fun t purpose x kept => (t.surroundings_perform purpose x).trans kept

theorem work_perform (s : Service) (purpose : Purpose) (x : Exchange (Interface × Answer))
    {work : Work} (busy : (s.perform purpose x).work = some work) :
    s.work = some work ∨ work.purpose = purpose := by
  have performed := s.performed purpose x
  generalize (proceed x s.world).2.rest = rest, s.perform purpose x = t at performed busy
  cases performed with
  | ended result =>
    rw [work_finish] at busy
    exact .inl busy
  | waits time rest =>
    obtain rfl := Option.some.inj busy
    exact .inr rfl

/-- No work is under way for a caller. -/
def Leaves (s : Service) (caller : Nat) : Prop :=
  ∀ work, s.work = some work → work.purpose ≠ .answer caller

theorem take_of_prepare {s t : Service} {occurrence : Occurrence} {job : Option Job}
    (fresh : occurrence ≠ .resume) (prepared : s.prepare occurrence = (t, job)) :
    s.take occurrence =
      match job with
      | some job => t.carryOut job
      | none => t := by
  cases occurrence with
  | resume => exact absurd rfl fresh
  | _ =>
    simp only [Service.take, prepared]
    cases job <;> rfl

/-- What happens to somebody else happens alike with and without a caller, of which nothing is
touched. -/
theorem Apart.take (apart : Apart audible caller trace s t) {occurrence : Occurrence}
    (other : s.concerns caller occurrence = false) (leaves : s.Leaves caller)
    (steady : s.world.surroundings.Steady audible verdict) :
    Apart audible caller trace (s.take occurrence) (t.take occurrence) ∧
      (s.take occurrence).share caller = s.share caller ∧ (s.take occurrence).Leaves caller := by
  by_cases resume : occurrence = .resume
  · subst resume
    obtain @⟨world, worlds⟩ := apart
    simp only [Service.take, work_without]
    cases busy : s.work with
    | none => exact ⟨.mk worlds, rfl, leaves⟩
    | some work =>
      have begun : Apart audible caller trace { s with work := none }
          { s.without caller world with work := none } := .mk worlds
      obtain ⟨apart, share⟩ := begun.perform (leaves work busy) steady work.rest
      refine ⟨apart, share, ?_⟩
      intro more waits
      rcases work_perform _ _ _ waits with impossible | same
      · cases impossible
      · rw [same]
        exact leaves work busy
  · obtain ⟨moved, job, share, others⟩ := apart.prepare other steady
    have work := s.work_prepare occurrence
    have surroundings := s.surroundings_prepare occurrence
    rcases here : s.prepare occurrence with ⟨p, begun⟩
    rcases there : t.prepare occurrence with ⟨q, same⟩
    rw [here, there] at moved job
    rw [here] at share others work surroundings
    dsimp only at moved job share others work surroundings
    subst job
    rw [take_of_prepare resume here, take_of_prepare resume there]
    cases same with
    | none =>
      refine ⟨moved, share, ?_⟩
      rwa [Leaves, work]
    | some job =>
      have different := others job rfl
      have interface := moved.interface
      have performed := moved.perform different (by rwa [surroundings])
        (p.interface.carryOut job.operation)
      simp only [carryOut, interface]
      refine ⟨performed.1, performed.2.trans share, ?_⟩
      intro more waits
      rcases work_perform _ _ _ waits with old | same
      · exact leaves more (work.symm.trans old)
      · rw [same]
        exact different

/-! ## From outside -/

theorem Apart.send (apart : Apart audible caller trace s t) {sender : Nat} (other : sender ≠ caller)
    (request : Request) :
    Apart audible caller trace (s.send sender request) (t.send sender request) ∧
      (s.send sender request).share caller = s.share caller := by
  obtain @⟨world, worlds⟩ := apart
  unfold Service.send
  rw [stage_without]
  split
  · refine ⟨apart_of_eq worlds ?_, ?_⟩
    · simp [without, reply, now, other, worlds.now]
    · simp [share, reply, other]
  · refine ⟨apart_of_eq worlds ?_, ?_⟩
    · simp [without, other]
    · simp [share, other]

theorem work_send (s : Service) (sender : Nat) (request : Request) :
    (s.send sender request).work = s.work := by
  unfold Service.send
  split <;> rfl

theorem stage_send (s : Service) (sender : Nat) (request : Request) :
    (s.send sender request).stage = s.stage := by
  unfold Service.send
  split <;> rfl

theorem checks_send (s : Service) (sender : Nat) (request : Request) :
    (s.send sender request).checks = s.checks := by
  unfold Service.send
  split <;> rfl

theorem loads_send (s : Service) (sender : Nat) (request : Request) :
    (s.send sender request).loads = s.loads := by
  unfold Service.send
  split <;> rfl

theorem surroundings_send (s : Service) (sender : Nat) (request : Request) :
    (s.send sender request).world.surroundings = s.world.surroundings := by
  unfold Service.send
  split <;> rfl

theorem Apart.surround (apart : Apart audible caller trace s t) (surroundings : Surroundings) :
    Apart audible caller trace { s with world := { s.world with surroundings } }
      { t with world := { t.world with surroundings } } := by
  obtain ⟨⟨n, said, rest⟩⟩ := apart
  exact .mk (s := { s with world := { s.world with surroundings } }) (.mk n said rest)

theorem Apart.moveTo (apart : Apart audible caller trace s t) (time : Nat) :
    Apart audible caller trace (s.moveTo time) (t.moveTo time) := by
  obtain ⟨⟨n, said, rest⟩⟩ := apart
  exact .mk (s := s.moveTo time) (.mk n said rest)

theorem Apart.close (apart : Apart audible caller trace s t) :
    Apart audible caller trace { s with isOpen := false } { t with isOpen := false } := by
  obtain ⟨worlds⟩ := apart
  exact .mk (s := { s with isOpen := false }) worlds

theorem Apart.leave (apart : Apart audible caller trace s t) (leaver : Nat) :
    Apart audible caller trace { s with leavers := leaver :: s.leavers }
      { t with leavers := leaver :: t.leavers } := by
  obtain ⟨worlds⟩ := apart
  exact .mk (s := { s with leavers := leaver :: s.leavers }) worlds

theorem Apart.onStage (apart : Apart audible caller trace s t) (stage : Stage) :
    Apart audible caller trace { s with stage } { t with stage } := by
  obtain ⟨worlds⟩ := apart
  exact .mk (s := { s with stage }) worlds

end Service

end Modem.Session
