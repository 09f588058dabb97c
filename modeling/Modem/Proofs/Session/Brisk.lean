import Modem.Proofs.Session.Devices
import Modem.Proofs.Session.Timers

/-! # Services that nothing delays

The bus and the authorizer answer at once, and the clock stands still. Then each thing that a
service takes is over when it has been taken, and leaves it less to do, although a request may
launch a query. -/

namespace Modem.Session

open Signal

/-! ## Worlds -/

/-- The bus and the authorizer answer at once. -/
structure Surroundings.Prompt (s : Surroundings) : Prop where
  bus : s.Instant
  authorizer : ∀ n who, (s.authorizer n who).delay = 0

theorem Surroundings.Kin.prompt {s t : Surroundings} (kin : s.Kin t) (prompt : s.Prompt) :
    t.Prompt :=
  ⟨kin.instantToo, kin.authorizer ▸ prompt.authorizer⟩

/-- An exchange that nothing delays comes to its end. -/
theorem finished_of_prompt {α : Type} (x : Exchange α) {w : World}
    (prompt : w.surroundings.Prompt) : ∃ result, (proceed x w).2 = .finished result := by
  induction x generalizing w with
  | done result => exact ⟨result, rfl⟩
  | note n rest ih => exact ih (w := w.record (eventOf n)) prompt
  | call c rest ih =>
    have delay : (w.beginCall c).2.delay = 0 := prompt.bus _ _
    simp only [proceed, delay, if_true]
    exact ih _ prompt
  | authorize who rest ih =>
    have delay : (w.beginAuthorization who).2.delay = 0 := prompt.authorizer _ _
    simp only [proceed, delay, if_true]
    exact ih _ (by rw [World.surroundings_beginAuthorization]; exact prompt)
  | modem rest ih => exact ih _ prompt
  | clock rest ih => exact ih _ prompt

namespace Service

variable {s t : Service} {occurrence : Occurrence}

theorem perform_of_prompt (prompt : s.world.surroundings.Prompt) (purpose : Purpose)
    (x : Exchange (Interface × Answer)) :
    ∃ result, s.perform purpose x =
      { s with world := (proceed x s.world).1 }.finish purpose result := by
  obtain ⟨result, finished⟩ := finished_of_prompt x prompt
  unfold perform
  split
  next world ended progress =>
    rw [progress]
    exact ⟨ended, rfl⟩
  next world time rest progress =>
    rw [progress] at finished
    cases finished

/-! ## What is taken -/

/-- The service runs, somebody can still send a request, and nothing that has begun waits, but for
the device. -/
structure Idles (s : Service) : Prop where
  serving : s.stage = .serving
  isOpen : s.isOpen = true
  idle : s.work = none
  unasked : ∀ c ∈ s.checks, c.arrival = none

/-- Nothing but the device makes such a service wait, and no tick is due. -/
structure Brisk (s : Service) : Prop extends Idles s where
  prompt : s.world.surroundings.Prompt
  early : ∀ timer, s.interface.reporting.timer = some timer → s.now < timer.due
  queries : s.Queries

/-- What becomes of such a service when it takes something. -/
inductive Taken (s : Service) : Occurrence → Service → Prop
  | served (caller : Nat) (request : Request) (rest : List Queued)
      (queue : s.queue = ⟨caller, request⟩ :: rest)
      (plain : ∀ rate who, request ≠ .setup rate who) :
      Taken s .request
        ({ s with queue := rest }.carryOut ⟨.answer caller, .serve request⟩)
  | setAside (caller : Nat) (rate : UInt32) (who : Requester) (rest : List Queued) (line : Line)
      (queue : s.queue = ⟨caller, .setup rate who⟩ :: rest) :
      Taken s .request
        { s with
          world := s.world.record (.line line)
          queue := rest
          checks := s.checks ++ [⟨caller, rate, who, none⟩] }
  | checked (c : Check) (pending : c ∈ s.checks) :
      Taken s (.check c.caller)
        ({ s with
          world := (s.world.beginAuthorization c.who).1
          checks := s.checks.filter fun d => d.caller ≠ c.caller }.carryOut
            ⟨.answer c.caller, .conclude c.rate (s.world.beginAuthorization c.who).2.refusal⟩)
  | load (query : Query) : Taken s (.load query) (s.take (.load query))

theorem Brisk.taken_request (brisk : s.Brisk) {caller : Nat} {request : Request}
    {rest : List Queued} (queue : s.queue = ⟨caller, request⟩ :: rest) :
    s.Taken .request (s.take .request) := by
  have fresh : Occurrence.request ≠ .resume := nofun
  have prepared := prepare_request queue
  by_cases setup : ∃ rate who, request = .setup rate who
  · obtain ⟨rate, who, rfl⟩ := setup
    rw [dispatch_setup (s := { s with queue := rest }) brisk.serving] at prepared
    rw [take_of_prepare fresh prepared]
    exact .setAside caller rate who rest _ queue
  · have plain : ∀ rate who, request ≠ .setup rate who :=
      fun rate who same => setup ⟨rate, who, same⟩
    rw [dispatch_other fun _ => plain] at prepared
    rw [take_of_prepare fresh prepared]
    exact .served caller request rest queue plain

/-- An authorization ends as soon as it begins. -/
theorem Brisk.take_check (brisk : s.Brisk) {c : Check}
    (found : (s.checks.find? fun d => d.caller = c.caller) = some c) :
    s.take (.check c.caller) =
      { s with
        world := (s.world.beginAuthorization c.who).1
        checks := s.checks.filter fun d => d.caller ≠ c.caller }.carryOut
          ⟨.answer c.caller, .conclude c.rate (s.world.beginAuthorization c.who).2.refusal⟩ := by
  have fresh : Occurrence.check c.caller ≠ .resume := nofun
  have pending := List.mem_of_find?_eq_some found
  have delay : (s.world.beginAuthorization c.who).2.delay = 0 := brisk.prompt.authorizer _ _
  have prepared := prepare_check found
  rw [brisk.unasked c pending] at prepared
  simp only [beginCheck, delay, if_true, conclude] at prepared
  rw [take_of_prepare fresh prepared]

theorem Brisk.taken (brisk : s.Brisk) (ready : occurrence ∈ s.ready) :
    s.Taken occurrence (s.take occurrence) := by
  cases ready_of_mem ready with
  | resume work busy => cases brisk.idle.symm.trans busy
  | request idle going waiting =>
    obtain ⟨⟨caller, request⟩, rest, queue⟩ := List.exists_cons_of_ne_nil waiting
    exact brisk.taken_request queue
  | check caller idle serving mem =>
    have asked : (s.checks.find? fun d => d.caller = caller).isSome := by
      obtain ⟨c, same, arrived | first⟩ := mem_readyChecks_iff.1 mem
      · rw [List.find?_isSome]
        exact ⟨c, (mem_arrived_iff.1 arrived).1, decide_eq_true same⟩
      · rw [List.find?_isSome]
        exact ⟨c, (List.mem_filter.1 (List.mem_of_head? first)).1, decide_eq_true same⟩
    obtain ⟨c, found⟩ := Option.isSome_iff_exists.1 asked
    obtain rfl : c.caller = caller := by simpa using List.find?_some found
    rw [brisk.take_check found]
    exact .checked c (List.mem_of_find?_eq_some found)
  | tick idle serving due =>
    obtain ⟨timer, running, late⟩ : ∃ timer,
        s.interface.reporting.timer = some timer ∧ timer.due ≤ s.now := by
      simpa [Option.any_eq_true, Timer.isDue] using due
    exact absurd (brisk.early timer running) (Nat.not_lt.2 late)
  | load query => exact .load query
  | close idle serving deserted => cases brisk.isOpen.symm.trans deserted.shut

/-- Only requests, authorizations and queries come next. -/
theorem Taken.occurs (taken : s.Taken occurrence t) :
    occurrence = .request ∧ s.queue ≠ [] ∨ (∃ c ∈ s.checks, occurrence = .check c.caller) ∨
      ∃ query, occurrence = .load query := by
  cases taken with
  | served caller request rest queue => exact .inl ⟨rfl, by simp [queue]⟩
  | setAside caller rate who rest line queue => exact .inl ⟨rfl, by simp [queue]⟩
  | checked c pending => exact .inr (.inl ⟨c, pending, rfl⟩)
  | load query => exact .inr (.inr ⟨query, rfl⟩)

/-! ## What is left to do -/

/-- How much is left to do. A request can become an authorization and launch a query, which reaches
the device and is answered. -/
def toil (s : Service) : Nat :=
  6 * s.queue.length + 3 * s.checks.length + 2 * s.unbegun.length + s.loads.length

theorem mem_unbegun_of_ready (queries : s.Queries) {query : Query} (ready : .load query ∈ s.ready)
    (waiting : s.isArrival (.load query) = false) : query ∈ s.unbegun := by
  refine mem_unbegun_iff.2 ⟨mem_inFlight_of_mem_ready queries.asked ready, fun l mem => ?_⟩
  simpa using List.any_eq_false.1 waiting l mem

/-- What becomes of a service when a query reaches the device or is answered. -/
structure Tends (outcomes : List (Option Fault)) (s t : Service) : Prop where
  beside : s.Beside (undisturbed outcomes) t ∨ s.asking.Beside (undisturbed outcomes) t
  queries : t.Queries
  less : 2 * t.unbegun.length + t.loads.length < 2 * s.unbegun.length + s.loads.length

theorem Brisk.tends (brisk : s.Brisk) (outcomes : List (Option Fault)) {query : Query}
    (ready : .load query ∈ s.ready) : s.Tends outcomes (s.take (.load query)) := by
  obtain ⟨⟨-, -, idle, -⟩, prompt, -, queries⟩ := brisk
  cases arrival : s.isArrival (.load query) with
  | true =>
    have handles := handles_arrival outcomes idle prompt.bus arrival
    obtain ⟨beside, next, unbegun⟩ := queries.take_arrival outcomes idle prompt.bus arrival
    obtain ⟨l, mem, same⟩ := List.any_eq_true.1 arrival
    have fewer : (s.take (.load query)).loads.length < s.loads.length := by
      rw [handles.loads]
      exact List.length_filter_lt_length_iff_exists.2 ⟨l, mem, by simpa using same⟩
    refine ⟨.inl beside, next, ?_⟩
    rw [unbegun]
    omega
  | false =>
    obtain ⟨beside, next, unbegun⟩ := queries.take_waiting outcomes idle prompt.bus ready arrival
    have fewer : (s.take (.load query)).unbegun.length < s.unbegun.length := by
      rw [unbegun]
      exact List.length_filter_lt_length_iff_exists.2
        ⟨query, mem_unbegun_of_ready queries ready arrival, by simp⟩
    have more : (s.take (.load query)).loads.length ≤ s.loads.length + 1 := by
      rcases asks outcomes idle prompt.bus arrival with handles | ⟨-, -, arrives, loads⟩
      · rw [handles.loads]
        exact Nat.le_succ_of_le (List.length_filter_le _ _)
      · simp [loads]
    exact ⟨.inr beside, next, by omega⟩

theorem Beside.isOpen {apart : Prop} {R : Concord apart} (beside : s.Beside R t) :
    t.isOpen = s.isOpen := by
  obtain ⟨-, -, -, -⟩ := beside
  rfl

theorem Beside.idles {outcomes : List (Option Fault)} (beside : s.Beside (undisturbed outcomes) t)
    (idles : s.Idles) : t.Idles where
  serving := beside.stage.trans idles.serving
  isOpen := beside.isOpen.trans idles.isOpen
  idle := beside.idle idles.idle
  unasked := beside.checks ▸ idles.unasked

section

variable {outcomes : List (Option Fault)}

theorem Tends.queue (tends : s.Tends outcomes t) : t.queue = s.queue := by
  rcases tends.beside with beside | beside
  · exact beside.queue
  · exact beside.queue

theorem Tends.checks (tends : s.Tends outcomes t) : t.checks = s.checks := by
  rcases tends.beside with beside | beside
  · exact beside.checks
  · exact beside.checks

theorem Tends.idles (tends : s.Tends outcomes t) (idles : s.Idles) : t.Idles := by
  rcases tends.beside with beside | beside
  · exact beside.idles idles
  · exact beside.idles ⟨idles.serving, idles.isOpen, idles.idle, idles.unasked⟩

end

theorem queue_carryOut (s : Service) (job : Job) : (s.carryOut job).queue = s.queue :=
  (s.performed _ _).queue_eq

theorem checks_carryOut (s : Service) (job : Job) : (s.carryOut job).checks = s.checks :=
  (s.performed _ _).checks_eq

/-- A request moves on, unless a query does. -/
theorem Taken.moves (taken : s.Taken occurrence t) (other : ∀ query, occurrence ≠ .load query) :
    6 * t.queue.length + 3 * t.checks.length + 3 ≤ 6 * s.queue.length + 3 * s.checks.length := by
  cases taken with
  | served caller request rest queue =>
    rw [queue_carryOut, checks_carryOut, queue, List.length_cons]
    dsimp only
    omega
  | setAside caller rate who rest line queue =>
    simp only [queue, List.length_append, List.length_cons, List.length_nil]
    omega
  | checked c pending =>
    have fewer : (s.checks.filter fun d => d.caller ≠ c.caller).length < s.checks.length :=
      List.length_filter_lt_length_iff_exists.2 ⟨c, pending, by simp⟩
    rw [queue_carryOut, checks_carryOut]
    dsimp only
    omega
  | load query => exact absurd rfl (other query)

theorem length_launched_le (r s : Reporting) : (r.launched s).length ≤ 1 := by
  unfold Reporting.launched
  split <;> simp

/-- Whatever is taken, there is less left to do. -/
theorem Brisk.toil_lt (brisk : s.Brisk) (ready : occurrence ∈ s.ready) :
    (s.take occurrence).toil < s.toil := by
  have taken := brisk.taken ready
  by_cases load : ∃ query, occurrence = .load query
  · obtain ⟨query, rfl⟩ := load
    have tends := brisk.tends [] ready
    have less := tends.less
    rw [toil, toil, tends.queue, tends.checks]
    omega
  · have other : ∀ query, occurrence ≠ .load query := fun query same => load ⟨query, same⟩
    obtain ⟨-, loads, launches⟩ := brisk.queries.take_of_other ready other
    have unbegun := congrArg List.length (brisk.queries.unbegun_of_launches loads launches)
    rw [List.length_append] at unbegun
    have few := length_launched_le s.interface.reporting (s.take occurrence).interface.reporting
    have moves := taken.moves other
    rw [toil, toil, loads]
    omega

/-! ## Staying brisk -/

theorem Idles.carryOut (idles : s.Idles) (prompt : s.world.surroundings.Prompt) (caller : Nat)
    (operation : Operation) : (s.carryOut ⟨.answer caller, operation⟩).Idles := by
  obtain ⟨result, same⟩ := perform_of_prompt prompt (.answer caller)
    (s.interface.carryOut operation)
  rw [Service.carryOut, same]
  exact ⟨idles.serving, idles.isOpen, idles.idle, idles.unasked⟩

theorem Taken.idles (taken : s.Taken occurrence t) (brisk : s.Brisk)
    (ready : occurrence ∈ s.ready) : t.Idles := by
  obtain ⟨serving, isOpen, idle, unasked⟩ := brisk.toIdles
  cases taken with
  | served caller request rest queue =>
    have idles : { s with queue := rest }.Idles := ⟨serving, isOpen, idle, unasked⟩
    exact idles.carryOut brisk.prompt caller _
  | setAside caller rate who rest line queue =>
    refine ⟨serving, isOpen, idle, fun c mem => ?_⟩
    rcases List.mem_append.1 mem with old | new
    · exact unasked c old
    · rw [List.mem_singleton.1 new]
  | checked c pending =>
    have idles : { s with
        world := (s.world.beginAuthorization c.who).1
        checks := s.checks.filter fun d => d.caller ≠ c.caller }.Idles :=
      ⟨serving, isOpen, idle, fun d mem => unasked d (List.mem_filter.1 mem).1⟩
    have prompt : (s.world.beginAuthorization c.who).1.surroundings.Prompt := by
      rw [World.surroundings_beginAuthorization]
      exact brisk.prompt
    exact idles.carryOut prompt c.caller _
  | load query => exact (brisk.tends [] ready).idles brisk.toIdles

theorem Brisk.take (brisk : s.Brisk) (ready : occurrence ∈ s.ready)
    (early : ∀ timer, (s.take occurrence).interface.reporting.timer = some timer →
      (s.take occurrence).now < timer.due) : (s.take occurrence).Brisk := by
  refine ⟨(brisk.taken ready).idles brisk ready, ?_, early, ?_⟩
  · rw [surroundings_take]
    exact brisk.prompt
  · by_cases load : ∃ query, occurrence = .load query
    · obtain ⟨query, rfl⟩ := load
      exact (brisk.tends [] ready).queries
    · exact (brisk.queries.take_of_other ready fun query same => load ⟨query, same⟩).1

end Service

namespace Account

variable {config : Config} {supported : Bool} {stage : Stage} {a : Account} {m : Move}

/-- No timer starts that is due at once. -/
theorem Reachable.early (reachable : Reachable config supported stage a) (allowed : a.Allows m)
    (still : ∀ time, m ≠ .pass time)
    (early : ∀ timer, a.service.interface.reporting.timer = some timer → a.service.now < timer.due)
    (idle : (a.after m).service.work = none) :
    ∀ timer, (a.after m).service.interface.reporting.timer = some timer →
      (a.after m).service.now < timer.due := by
  intro timer running
  rw [now_after still]
  cases reachable.timed allowed with
  | kept other same => exact early timer (same.symm.trans running)
  | stopped other d earlier deeds ended off none => cases none.symm.trans running
  | ticked old tick ran due => exact absurd (early old ran) (Nat.not_lt.2 due)
  | started d earlier other starts =>
    have later := reachable.run (Run.refl.step allowed)
    have positive := ((later.history idle).admits running).period
    obtain rfl := Option.some.inj (starts.timer.symm.trans running)
    rw [Timer.due_start]
    omega

end Account

end Modem.Session
