import Mathlib.Data.List.Perm.Subperm
import Modem.Proofs.Session.Brisk

/-! # What is left to do

What a service has left to do before a time is a sum to which each millisecond and each thing that
waits contributes. Whatever is taken up that begins no work or other work makes the sum smaller, and
so does the time that passes. -/

namespace Modem.Signal.Timer

variable {timer : Timer} {now : Nat}

theorem period_pos (on : timer.rate ≠ 0) : 1000 ≤ timer.period := by
  have nonzero : timer.rate.toNat ≠ 0 := fun zero => on (UInt32.toNat_inj.1 zero)
  rw [period]
  omega

/-- A tick that is handled when it is due is due again later. -/
theorem lt_due_ticked (on : (timer.ticked now).rate ≠ 0) (due : timer.due ≤ now) :
    now < (timer.ticked now).due := by
  have long : 1000 ≤ timer.period := period_pos on
  have far : 1000 ≤ min timer.period reach := Nat.le_min.2 ⟨long, by decide⟩
  rw [ticked]
  dsimp only
  split
  next onTime =>
    rw [tolerance] at onTime
    omega
  next late => omega

end Modem.Signal.Timer

namespace Modem.Session

open Signal

/-- An exchange waits for a later time. -/
theorem now_lt_of_waiting {α : Type} {x rest : Exchange α} {w : World} {time : Nat}
    (waiting : (proceed x w).2 = .waiting time rest) : w.now < time := by
  induction x generalizing w with
  | done result => cases waiting
  | note n rest ih => exact ih (w := w.record (eventOf n)) waiting
  | call c rest ih =>
    simp only [proceed] at waiting
    split at waiting
    · exact ih _ (w := (w.beginCall c).1) waiting
    next slow =>
      injection waiting with later
      rw [← later]
      exact Nat.lt_add_of_pos_right (Nat.pos_of_ne_zero slow)
  | authorize who rest ih =>
    simp only [proceed] at waiting
    split at waiting
    · have later := ih _ waiting
      rwa [World.now_beginAuthorization] at later
    next slow =>
      injection waiting with later
      rw [← later, World.now_beginAuthorization]
      exact Nat.lt_add_of_pos_right (Nat.pos_of_ne_zero slow)
  | modem rest ih => exact ih _ waiting
  | clock rest ih => exact ih _ waiting

namespace Service

variable {s t : Service} {occurrence : Occurrence}

/-- The service runs, and somebody can still send a request. -/
structure Attends (s : Service) : Prop where
  serving : s.stage = .serving
  isOpen : s.isOpen = true

/-! ## What is prepared -/

/-- What such a service prepares when it takes something up, with the job that begins. -/
inductive Prepares (s : Service) : Occurrence → Service × Option Job → Prop
  | setAside (caller : Nat) (rate : UInt32) (who : Requester) (rest : List Queued) (line : Line)
      (queue : s.queue = ⟨caller, .setup rate who⟩ :: rest) :
      Prepares s .request
        ({ s with
          world := s.world.record (.line line)
          queue := rest
          checks := s.checks ++ [⟨caller, rate, who, none⟩] }, none)
  | serve (caller : Nat) (request : Request) (rest : List Queued)
      (queue : s.queue = ⟨caller, request⟩ :: rest) :
      Prepares s .request ({ s with queue := rest }, some ⟨.answer caller, .serve request⟩)
  | arrived (c : Check) (arrival : Arrival (Option Fault)) (pending : c ∈ s.checks)
      (begun : c.arrival = some arrival) :
      Prepares s (.check c.caller) (s.conclude c arrival.content)
  | prompt (c : Check) (pending : c ∈ s.checks) (unbegun : c.arrival = none) :
      Prepares s (.check c.caller)
        ({ s with world := (s.world.beginAuthorization c.who).1 }.conclude c
          (s.world.beginAuthorization c.who).2.refusal)
  | asked (c : Check) (pending : c ∈ s.checks) (unbegun : c.arrival = none) (time : Nat)
      (later : time = s.now + (s.world.beginAuthorization c.who).2.delay) :
      Prepares s (.check c.caller)
        ({ s with
          world := (s.world.beginAuthorization c.who).1
          checks := s.checks.map fun d =>
            if d.caller = c.caller then
              { c with arrival := some ⟨time, (s.world.beginAuthorization c.who).2.refusal⟩ }
            else d }, none)
  | tick : Prepares s .tick (s, some ⟨.refresh, .tick⟩)
  | answered (l : Load) (mem : l ∈ s.loads) :
      Prepares s (.load l.query) (s.concludeLoad l.query l.arrival.content)
  | loaded (query : Query) (waits : query ∈ s.unbegun) :
      Prepares s (.load query)
        ({ s with world := s.world.beginQuery.1 }.concludeLoad query s.world.beginQuery.2.result)
  | reached (query : Query) (waits : query ∈ s.unbegun)
      (arrival : Arrival (Except Fault Snapshot)) :
      Prepares s (.load query)
        ({ s with world := s.world.beginQuery.1, loads := s.loads ++ [⟨query, arrival⟩] }, none)

theorem Attends.prepares_request (attends : s.Attends) {queued : Queued} {rest : List Queued}
    (queue : s.queue = queued :: rest) : s.Prepares .request (s.prepare .request) := by
  obtain ⟨caller, request⟩ := queued
  rw [prepare_request queue]
  by_cases setup : ∃ rate who, request = .setup rate who
  · obtain ⟨rate, who, rfl⟩ := setup
    rw [dispatch_setup (s := { s with queue := rest }) attends.serving]
    exact .setAside caller rate who rest _ queue
  · rw [dispatch_other fun _ rate who same => setup ⟨rate, who, same⟩]
    exact .serve caller request rest queue

/-- An authorization that is ready is one of those under way. -/
theorem mem_checks_of_ready {asking : Nat} (ready : .check asking ∈ s.readyChecks) :
    ∃ c ∈ s.checks, c.caller = asking := by
  obtain ⟨c, same, here⟩ := mem_readyChecks_iff.1 ready
  rcases here with arrived | first
  · exact ⟨c, (mem_arrived_iff.1 arrived).1, same⟩
  · exact ⟨c, (List.mem_filter.1 (List.mem_of_head? first)).1, same⟩

theorem prepares_check {c : Check}
    (found : (s.checks.find? fun d => d.caller = c.caller) = some c) :
    s.Prepares (.check c.caller) (s.prepare (.check c.caller)) := by
  have pending := List.mem_of_find?_eq_some found
  rw [prepare_check found]
  split
  next arrival begun => exact .arrived c arrival pending begun
  next unbegun =>
    rw [beginCheck]
    dsimp only
    split
    · exact .prompt c pending unbegun
    · refine .asked c pending unbegun _ ?_
      rw [World.now_beginAuthorization]
      rfl

theorem prepares_load {query : Query} (ready : .load query ∈ s.readyLoads) :
    s.Prepares (.load query) (s.prepare (.load query)) := by
  simp only [prepare]
  split
  next l found =>
    obtain rfl : l.query = query := by simpa using List.find?_some found
    exact .answered l (List.mem_of_find?_eq_some found)
  next nothing =>
    have unasked : ∀ l ∈ s.loads, l.query ≠ query := by simpa using nothing
    have waits := mem_unbegun_of_mem_readyLoads unasked ready
    rw [beginLoad]
    dsimp only
    split
    · exact .loaded query waits
    · exact .reached query waits _

theorem Attends.prepares (attends : s.Attends) (ready : occurrence ∈ s.ready)
    (fresh : occurrence ≠ .resume) : s.Prepares occurrence (s.prepare occurrence) := by
  cases ready_of_mem ready with
  | resume => exact absurd rfl fresh
  | request idle going waiting =>
    obtain ⟨queued, rest, queue⟩ := List.exists_cons_of_ne_nil waiting
    exact attends.prepares_request queue
  | check caller idle serving mem =>
    obtain ⟨c, pending, same⟩ := mem_checks_of_ready mem
    have asked : (s.checks.find? fun d => d.caller = caller).isSome :=
      List.find?_isSome.2 ⟨c, pending, decide_eq_true same⟩
    obtain ⟨d, found⟩ := Option.isSome_iff_exists.1 asked
    obtain rfl : d.caller = caller := by simpa using List.find?_some found
    exact prepares_check found
  | tick => exact .tick
  | load query idle serving mem => exact prepares_load mem
  | close idle serving deserted => cases attends.isOpen.symm.trans deserted.shut

/-! ## What is left to do -/

/-- The queries under way, and once more those that have not reached the device. -/
def flights (s : Service) : Nat := s.interface.reporting.inFlight.length + s.unbegun.length

/-- Work that can go on counts for more than none, and none for more than work that waits. -/
def stir (s : Service) : Nat :=
  match s.work with
  | none => 2
  | some work => if work.time ≤ s.now then 5 else 0

/-- A tick that is due. -/
def lag (s : Service) : Nat := if s.readyTick.isEmpty then 0 else 3

/-- An authorization that has not begun counts for more than one that has. -/
def doubt (s : Service) : Nat :=
  3 * s.checks.length + (s.checks.filter fun c => c.arrival.isNone).length

-- A request in the queue can become one whose authorization has not begun, which counts four. One
-- that is carried out may launch a query, which counts two until it reaches the device.
/-- How much is left to do of what has been begun or asked for. -/
def burden (s : Service) : Nat := s.stir + 5 * s.queue.length + s.doubt + s.flights

-- A millisecond that passes can let work go on and make a tick due, which is eight together.
/-- How much is left to do before a time. -/
def effort (s : Service) (limit : Nat) : Nat := 9 * (limit - s.now) + s.lag + s.burden

theorem stir_of_idle (idle : s.work = none) : s.stir = 2 := by rw [stir, idle]

theorem stir_of_due {work : Work} (busy : s.work = some work) (due : work.time ≤ s.now) :
    s.stir = 5 := by
  rw [stir, busy]
  exact if_pos due

theorem stir_of_waiting {work : Work} (busy : s.work = some work) (later : s.now < work.time) :
    s.stir = 0 := by
  rw [stir, busy]
  exact if_neg (Nat.not_le_of_lt later)

theorem stir_le (s : Service) : s.stir ≤ 5 := by
  unfold stir
  split
  · decide
  · split <;> decide

theorem lag_of_early
    (early : ∀ timer, s.interface.reporting.timer = some timer → s.now < timer.due) :
    s.lag = 0 := by
  rw [lag, readyTick_eq_nil_iff.2 early]
  rfl

theorem lag_of_due {timer : Timer} (running : s.interface.reporting.timer = some timer)
    (due : timer.due ≤ s.now) : s.lag = 3 := by
  have isDue : timer.isDue s.now = true := decide_eq_true due
  rw [lag, readyTick, running, Option.any_some, isDue]
  rfl

theorem lag_congr (timer : t.interface.reporting.timer = s.interface.reporting.timer)
    (now : t.now = s.now) : t.lag = s.lag := by
  rw [lag, lag, readyTick, readyTick, timer, now]

theorem lag_le (s : Service) : s.lag ≤ 3 := by
  unfold lag
  split <;> decide

/-- There are moves enough for what is left to do. -/
theorem effort_le_moves (s : Service) (limit : Nat) : s.effort limit ≤ s.moves limit := by
  have stir := s.stir_le
  have lag := s.lag_le
  have waiting : s.unbegun.length ≤ s.interface.reporting.inFlight.length :=
    List.length_filter_le _ _
  have unbegun : (s.checks.filter fun c => c.arrival.isNone).length ≤ s.checks.length :=
    List.length_filter_le _ _
  rw [effort, burden, moves, load, doubt, flights]
  omega

/-! ## Queries that move on -/

/-- At most one query is launched. -/
theorem flights_of_becomes
    (becomes : s.interface.reporting.Becomes none t.interface.reporting)
    (loads : t.loads = s.loads) : t.flights ≤ s.flights + 2 := by
  have launches := becomes.launches.inFlight
  have few := length_launched_le s.interface.reporting t.interface.reporting
  rw [flights, flights, unbegun, unbegun, launches, loads, List.filter_append, List.length_append,
    List.length_append]
  have fewer := List.length_filter_le (fun q => !s.loads.any fun l => l.query = q)
    (s.interface.reporting.launched t.interface.reporting)
  omega

/-- A query that has been answered is no longer under way. -/
theorem flights_of_received {query : Query}
    (pending : query ∈ s.interface.reporting.inFlight)
    (inFlight : t.interface.reporting.inFlight = s.interface.reporting.inFlight.erase query)
    (unbegun : t.unbegun.length ≤ s.unbegun.length) : t.flights < s.flights := by
  have fewer := List.length_erase_of_mem pending
  have some := List.length_pos_of_mem pending
  rw [flights, flights, inFlight]
  omega

/-- While the answer to a query is handled, the query is still under way. -/
theorem flights_of_handed {query : Query} (once : s.interface.reporting.inFlight.Nodup)
    (interface : t.interface = s.interface)
    (loads : t.loads = s.loads.filter fun l => l.query ≠ query) : t.flights ≤ s.flights + 1 := by
  have fresh : t.unbegun ⊆ query :: s.unbegun := by
    intro other waits
    rw [mem_unbegun_iff, interface, loads] at waits
    by_cases same : other = query
    · exact same ▸ List.mem_cons_self
    · refine List.mem_cons_of_mem _ (mem_unbegun_iff.2 ⟨waits.1, fun l mem here => ?_⟩)
      have kept : l ∈ s.loads.filter fun l => l.query ≠ query :=
        List.mem_filter.2 ⟨mem, decide_eq_true fun there => same (here.symm.trans there)⟩
      exact waits.2 l kept here
  have distinct : t.unbegun.Nodup := by
    rw [unbegun, interface]
    exact once.filter _
  have few := (List.subperm_of_subset distinct fresh).length_le
  rw [List.length_cons] at few
  rw [flights, flights, interface]
  omega

/-- A query that reaches the device waits for that no longer. -/
theorem flights_of_reached {query : Query} (waits : query ∈ s.unbegun)
    {arrival : Arrival (Except Fault Snapshot)} (interface : t.interface = s.interface)
    (loads : t.loads = s.loads ++ [⟨query, arrival⟩]) : t.flights < s.flights := by
  have unbegun := unbegun_of_asked (congrArg (·.reporting.inFlight) interface) loads
  have fewer : t.unbegun.length < s.unbegun.length := by
    rw [unbegun]
    exact List.length_filter_lt_length_iff_exists.2 ⟨query, waits, by simp⟩
  rw [flights, flights, interface]
  omega

/-! ## Authorizations that move on -/

theorem doubt_setAside {c : Check} (unbegun : c.arrival = none)
    (checks : t.checks = s.checks ++ [c]) : t.doubt = s.doubt + 4 := by
  have more : ([c].filter fun d => d.arrival.isNone).length = 1 := by simp [unbegun]
  rw [doubt, doubt, checks, List.filter_append, List.length_append, List.length_append, more,
    List.length_singleton]
  omega

theorem doubt_concluded {c : Check} (pending : c ∈ s.checks)
    (checks : t.checks = s.checks.filter fun d => d.caller ≠ c.caller) :
    t.doubt + 3 ≤ s.doubt := by
  have fewer : t.checks.length < s.checks.length := by
    rw [checks]
    exact List.length_filter_lt_length_iff_exists.2 ⟨c, pending, by simp⟩
  have less : (t.checks.filter fun d => d.arrival.isNone).length ≤
      (s.checks.filter fun d => d.arrival.isNone).length := by
    rw [checks, List.filter_comm]
    exact List.length_filter_le _ _
  rw [doubt, doubt]
  omega

theorem doubt_asked {c begun : Check} (pending : c ∈ s.checks) (unbegun : c.arrival = none)
    (begins : begun.arrival.isSome = true)
    (checks : t.checks = s.checks.map fun d => if d.caller = c.caller then begun else d) :
    t.doubt < s.doubt := by
  have others : (t.checks.filter fun d => d.arrival.isNone).length =
      ((s.checks.filter fun d => d.arrival.isNone).filter fun d => d.caller ≠ c.caller).length := by
    rw [checks, List.filter_map, List.length_map, List.filter_filter]
    congr 1
    refine List.filter_congr fun d _ => ?_
    by_cases same : d.caller = c.caller
    · simp [same, begins]
    · simp [same]
  have waits : c ∈ s.checks.filter fun d => d.arrival.isNone :=
    List.mem_filter.2 ⟨pending, by rw [unbegun]; rfl⟩
  have fewer : ((s.checks.filter fun d => d.arrival.isNone).filter
      fun d => d.caller ≠ c.caller).length <
        (s.checks.filter fun d => d.arrival.isNone).length :=
    List.length_filter_lt_length_iff_exists.2 ⟨c, waits, by simp⟩
  have same : t.checks.length = s.checks.length := by rw [checks, List.length_map]
  rw [doubt, doubt, others, same]
  omega

/-! ## Work that goes on -/

/-- What is carried out ends, or waits for a later time and leaves the interface as it is. -/
theorem perform_halts (s : Service) (idle : s.work = none) (purpose : Purpose)
    (x : Exchange (Interface × Answer)) :
    (s.perform purpose x).work = none ∨
      (s.perform purpose x).interface = s.interface ∧
        ∃ work, (s.perform purpose x).work = some work ∧ work.purpose = purpose ∧
          (s.perform purpose x).now < work.time := by
  unfold perform
  split
  · exact .inl (by rw [work_finish]; exact idle)
  next world time rest progress =>
    have later : s.world.now < time := now_lt_of_waiting (x := x) (by rw [progress])
    have now := now_proceed x s.world
    rw [progress] at now
    refine .inr ⟨rfl, _, rfl, rfl, ?_⟩
    change world.now < time
    rwa [now]

theorem performed_resume (ready : .resume ∈ s.ready) :
    (s.take .resume).queue = s.queue ∧ (s.take .resume).checks = s.checks := by
  obtain ⟨work, busy⟩ := busy_of_resume_mem_ready ready
  have goes : s.take .resume = { s with work := none }.perform work.purpose work.rest := by
    simp only [Service.take, busy]
  rw [goes]
  exact ⟨(performed _ _ _).queue_eq, (performed _ _ _).checks_eq⟩

/-- What is carried out has left the interface, or has it still to leave. -/
theorem carryOut_halts (idle : s.work = none) (job : Job)
    (expected : ∀ query, job.operation.answered? = some query →
      query ∈ s.interface.reporting.inFlight) :
    (s.carryOut job).work = none ∧
        s.interface.reporting.Becomes job.operation.answered?
          (s.carryOut job).interface.reporting ∨
      (s.carryOut job).stir = 0 ∧ (s.carryOut job).interface = s.interface := by
  rcases s.perform_halts idle job.purpose (s.interface.carryOut job.operation) with
    still | ⟨same, work, busy, -, later⟩
  · refine .inl ⟨still, ?_⟩
    have performed := s.performed job.purpose (s.interface.carryOut job.operation)
    have leads := leads_proceed (s.interface.carryOut job.operation) s.world
    simp only [Service.carryOut] at still ⊢
    generalize (proceed (s.interface.carryOut job.operation) s.world).1 = world,
      (proceed (s.interface.carryOut job.operation) s.world).2.rest = rest,
      s.perform job.purpose (s.interface.carryOut job.operation) = u at performed leads still
    cases performed with
    | ended result =>
      rw [interface_finish]
      have effect := (s.interface.always_carryOut job.operation _ _ leads).1
      exact Reporting.becomes_of_effect effect expected
    | waits time rest => cases still
  · exact .inr ⟨stir_of_waiting busy later, same⟩

theorem loads_carryOut (s : Service) (job : Job) : (s.carryOut job).loads = s.loads :=
  (s.performed _ _).loads_eq

/-- Where no query is answered, one can be launched. -/
theorem carryOut_other {job : Job} (idle : s.work = none)
    (other : job.operation.answered? = none) :
    (s.carryOut job).stir + (s.carryOut job).flights ≤ s.stir + s.flights + 2 := by
  have none := stir_of_idle idle
  rcases carryOut_halts idle job (by simp [other]) with ⟨still, becomes⟩ | ⟨waits, same⟩
  · rw [other] at becomes
    have few := flights_of_becomes becomes (s.loads_carryOut job)
    rw [stir_of_idle still]
    omega
  · have kept : (s.carryOut job).flights = s.flights := by
      rw [flights, flights, unbegun, unbegun, same, s.loads_carryOut job]
    omega

/-- Where a query is answered, none is launched. -/
theorem carryOut_loaded (idle : s.work = none) (queries : s.Queries) {query : Query}
    (pending : query ∈ s.interface.reporting.inFlight) (result : Except Fault Snapshot)
    (interface : t.interface = s.interface) (work : t.work = none)
    (loads : t.loads = s.loads.filter fun l => l.query ≠ query) :
    (t.carryOut ⟨.refresh, .loaded query result⟩).stir +
      (t.carryOut ⟨.refresh, .loaded query result⟩).flights < s.stir + s.flights := by
  have here : query ∈ t.interface.reporting.inFlight := by rwa [interface]
  have expected (other : Query)
      (answered : (Operation.loaded query result).answered? = some other) :
      other ∈ t.interface.reporting.inFlight := Option.some.inj answered ▸ here
  have left := (t.loads_carryOut ⟨.refresh, .loaded query result⟩).trans loads
  rw [stir_of_idle idle]
  rcases carryOut_halts work ⟨.refresh, .loaded query result⟩ expected with
    ⟨still, becomes⟩ | ⟨waits, same⟩
  · generalize t.carryOut ⟨.refresh, .loaded query result⟩ = u at still becomes left ⊢
    have inFlight : u.interface.reporting.inFlight =
        s.interface.reporting.inFlight.erase query := by
      rw [← interface]
      generalize u.interface.reporting = r at becomes
      cases becomes with
      | received => exact Reporting.inFlight_received ..
    have fewer := flights_of_received (t := u) pending inFlight (by
      rw [queries.unbegun_of_answered inFlight left]
      exact List.length_filter_le _ _)
    rw [stir_of_idle still]
    omega
  · have more := flights_of_handed queries.numbered.once (same.trans interface) left
    omega

/-! ## What is taken up -/

theorem burden_carryOut {job : Job} (idle : t.work = none)
    (other : job.operation.answered? = none) : (t.carryOut job).burden ≤ t.burden + 2 := by
  have more := carryOut_other idle other
  have queue : (t.carryOut job).queue = t.queue := queue_carryOut t job
  have doubt : (t.carryOut job).doubt = t.doubt := by
    rw [Service.doubt, Service.doubt, checks_carryOut t job]
  rw [burden, burden, queue, doubt]
  omega

/-- What is set aside or asked has less left to do. -/
theorem Prepares.burden_lt (prepares : s.Prepares occurrence (t, none)) : t.burden < s.burden := by
  cases prepares with
  | setAside caller rate who rest line queue =>
    let next : Service := { s with
      world := s.world.record (.line line)
      queue := rest
      checks := s.checks ++ [⟨caller, rate, who, none⟩] }
    have doubt : next.doubt = s.doubt + 4 := doubt_setAside rfl rfl
    have stir : next.stir = s.stir := rfl
    have flights : next.flights = s.flights := rfl
    have fewer : next.queue.length + 1 = s.queue.length := by rw [queue, List.length_cons]
    change next.burden < s.burden
    rw [burden, burden, doubt, stir, flights]
    omega
  | asked c pending unbegun time later =>
    let next : Service := { s with
      world := (s.world.beginAuthorization c.who).1
      checks := s.checks.map fun d =>
        if d.caller = c.caller then
          { c with arrival := some ⟨time, (s.world.beginAuthorization c.who).2.refusal⟩ }
        else d }
    have doubt : next.doubt < s.doubt := doubt_asked pending unbegun rfl rfl
    have now : next.now = s.now := World.now_beginAuthorization _ _
    have stir : next.stir = s.stir := by rw [Service.stir, Service.stir, now]
    have flights : next.flights = s.flights := rfl
    change next.burden < s.burden
    rw [burden, burden, stir, flights]
    change s.stir + 5 * s.queue.length + next.doubt + s.flights < _
    omega
  | reached query waits arrival =>
    let next : Service := { s with
      world := s.world.beginQuery.1
      loads := s.loads ++ [⟨query, arrival⟩] }
    have flights : next.flights < s.flights := flights_of_reached waits rfl rfl
    have now : next.now = s.now := World.now_beginQuery _
    have stir : next.stir = s.stir := by rw [Service.stir, Service.stir, now]
    have doubt : next.doubt = s.doubt := rfl
    change next.burden < s.burden
    rw [burden, burden, stir, doubt]
    change s.stir + 5 * s.queue.length + s.doubt + next.flights < _
    omega

/-- What is carried out has less left to do, unless it is a tick. -/
theorem Prepares.burden_carryOut_lt {job : Job} (prepares : s.Prepares occurrence (t, some job))
    (idle : s.work = none) (queries : s.Queries) :
    (occurrence ≠ .tick → (t.carryOut job).burden < s.burden) ∧
      (t.carryOut job).burden ≤ s.burden + 2 := by
  suffices less : (t.carryOut job).burden < s.burden ∨
      occurrence = .tick ∧ (t.carryOut job).burden ≤ s.burden + 2 by
    rcases less with less | ⟨tick, le⟩
    · exact ⟨fun _ => less, by omega⟩
    · exact ⟨fun other => absurd tick other, le⟩
  have concluded {c : Check} {refusal : Option Fault} {world : World} (pending : c ∈ s.checks)
      (now : world.now = s.now) :
      ({ s with world, checks := s.checks.filter fun d => d.caller ≠ c.caller }.carryOut
        ⟨.answer c.caller, .conclude c.rate refusal⟩).burden < s.burden := by
    let next : Service :=
      { s with world, checks := s.checks.filter fun d => d.caller ≠ c.caller }
    have doubt : next.doubt + 3 ≤ s.doubt := doubt_concluded pending rfl
    have stir : next.stir = s.stir := by
      have same : next.now = s.now := now
      rw [Service.stir, Service.stir, same]
    have flights : next.flights = s.flights := rfl
    have few : (next.carryOut ⟨.answer c.caller, .conclude c.rate refusal⟩).burden ≤
        next.burden + 2 := burden_carryOut idle (by cases refusal <;> rfl)
    have least : next.burden + 3 ≤ s.burden := by
      rw [burden, burden, stir, flights]
      change s.stir + 5 * s.queue.length + next.doubt + s.flights + 3 ≤ _
      omega
    exact Nat.lt_of_le_of_lt few least
  have loaded {query : Query} {result : Except Fault Snapshot} {world : World}
      (pending : query ∈ s.interface.reporting.inFlight) :
      ({ s with world, loads := s.loads.filter fun l => l.query ≠ query }.carryOut
        ⟨.refresh, .loaded query result⟩).burden < s.burden := by
    let next : Service := { s with world, loads := s.loads.filter fun l => l.query ≠ query }
    have less := carryOut_loaded (t := next) idle queries pending result rfl idle rfl
    have queue : (next.carryOut ⟨.refresh, .loaded query result⟩).queue = s.queue :=
      queue_carryOut _ _
    have checks : (next.carryOut ⟨.refresh, .loaded query result⟩).checks = s.checks :=
      checks_carryOut _ _
    change (next.carryOut _).burden < s.burden
    rw [burden, burden, queue, doubt, doubt, checks]
    omega
  cases prepares with
  | serve caller request rest queue =>
    let next : Service := { s with queue := rest }
    have few : (next.carryOut ⟨.answer caller, .serve request⟩).burden ≤ next.burden + 2 :=
      burden_carryOut idle rfl
    have fewer : next.queue.length + 1 = s.queue.length := by rw [queue, List.length_cons]
    have least : next.burden + 5 = s.burden := by
      rw [burden, burden, ← fewer]
      change s.stir + 5 * rest.length + s.doubt + s.flights + 5 =
        s.stir + 5 * (rest.length + 1) + s.doubt + s.flights
      omega
    refine .inl ?_
    change (next.carryOut _).burden < s.burden
    omega
  | arrived c arrival pending begun => exact .inl (concluded pending rfl)
  | prompt c pending unbegun => exact .inl (concluded pending (World.now_beginAuthorization _ _))
  | tick => exact .inr ⟨rfl, burden_carryOut idle rfl⟩
  | answered l mem => exact .inl (loaded (queries.asked l mem))
  | loaded query waits => exact .inl (loaded (mem_unbegun_iff.1 waits).1)

/-! ## Time that passes -/

/-- Nothing happens until after a time. -/
structure Stalled (s : Service) (limit : Nat) : Prop where
  quiet : s.ready = []
  late : ∀ time, s.wake? = some time → limit < time

/-- What can happen next but not now happens later. -/
theorem now_lt_wake {time : Nat} (quiet : s.ready = []) (wakes : s.wake? = some time) :
    s.now < time := by
  unfold ready at quiet
  unfold wake? at wakes
  cases busy : s.work with
  | some work =>
    simp only [busy] at quiet wakes
    obtain rfl := Option.some.inj wakes
    exact Nat.lt_of_not_le fun due => by simp [due] at quiet
  | none =>
    simp only [busy] at quiet wakes
    split at wakes
    next serving =>
      simp only [serving, List.append_eq_nil_iff] at quiet
      obtain ⟨⟨⟨⟨-, noCheck⟩, noTick⟩, noLoad⟩, -⟩ := quiet
      have first := List.min?_mem wakes
      simp only [List.mem_append, List.mem_filterMap, List.mem_map, Option.mem_toList] at first
      obtain (⟨c, mem, arrives⟩ | ⟨timer, running, rfl⟩) | ⟨l, mem, rfl⟩ := first
      · obtain ⟨arrival, begun, later⟩ := readyChecks_eq_nil_iff.1 noCheck c mem
        rw [begun] at arrives
        exact Option.some.inj arrives ▸ later
      · exact readyTick_eq_nil_iff.1 noTick timer running
      · exact (readyLoads_eq_nil_iff.1 noLoad).2 l mem
    · cases wakes

/-- The time that passes counts for more than what it makes due. -/
theorem effort_moveTo {time limit : Nat} (later : s.now < time) (within : time ≤ limit) :
    (s.moveTo time).effort limit < s.effort limit := by
  have now : (s.moveTo time).now = time := Nat.max_eq_right (Nat.le_of_lt later)
  have stir := (s.moveTo time).stir_le
  have lag := (s.moveTo time).lag_le
  have rest : (s.moveTo time).burden + s.stir = s.burden + (s.moveTo time).stir := by
    change (s.moveTo time).stir + 5 * s.queue.length + s.doubt + s.flights + s.stir =
      s.stir + 5 * s.queue.length + s.doubt + s.flights + (s.moveTo time).stir
    omega
  rw [effort, effort, now]
  omega

end Service

end Modem.Session
