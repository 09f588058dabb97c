import Modem.Proofs.Session.Ready
import Modem.Proofs.Signal.Queries

/-! # Queries of a service

A query waits until it reaches the device, and then for its answer. Which queries wait for what
changes only when a query is launched, reaches the device or is answered. -/

namespace Modem.Session.Service

open Signal

variable {s t : Service} {occurrence : Occurrence}
  {x : Exchange (Interface × Answer)}

/-! ## Arrivals -/

/-- The answer of the device to a query arrives. -/
def isArrival (s : Service) : Occurrence → Bool
  | .load query => s.loads.any fun l => l.query = query
  | _ => false

/-- What can happen at this instant, apart from the arrival of answers. -/
def scheduled (s : Service) : List Occurrence := s.ready.filter fun o => !s.isArrival o

theorem mem_scheduled (ready : occurrence ∈ s.ready) (other : s.isArrival occurrence = false) :
    occurrence ∈ s.scheduled := by
  simp [scheduled, ready, other]

theorem filter_readyLoads (s : Service) :
    s.readyLoads.filter (fun o => !s.isArrival o) = (s.unbegun.take 1).map .load := by
  have arrivals : ((arrived (fun l => some l.arrival) s.now s.loads).map fun l =>
      Occurrence.load l.query).filter (fun o => !s.isArrival o) = [] := by
    rw [List.filter_eq_nil_iff]
    intro o mem
    obtain ⟨l, arrives, rfl⟩ := List.mem_map.1 mem
    have asked : s.isArrival (.load l.query) = true :=
      List.any_eq_true.2 ⟨l, (mem_arrived_iff.1 arrives).1, decide_eq_true rfl⟩
    simp [asked]
  have waiting : ((s.unbegun.take 1).map Occurrence.load).filter (fun o => !s.isArrival o) =
      (s.unbegun.take 1).map .load := by
    rw [List.filter_eq_self]
    intro o mem
    obtain ⟨query, waits, rfl⟩ := List.mem_map.1 mem
    exact (List.mem_filter.1 (List.mem_of_mem_take waits)).2
  rw [readyLoads, List.map_append, List.filter_append, List.map_map, waiting]
  exact congrArg (· ++ _) arrivals

theorem scheduled_of_serving (idle : s.work = none) (serving : s.stage = .serving) :
    s.scheduled = s.readyRequest ++ s.readyChecks ++ s.readyTick ++
      (s.unbegun.take 1).map .load ++ s.readyClose := by
  have kept (occurrences : List Occurrence)
      (others : ∀ o ∈ occurrences, s.isArrival o = false) :
      occurrences.filter (fun o => !s.isArrival o) = occurrences :=
    List.filter_eq_self.2 fun o mem => by simp [others o mem]
  have request := kept s.readyRequest fun o mem => by
    rw [(mem_readyRequest_iff.1 mem).1]
    rfl
  have checks := kept s.readyChecks fun o mem => by
    obtain ⟨c, -, rfl⟩ := List.mem_map.1 mem
    rfl
  have tick := kept s.readyTick fun o mem => by
    unfold readyTick at mem
    split at mem
    · rw [List.mem_singleton.1 mem]
      rfl
    · cases mem
  have close := kept s.readyClose fun o mem => by
    rw [(mem_readyClose_iff.1 mem).1]
    rfl
  simp only [scheduled, ready, idle, serving, List.filter_append, request, checks, tick, close,
    filter_readyLoads]

/-! ## Between operations -/

/-- However the exchange ends, it answers no query. -/
def Unanswering (s : Service) (x : Exchange (Interface × Answer)) : Prop :=
  x.Always fun _ result => s.interface.reporting.Becomes none result.1.reporting

/-- The queries under way are numbered, those that have reached the device are under way, and the
work under way answers none. -/
structure Queries (s : Service) : Prop where
  numbered : s.interface.reporting.Numbered
  asked : ∀ l ∈ s.loads, l.query ∈ s.interface.reporting.inFlight
  work : ∀ work, s.work = some work → s.Unanswering work.rest

theorem perform_becomes (purpose : Purpose) (idle : s.work = none) (unanswering : s.Unanswering x) :
    s.interface.reporting.Becomes none (s.perform purpose x).interface.reporting ∧
      ∀ work, (s.perform purpose x).work = some work →
        (s.perform purpose x).Unanswering work.rest := by
  have performed := s.performed purpose x
  have leads := leads_proceed x s.world
  generalize (proceed x s.world).1 = world, (proceed x s.world).2.rest = rest,
    s.perform purpose x = t at performed leads
  cases performed with
  | ended result =>
    rw [interface_finish, work_finish]
    exact ⟨unanswering _ result leads, fun work busy => by cases idle.symm.trans busy⟩
  | waits time rest =>
    refine ⟨.same, fun work busy => ?_⟩
    obtain rfl := Option.some.inj busy
    exact fun turns result ends => unanswering _ result (leads.trans ends)

theorem interface_prepare (s : Service) (occurrence : Occurrence) :
    (s.prepare occurrence).1.interface = s.interface := by
  obtain ⟨world, queue, checks, loads, asked, same⟩ := s.prepare_eq occurrence
  rw [same]

/-- Before anything is carried out, an occurrence leaves what waits for the device as it is, and
what begins answers no query, unless a query reaches the device or is answered. -/
theorem prepare_of_other (other : ∀ query, occurrence ≠ .load query) :
    (s.prepare occurrence).1.loads = s.loads ∧
      (s.prepare occurrence).2.all (fun job => job.operation.answered?.isNone) = true := by
  cases occurrence with
  | resume => exact ⟨rfl, rfl⟩
  | request =>
    simp only [prepare]
    split
    · unfold dispatch
      split
      · exact ⟨rfl, rfl⟩
      · exact ⟨rfl, rfl⟩
    · exact ⟨rfl, rfl⟩
  | check caller =>
    simp only [prepare]
    split
    · split
      · exact ⟨rfl, rfl⟩
      · unfold beginCheck
        dsimp only
        split
        · exact ⟨rfl, rfl⟩
        · exact ⟨rfl, rfl⟩
    · exact ⟨rfl, rfl⟩
  | tick => exact ⟨rfl, rfl⟩
  | load query => exact absurd rfl (other query)
  | close => exact ⟨rfl, rfl⟩

theorem unanswering_carryOut {operation : Operation} (answered : operation.answered? = none) :
    s.Unanswering (s.interface.carryOut operation) := by
  intro turns result ends
  have effect := (s.interface.always_carryOut operation turns result ends).1
  have becomes := Reporting.becomes_of_effect effect fun query same => by
    rw [answered] at same
    cases same
  rwa [answered] at becomes

/-- Unless a query reaches the device or is answered, queries are launched at the most. -/
theorem Queries.take_of_other (queries : s.Queries) (ready : occurrence ∈ s.ready)
    (other : ∀ query, occurrence ≠ .load query) :
    (s.take occurrence).Queries ∧ (s.take occurrence).loads = s.loads ∧
      s.interface.reporting.Launches (s.take occurrence).interface.reporting := by
  obtain ⟨numbered, asked, work⟩ := queries
  have taken : s.interface.reporting.Becomes none (s.take occurrence).interface.reporting ∧
      (∀ work, (s.take occurrence).work = some work →
        (s.take occurrence).Unanswering work.rest) ∧ (s.take occurrence).loads = s.loads := by
    by_cases resume : occurrence = .resume
    · subst resume
      cases busy : s.work with
      | none =>
        have same : s.take .resume = s := by simp only [Service.take, busy]
        rw [same]
        exact ⟨.same, work, rfl⟩
      | some left =>
        have goes : s.take .resume = { s with work := none }.perform left.purpose left.rest := by
          simp only [Service.take, busy]
        obtain ⟨becomes, still⟩ := perform_becomes (s := { s with work := none })
          left.purpose rfl (work left busy)
        rw [goes]
        exact ⟨becomes, still, (performed _ _ _).loads_eq⟩
    · have idle := idle_of_mem_ready ready resume
      obtain ⟨loads, answers⟩ := prepare_of_other (s := s) other
      have interface := s.interface_prepare occurrence
      have still := (s.work_prepare occurrence).trans idle
      rcases prepared : s.prepare occurrence with ⟨p, job⟩
      rw [prepared] at loads answers interface still
      dsimp only at loads answers interface still
      rw [take_of_prepare resume prepared]
      cases job with
      | none =>
        dsimp only
        rw [interface, still]
        exact ⟨.same, by simp, loads⟩
      | some job =>
        have answered : job.operation.answered? = none := by simpa using answers
        obtain ⟨becomes, still⟩ := perform_becomes job.purpose still
          (unanswering_carryOut (s := p) answered)
        rw [← interface]
        exact ⟨becomes, still, (performed _ _ _).loads_eq.trans loads⟩
  obtain ⟨becomes, still, loads⟩ := taken
  have launches := becomes.launches
  refine ⟨⟨launches.numbered numbered, ?_, still⟩, loads, launches⟩
  intro l mem
  rw [loads] at mem
  exact becomes.mem_inFlight (asked l mem) (by simp)

/-! ## What waits to reach the device -/

theorem mem_unbegun_iff {query : Query} :
    query ∈ s.unbegun ↔
      query ∈ s.interface.reporting.inFlight ∧ ∀ l ∈ s.loads, l.query ≠ query := by
  simp [unbegun]

/-- What is launched waits to reach the device. -/
theorem Queries.unbegun_of_launches (queries : s.Queries) (loads : t.loads = s.loads)
    (launches : s.interface.reporting.Launches t.interface.reporting) :
    t.unbegun = s.unbegun ++ s.interface.reporting.launched t.interface.reporting := by
  unfold unbegun
  rw [launches.inFlight, loads, List.filter_append]
  congr 1
  rw [List.filter_eq_self]
  intro query mem
  unfold Reporting.launched at mem
  split at mem
  · cases mem
  · have new : query ∉ s.interface.reporting.inFlight := by
      rw [List.mem_singleton.1 mem]
      exact queries.numbered.fresh _
    have waits : ∀ l ∈ s.loads, l.query ≠ query :=
      fun l asked same => new (same ▸ queries.asked l asked)
    simpa using waits

/-- Where neither the interface nor the work changes, nothing is launched. -/
theorem Queries.of_same (queries : s.Queries) (interface : t.interface = s.interface)
    (loads : t.loads = s.loads) (work : t.work = s.work) :
    t.Queries ∧
      t.unbegun = s.unbegun ++ s.interface.reporting.launched t.interface.reporting := by
  refine ⟨⟨?_, ?_, ?_⟩, queries.unbegun_of_launches loads ?_⟩
  · rw [interface]
    exact queries.numbered
  · rw [interface, loads]
    exact queries.asked
  · unfold Unanswering
    rw [interface, work]
    exact queries.work
  · rw [interface]
    exact Reporting.launches_of_same rfl rfl

/-- The answer to a query takes it from those that wait, if it has not reached the device before. -/
theorem Queries.unbegun_of_answered (queries : s.Queries) {query : Query}
    (inFlight : t.interface.reporting.inFlight = s.interface.reporting.inFlight.erase query)
    (loads : t.loads = s.loads.filter fun l => l.query ≠ query) :
    t.unbegun = s.unbegun.filter fun other => other ≠ query := by
  unfold unbegun
  rw [inFlight, loads, queries.numbered.once.erase_eq_filter, List.filter_filter,
    List.filter_filter]
  refine List.filter_congr fun other _ => ?_
  by_cases same : other = query
  · simp [same]
  · have kept (l : Load) : l.query = other → l.query ≠ query := fun here => here ▸ same
    grind

theorem unbegun_of_arrival {query : Query} (asked : s.isArrival (.load query) = true) :
    (s.unbegun.filter fun other => other ≠ query) = s.unbegun := by
  obtain ⟨l, mem, same⟩ := List.any_eq_true.1 asked
  rw [List.filter_eq_self]
  intro other waits
  have apart := (mem_unbegun_iff.1 waits).2 l mem
  rw [of_decide_eq_true same] at apart
  exact decide_eq_true apart.symm

/-- A query that reaches the device waits no longer. -/
theorem unbegun_of_asked {query : Query} {arrival : Arrival (Except Fault Snapshot)}
    (inFlight : t.interface.reporting.inFlight = s.interface.reporting.inFlight)
    (loads : t.loads = s.loads ++ [⟨query, arrival⟩]) :
    t.unbegun = s.unbegun.filter fun other => other ≠ query := by
  unfold unbegun
  rw [inFlight, loads, List.filter_filter]
  refine List.filter_congr fun other _ => ?_
  grind

end Modem.Session.Service
