import Modem.Proofs.Session.Concord
import Modem.Proofs.Session.Exports
import Modem.Proofs.Session.Queries

/-! # Services with different devices

Two services have the same modem, the same authorizer and a bus that answers at once, and each has a
device of its own. What a device answers, and when, tells on what is shown, on what is published and
on the queries that still wait for an answer. -/

namespace Modem.Session

open Signal

/-! ## Worlds -/

/-- Everything but the lines of the log and the values that are published. -/
def Event.scheduled : Event → Bool
  | .line _ => false
  | .call (.publish _) _ => false
  | _ => true

/-- Every call is answered at once. -/
def Surroundings.Instant (s : Surroundings) : Prop := ∀ n c, (s.bus n c).delay = 0

/-- Buses that answer at once, the same modem and the same authorizer. -/
structure Surroundings.Kin (s t : Surroundings) : Prop where
  modem : t.modem = s.modem
  authorizer : t.authorizer = s.authorizer
  instant : s.Instant
  instantToo : t.Instant

theorem Surroundings.Kin.symm {s t : Surroundings} (kin : s.Kin t) : t.Kin s :=
  ⟨kin.modem.symm, kin.authorizer.symm, kin.instantToo, kin.instant⟩

/-- Two worlds are the same, but for the device and the bus, and for what has been published and
written to the log. -/
abbrev World.Kin : World → World → Prop := World.Agree Surroundings.Kin Event.scheduled

namespace World.Kin

variable {w v u : World}

theorem refl (instant : w.surroundings.Instant) : w.Kin w :=
  ⟨rfl, ⟨rfl, rfl, instant, instant⟩, rfl, rfl, rfl⟩

theorem symm (kin : w.Kin v) : v.Kin w :=
  ⟨kin.now.symm, kin.surroundings.symm, kin.authorizationsBegun.symm, kin.queriesBegun.symm,
    kin.said.symm⟩

theorem trans (first : w.Kin v) (second : v.Kin u) : w.Kin u where
  now := second.now.trans first.now
  surroundings :=
    { modem := second.surroundings.modem.trans first.surroundings.modem
      authorizer := second.surroundings.authorizer.trans first.surroundings.authorizer
      instant := first.surroundings.instant
      instantToo := second.surroundings.instantToo }
  authorizationsBegun := second.authorizationsBegun.trans first.authorizationsBegun
  queriesBegun := second.queriesBegun.trans first.queriesBegun
  said := second.said.trans first.said

theorem publish (kin : w.Kin v) (values : Snapshot) :
    w.Kin (v.beginCall (.publish values)).1 := by
  have begun : w.Kin { v with callsMade := v.callsMade + 1 } := { kin with said := kin.said }
  exact begun.right rfl

end World.Kin

/-! ## Exports -/

namespace World

variable {audible : Event → Bool} {related : Surroundings → Surroundings → Prop} {w v : World}

/-- Whoever hears of the exports hears what comes of them. -/
theorem exports_eq (heard : ∀ fault, audible (.call .exportObject fault) = true) (w : World) :
    w.exports = (w.said audible).filterMap fun entry => exporting.read entry.event := by
  rw [exports, Reader.world, said, World.heard, List.filterMap_map, List.filterMap_filter]
  refine List.filterMap_congr fun entry _ => ?_
  obtain ⟨time, event⟩ := entry
  cases event with
  | call c fault =>
    cases c with
    | exportObject => exact (if_pos (heard fault)).symm
    | _ => exact (ite_self _).symm
  | _ => exact (ite_self _).symm

theorem Agree.exports (agree : Agree related audible w v)
    (heard : ∀ fault, audible (.call .exportObject fault) = true) : v.exports = w.exports := by
  rw [v.exports_eq heard, w.exports_eq heard, agree.said]

/-- If all exports have come to what was to be, the next one comes to the same in both worlds. -/
theorem Agree.fault {c : Call} {outcomes : List (Option Fault)}
    (agree : Agree related audible w v)
    (heard : ∀ fault, audible (.call .exportObject fault) = true)
    (first : (w.beginCall c).1.exports <:+ outcomes)
    (second : (v.beginCall c).1.exports <:+ outcomes) (exported : c = .exportObject) :
    (v.beginCall c).2.fault = (w.beginCall c).2.fault := by
  subst exported
  have one : (w.beginCall .exportObject).1.exports =
      (w.beginCall .exportObject).2.fault :: w.exports := exporting.world_beginCall w _
  have other : (v.beginCall .exportObject).1.exports =
      (v.beginCall .exportObject).2.fault :: v.exports := exporting.world_beginCall v _
  rw [one] at first
  rw [other, agree.exports heard] at second
  have same := List.suffix_of_suffix_length_le second first (by simp)
  exact (List.cons.inj (same.eq_of_length (by simp))).1

end World

theorem World.exports_earlier {outcomes : List (Option Fault)} {w v w' v' : World}
    (known : w'.exports <:+ outcomes ∧ v'.exports <:+ outcomes)
    (first : w.journal <:+ w'.journal) (second : v.journal <:+ v'.journal) :
    w.exports <:+ outcomes ∧ v.exports <:+ outcomes :=
  ⟨(first.filterMap _).trans known.1, (second.filterMap _).trans known.2⟩

/-- Whatever the devices do, the worlds stay the same. What comes of the exports is settled. -/
def undisturbed (outcomes : List (Option Fault)) : Concord True where
  worlds := World.Kin
  ahead w v := w.exports <:+ outcomes ∧ v.exports <:+ outcomes
  earlier := @World.exports_earlier outcomes
  now kin := kin.now
  modem kin := kin.surroundings.modem
  record kin _ := kin.record _ _ rfl rfl
  left kin _ := kin.left rfl
  right kin _ := kin.right rfl
  call kin c known :=
    have fault := World.Agree.fault kin (fun _ => rfl) known.1 known.2
    ⟨kin.beginCall c (fun _ _ => by cases c <;> rfl) fault,
      (kin.surroundings.instantToo _ c).trans (kin.surroundings.instant _ c).symm, fault⟩
  authorize kin who := kin.beginAuthorization (fun _ => rfl) kin.surroundings.authorizer who
  query together := absurd trivial together
  answers := Surroundings.Kin
  surround kin same := { kin with surroundings := same }
  pass kin _ := { kin with now := rfl }

/-! ## Answers -/

/-- A mild exchange comes to its end at once, and nobody is told but those who read what is
published. -/
theorem proceed_of_mild {α : Type} {property : α → Prop} {x : Exchange α}
    (mild : x.Mild property) {w v : World} (kin : w.Kin v) :
    ∃ world result, proceed x v = (world, .finished result) ∧ w.Kin world ∧ property result := by
  induction mild generalizing v with
  | done holds => exact ⟨v, _, rfl, kin, holds⟩
  | line line tail ih => exact ih (kin.right rfl)
  | publish values tails ih =>
    have prompt : (v.beginCall (.publish values)).2.delay = 0 := kin.surroundings.instantToo _ _
    simp only [proceed, prompt, if_true]
    exact ih _ (kin.publish values)

theorem Works.symm {first second : Option Work} (works : Works True first second) :
    Works True second first := by
  cases works with
  | none => exact .none
  | some purpose time rests =>
    exact .some purpose time (rests.symm.mono fun _ _ results => results.symm)

namespace Service

variable {outcomes : List (Option Fault)} {s t u : Service} {query : Query}
  {result : Except Fault Snapshot}

theorem Beside.idle {apart : Prop} {R : Concord apart} (beside : s.Beside R t)
    (idle : s.work = none) : t.work = none := by
  have works := beside.works
  rw [idle] at works
  generalize t.work = work at works
  cases works with
  | none => rfl

theorem Beside.symm (beside : s.Beside (undisturbed outcomes) t) :
    t.Beside (undisturbed outcomes) s := by
  obtain ⟨worlds, kin, asked, works⟩ := beside
  exact .mk (s := { s with world := _, interface := _, loads := _, work := _ }) worlds.symm kin.symm
    (.inl trivial) works.symm

theorem Beside.trans (first : s.Beside (undisturbed outcomes) t)
    (second : t.Beside (undisturbed outcomes) u) (idle : s.work = none) :
    s.Beside (undisturbed outcomes) u := by
  have still := second.idle (first.idle idle)
  obtain ⟨worlds, kin, asked, works⟩ := first
  obtain ⟨more, kinToo, askedToo, worksToo⟩ := second
  dsimp only at still
  subst still
  exact .mk (World.Kin.trans worlds more) (kin.trans kinToo) (.inl trivial)
    (by rw [idle]; exact .none)

/-- The service after an answer has been handled: the query is no longer under way, and there is no
difference but in what has to do with the device. -/
structure Handles (outcomes : List (Option Fault)) (s : Service) (query : Query) (t : Service) :
    Prop where
  beside : s.Beside (undisturbed outcomes) t
  inFlight : t.interface.reporting.inFlight = s.interface.reporting.inFlight.erase query
  loads : t.loads = s.loads.filter fun l => l.query ≠ query

theorem handles_concludeLoad (idle : s.work = none) (instant : s.world.surroundings.Instant)
    (query : Query) (result : Except Fault Snapshot) :
    Handles outcomes s query
      ({ s with loads := s.loads.filter fun l => l.query ≠ query }.carryOut
        ⟨.refresh, .loaded query result⟩) := by
  obtain ⟨world, ⟨i, answer⟩, proceeds, kin, changed, inFlight⟩ :=
    proceed_of_mild (s.interface.mild_loaded query result) (World.Kin.refl instant)
  have same : { s with loads := s.loads.filter fun l => l.query ≠ query }.carryOut
      ⟨.refresh, .loaded query result⟩ =
        { s with world, interface := i, loads := s.loads.filter fun l => l.query ≠ query } := by
    simp only [carryOut, Interface.carryOut, perform, proceeds]
    rfl
  rw [same]
  exact ⟨.mk kin changed (.inl trivial) (by rw [idle]; exact .none), inFlight, rfl⟩

theorem take_load_of_arrival (arrival : s.isArrival (.load query) = true) :
    ∃ result, s.take (.load query) =
      { s with loads := s.loads.filter fun l => l.query ≠ query }.carryOut
        ⟨.refresh, .loaded query result⟩ := by
  have asked : (s.loads.find? fun l => l.query = query).isSome := by
    rw [List.find?_isSome]
    exact List.any_eq_true.1 arrival
  obtain ⟨l, found⟩ := Option.isSome_iff_exists.1 asked
  refine ⟨l.arrival.content, ?_⟩
  simp only [Service.take, prepare, found, concludeLoad]

theorem take_load_of_waiting (waiting : s.isArrival (.load query) = false) :
    (∃ result, s.take (.load query) =
      { s with
        world := s.world.beginQuery.1
        loads := s.loads.filter fun l => l.query ≠ query }.carryOut
          ⟨.refresh, .loaded query result⟩) ∨
    ∃ arrival, s.take (.load query) =
      { s with world := s.world.beginQuery.1, loads := s.loads ++ [⟨query, arrival⟩] } := by
  have missing : (s.loads.find? fun l => l.query = query) = none := by
    rw [List.find?_eq_none]
    exact List.any_eq_false.1 waiting
  by_cases prompt : s.world.beginQuery.2.delay = 0
  · refine .inl ⟨s.world.beginQuery.2.result, ?_⟩
    simp only [Service.take, prepare, missing, beginLoad, concludeLoad, prompt, if_true]
  · let response := s.world.beginQuery.2
    refine .inr ⟨⟨s.world.beginQuery.1.now + response.delay, response.result⟩, ?_⟩
    simp only [Service.take, prepare, missing, beginLoad, prompt, if_false]
    rfl

/-- An answer that arrives makes no difference but in what has to do with the device. -/
theorem handles_arrival (outcomes : List (Option Fault)) (idle : s.work = none)
    (instant : s.world.surroundings.Instant) (arrival : s.isArrival (.load query) = true) :
    Handles outcomes s query (s.take (.load query)) := by
  obtain ⟨result, taken⟩ := take_load_of_arrival arrival
  rw [taken]
  exact handles_concludeLoad idle instant query result

/-- The service when the device has been asked, and nothing has come of it yet. -/
def asking (s : Service) : Service := { s with world := s.world.beginQuery.1 }

/-- A query that reaches the device is answered at once, or waits for its answer. -/
theorem asks (outcomes : List (Option Fault)) (idle : s.work = none)
    (instant : s.world.surroundings.Instant) (waiting : s.isArrival (.load query) = false) :
    Handles outcomes s.asking query (s.take (.load query)) ∨
      s.asking.Beside (undisturbed outcomes) (s.take (.load query)) ∧
        (s.take (.load query)).interface = s.interface ∧
        ∃ arrival, (s.take (.load query)).loads = s.loads ++ [⟨query, arrival⟩] := by
  have still : s.asking.world.surroundings.Instant := by
    rw [asking, World.surroundings_beginQuery]
    exact instant
  rcases take_load_of_waiting waiting with ⟨result, taken⟩ | ⟨arrival, taken⟩
  · rw [taken]
    exact .inl (handles_concludeLoad (s := s.asking) idle still query result)
  · rw [taken]
    refine .inr ⟨?_, rfl, arrival, rfl⟩
    exact .mk (s := s.asking) (R := undisturbed outcomes) (.refl still) (.refl True _)
      (.inl trivial) (by rw [asking, idle]; exact .none)

theorem Handles.queries (handles : Handles outcomes s query t) (idle : s.work = none)
    (queries : s.Queries) : t.Queries := by
  have still := handles.beside.idle idle
  have counted : t.interface.reporting.queriesStarted =
      s.interface.reporting.queriesStarted := by
    obtain ⟨-, ⟨-, ⟨-, -⟩⟩, -, -⟩ := handles.beside
    rfl
  refine ⟨queries.numbered.erase handles.inFlight counted, ?_, ?_⟩
  · intro l mem
    rw [handles.loads, List.mem_filter] at mem
    rw [handles.inFlight]
    exact (List.mem_erase_of_ne (of_decide_eq_true mem.2)).2 (queries.asked l mem.1)
  · intro work busy
    cases still.symm.trans busy

/-- What has become of a service when an answer has arrived. -/
theorem Queries.take_arrival (queries : s.Queries) (outcomes : List (Option Fault))
    (idle : s.work = none) (instant : s.world.surroundings.Instant)
    (arrival : s.isArrival (.load query) = true) :
    s.Beside (undisturbed outcomes) (s.take (.load query)) ∧ (s.take (.load query)).Queries ∧
      (s.take (.load query)).unbegun = s.unbegun := by
  have handles := handles_arrival outcomes idle instant arrival
  refine ⟨handles.beside, handles.queries idle queries, ?_⟩
  exact (queries.unbegun_of_answered handles.inFlight handles.loads).trans
    (unbegun_of_arrival arrival)

/-- What has become of a service when a query has reached the device. -/
theorem Queries.take_waiting (queries : s.Queries) (outcomes : List (Option Fault))
    (idle : s.work = none) (instant : s.world.surroundings.Instant) (ready : .load query ∈ s.ready)
    (waiting : s.isArrival (.load query) = false) :
    s.asking.Beside (undisturbed outcomes) (s.take (.load query)) ∧
      (s.take (.load query)).Queries ∧
      (s.take (.load query)).unbegun = s.unbegun.filter fun other => other ≠ query := by
  have asking : s.asking.Queries := ⟨queries.numbered, queries.asked, queries.work⟩
  rcases asks outcomes idle instant waiting with
    handles | ⟨beside, interface, arrival, loads⟩
  · exact ⟨handles.beside, handles.queries idle asking,
      asking.unbegun_of_answered handles.inFlight handles.loads⟩
  · refine ⟨beside, ⟨?_, ?_, ?_⟩, unbegun_of_asked (by rw [interface]) loads⟩
    · rw [interface]
      exact queries.numbered
    · intro l mem
      rw [loads] at mem
      rw [interface]
      rcases List.mem_append.1 mem with old | new
      · exact queries.asked l old
      · rw [List.mem_singleton.1 new]
        exact mem_inFlight_of_mem_ready queries.asked ready
    · intro work busy
      cases (beside.idle idle).symm.trans busy

end Service

end Modem.Session
