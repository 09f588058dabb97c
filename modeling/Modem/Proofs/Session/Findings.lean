import Modem.Proofs.Session.Past
import Modem.Proofs.Session.Queries

/-! # What the device has found

Numbers are given to the queries as they are launched. Each of them reaches the device once. What
the device finds then waits until its answer arrives, or is handled at once, and it is handled as it
has been found. -/

namespace Modem.Session

open Signal

variable {config : Config} {supported : Bool} {stage : Stage}

/-! ## Numbers of queries -/

theorem range_append_range' {first last : Nat} (le : first ≤ last) :
    List.range first ++ List.range' first (last - first) = List.range last := by
  have whole := @List.range'_append_1 0 first (last - first)
  rw [Nat.zero_add, Nat.add_sub_of_le le] at whole
  rw [List.range_eq_range', List.range_eq_range', whole]

/-- The queries whose answers have been handled, the latest first. -/
def handled (deeds : List Deed) : List Query := deeds.filterMap fun d => d.operation.answered?

namespace History

variable {deeds : List Deed} {last : Interface}

/-- Numbers are given to the queries as they are launched, and each query is answered or under
way. -/
theorem numbers (history : History (.fresh config supported) deeds last) :
    ((handled deeds ++ last.reporting.inFlight).map Query.number).Perm
      (List.range last.reporting.queriesStarted) := by
  induction history with
  | nil => exact .refl _
  | @cons earlier d i answer before expected ended ih =>
    have becomes := Deed.becomes ended expected
    cases answered : d.operation.answered? with
    | none =>
      have same : handled (d :: earlier) = handled earlier := by simp [handled, answered]
      rw [answered] at becomes
      have more := becomes.launches.counted
      rw [same, List.map_append, becomes.numbers, ← List.append_assoc, ← List.map_append,
        ← range_append_range' more]
      exact ih.append_right _
    | some query =>
      have more : handled (d :: earlier) = query :: handled earlier := by simp [handled, answered]
      rw [answered] at becomes
      rw [more]
      generalize i.reporting = left at becomes
      cases becomes with
      | received query result pending =>
        rw [Reporting.inFlight_received, Reporting.queriesStarted_received, List.cons_append]
        -- The query that is answered has been under way.
        have moved : (query :: (handled earlier ++ d.found.reporting.inFlight.erase query)).Perm
            (handled earlier ++ d.found.reporting.inFlight) :=
          List.perm_middle.symm.trans ((List.perm_cons_erase pending).symm.append_left _)
        exact (moved.map _).trans ih

/-- Between operations, all queries that have been launched are accounted for. -/
theorem accounted (history : History (.fresh config supported) deeds last) :
    last.reporting.queriesStarted = (handled deeds).length + last.reporting.inFlight.length ∧
      (handled deeds ++ last.reporting.inFlight).Nodup := by
  have numbers := history.numbers
  constructor
  · simpa using numbers.length_eq.symm
  · exact List.Nodup.of_map _ (numbers.nodup_iff.2 List.nodup_range)

end History

/-! ## Findings -/

/-- What the device makes of a query. -/
structure Finding where
  query : Query
  result : Except Fault Snapshot
  deriving DecidableEq

/-- What is on its way. -/
def Load.finding (l : Load) : Finding := ⟨l.query, l.arrival.content⟩

/-- What a deed handles. -/
def Deed.finding? (d : Deed) : Option Finding :=
  match d.operation with
  | .loaded query result => some ⟨query, result⟩
  | _ => none

theorem Deed.answered?_eq (d : Deed) :
    d.operation.answered? = d.finding?.map Finding.query := by
  unfold finding?
  cases d.operation <;> rfl

theorem handled_eq (deeds : List Deed) :
    handled deeds = (deeds.filterMap Deed.finding?).map Finding.query := by
  rw [handled, List.map_filterMap]
  exact List.filterMap_congr fun d _ => d.answered?_eq

namespace Service

variable {s t : Service} {occurrence : Occurrence} {job : Option Job}

/-- What the device makes of a query that reaches it as an occurrence is taken. -/
def finding? (s : Service) : Occurrence → Option Finding
  | .load query =>
    if s.isArrival (.load query) then none else some ⟨query, s.world.beginQuery.2.result⟩
  | _ => none

theorem findings_load {query : Query} (once : (s.loads.map Load.query).Nodup)
    (prepared : s.prepare (.load query) = (t, job)) :
    ((s.finding? (.load query)).toList ++ s.loads.map Load.finding).Perm
      (t.loads.map Load.finding ++ (job.bind fun j => (Deed.begin j t).finding?).toList) := by
  simp only [prepare, beginLoad, concludeLoad] at prepared
  split at prepared
  next l found =>
    obtain rfl : l.query = query := by simpa using List.find?_some found
    have asked := List.mem_of_find?_eq_some found
    have arrival : s.isArrival (.load l.query) = true :=
      List.any_eq_true.2 ⟨l, asked, decide_eq_true rfl⟩
    obtain ⟨rfl, rfl⟩ := Prod.mk.inj prepared
    rw [finding?, if_pos arrival]
    have taken := (perm_cons_filter_ne once asked).map Load.finding
    exact taken.trans (List.perm_append_singleton _ _).symm
  next absent =>
    have arrival : s.isArrival (.load query) = false := by simpa [isArrival] using absent
    have others : (s.loads.filter fun l => l.query ≠ query) = s.loads := by
      simpa using absent
    rw [finding?, arrival]
    split at prepared
    · obtain ⟨rfl, rfl⟩ := Prod.mk.inj prepared
      dsimp only
      rw [others]
      exact (List.perm_append_singleton _ _).symm
    · obtain ⟨rfl, rfl⟩ := Prod.mk.inj prepared
      dsimp only
      rw [List.map_append, List.append_assoc]
      exact (List.perm_append_singleton _ _).symm

/-- What the device finds is on its way or handled. -/
theorem findings_prepare (once : (s.loads.map Load.query).Nodup)
    (prepared : s.prepare occurrence = (t, job)) :
    ((s.finding? occurrence).toList ++ s.loads.map Load.finding).Perm
      (t.loads.map Load.finding ++ (job.bind fun j => (Deed.begin j t).finding?).toList) := by
  by_cases load : ∃ query, occurrence = .load query
  · obtain ⟨query, rfl⟩ := load
    exact findings_load once prepared
  · have other : ∀ query, occurrence ≠ .load query := fun query same => load ⟨query, same⟩
    obtain ⟨loads, unanswering⟩ := prepare_of_other (s := s) other
    rw [prepared] at loads unanswering
    have nothing : s.finding? occurrence = none := by
      cases occurrence with
      | load query => exact absurd rfl (other query)
      | _ => rfl
    have handled : (job.bind fun j => (Deed.begin j t).finding?) = none := by
      cases job with
      | none => rfl
      | some j =>
        have unanswered : j.operation.answered? = none := Option.isNone_iff_eq_none.1 unanswering
        have same := (Deed.begin j t).answered?_eq
        exact Option.map_eq_none_iff.1 (same.symm.trans unanswered)
    rw [nothing, handled, loads]
    simp

end Service

namespace Account

variable {a b : Account}

/-- The device has been asked once for each query. What it has found is on its way or has been
handled. -/
structure Gathered (a : Account) (findings : List Finding) : Prop where
  once : (findings.map Finding.query).Nodup
  places : findings.Perm (a.service.loads.map Load.finding ++ a.deeds.filterMap Deed.finding?)

/-- A query that reaches the device has not done so before. -/
theorem Gathered.unasked {findings : List Finding} {occurrence : Service.Occurrence} {f : Finding}
    (gathered : a.Gathered findings) (reachable : Reachable config supported stage a)
    (ready : occurrence ∈ a.service.ready) (found : a.service.finding? occurrence = some f) :
    f.query ∉ findings.map Finding.query := by
  cases occurrence with
  | load query =>
    simp only [Service.finding?, Option.ite_none_left_eq_some, Option.some.injEq] at found
    obtain ⟨arrival, rfl⟩ := found
    have idle := Service.idle_of_mem_ready ready nofun
    have pending := Service.mem_inFlight_of_mem_ready
      (fun l mem => reachable.tracks.begun l mem _ a.service.holds_interface) ready
    have apart := (List.nodup_append.1 (reachable.history idle).accounted.2).2.2
    rw [handled_eq] at apart
    intro known
    rw [(gathered.places.map Finding.query).mem_iff, List.map_append, List.mem_append] at known
    rcases known with coming | done
    · obtain ⟨_, mem, same⟩ := List.mem_map.1 coming
      obtain ⟨l, asked, rfl⟩ := List.mem_map.1 mem
      exact arrival (List.any_eq_true.2 ⟨l, asked, decide_eq_true same⟩)
    · exact apart _ done _ pending rfl
  | _ => cases found

/-- What is handled is what the device has found. -/
theorem Gathered.mem_of_loaded {findings : List Finding} {d : Deed} {query : Query}
    {result : Except Fault Snapshot} (gathered : a.Gathered findings) (mem : d ∈ a.deeds)
    (loaded : d.operation = .loaded query result) : ⟨query, result⟩ ∈ findings := by
  have found : d.finding? = some ⟨query, result⟩ := by rw [Deed.finding?, loaded]
  rw [gathered.places.mem_iff]
  exact List.mem_append_right _ (List.mem_filterMap.2 ⟨d, mem, found⟩)

theorem Gathered.take {findings : List Finding} {occurrence : Service.Occurrence}
    (gathered : a.Gathered findings) (reachable : Reachable config supported stage a)
    (ready : occurrence ∈ a.service.ready) :
    (a.after (.take occurrence)).Gathered
      ((a.service.finding? occurrence).toList ++ findings) := by
  constructor
  · cases found : a.service.finding? occurrence with
    | none => exact gathered.once
    | some f =>
      exact List.nodup_cons.2 ⟨gathered.unasked reachable ready found, gathered.once⟩
  cases reachable.brings ready with
  | resumed d earlier w resume before deeds sent keeps =>
    subst resume
    have places := gathered.places
    rw [before] at places
    rw [keeps.loads, deeds]
    exact places
  | prepared s job prepared deeds sent keeps =>
    have findings := Service.findings_prepare reachable.nodup_loads prepared
    rw [keeps.loads, deeds, List.filterMap_append, filterMap_begin]
    exact perm_of_moved findings gathered.places

/-- What the device has found, the latest first. -/
def Past.findings (past : Past config supported stage a) : List Finding :=
  past.gather Service.finding?

theorem Past.gathered (past : Past config supported stage a) : a.Gathered past.findings := by
  induction past with
  | start checked surroundings => exact ⟨List.nodup_nil, List.Perm.nil⟩
  | @step a m past allowed ih =>
    cases m with
    | send caller request =>
      refine ⟨ih.once, ?_⟩
      exact ih.places.trans (by rw [← Service.loads_send a.service caller request]; rfl)
    | take occurrence => exact ih.take past.reachable allowed
    | _ => exact ⟨ih.once, ih.places⟩

end Account

end Modem.Session
