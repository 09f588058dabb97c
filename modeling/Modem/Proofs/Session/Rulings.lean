import Modem.Proofs.Session.Exports
import Modem.Proofs.Session.Mirror
import Modem.Proofs.Session.Numbers
import Modem.Proofs.Session.Timely

/-! # What comes of Setup requests

Refreshes touch neither the rate nor the export nor the identity of the timer. So a Setup request
beside which there are only refreshes settles the rate if it is granted, and leaves nothing behind
if it is refused. -/

namespace Modem.Signal

/-- What refreshes leave as it is. -/
structure Interface.Steady (i j : Interface) : Prop where
  lifecycle : j.lifecycle = i.lifecycle
  exported : j.exported = i.exported
  rate : j.status.rate = i.status.rate
  timer : j.status.timer.map Timer.identity = i.status.timer.map Timer.identity

theorem Interface.Steady.refl (i : Interface) : i.Steady i := ⟨rfl, rfl, rfl, rfl⟩

theorem Interface.Steady.trans {i j k : Interface} (first : i.Steady j) (second : j.Steady k) :
    i.Steady k where
  lifecycle := second.lifecycle.trans first.lifecycle
  exported := second.exported.trans first.exported
  rate := second.rate.trans first.rate
  timer := second.timer.trans first.timer

/-- The operation is neither asked for by anybody nor the end of an authorization. -/
def Operation.isRefresh : Operation → Bool
  | .tick | .loaded _ _ => true
  | .serve _ | .conclude _ _ => false

section

variable {i : Interface} {turns : List Turn} {operation : Operation}

theorem Effect.steady {result : Interface × Answer} (effect : Effect i turns operation result)
    (refresh : operation.isRefresh = true) : i.Steady result.1 := by
  have stored := effect.rate
  cases effect with
  | tick now =>
    have rate : (i.tick now).reporting.rate = i.reporting.rate := by
      simpa [Interface.storedBy, Operation.granted?] using stored
    refine ⟨rfl, rfl, rate, ?_⟩
    change (i.reporting.tick now).timer.map _ = i.reporting.timer.map _
    rw [Reporting.timer_tick, Option.map_map]
    rfl
  | loaded query result =>
    refine ⟨rfl, rfl, Reporting.rate_received i.reporting query result, ?_⟩
    change (i.reporting.received query result).timer.map _ = i.reporting.timer.map _
    rw [Reporting.timer_received]
  | _ => cases refresh

/-- A refresh makes no call but to show something. -/
theorem Interface.shown_of_refresh (refresh : operation.isRefresh = true) {c : Call}
    (mem : c ∈ i.callsOf turns operation) : ∃ values, c = .publish values := by
  cases operation with
  | serve request => cases refresh
  | conclude rate refusal => cases refresh
  | tick => cases mem
  | loaded query result =>
    simp only [callsOf, Reporting.showing] at mem
    split at mem
    · split at mem
      · exact ⟨_, List.mem_singleton.1 mem⟩
      · cases mem
    · cases mem

/-- The end of an authorization leaves the export as it is. -/
theorem Effect.exported_of_conclude {rate : UInt32} {refusal : Option Fault}
    {result : Interface × Answer} (effect : Effect i turns (.conclude rate refusal) result) :
    result.1.exported = i.exported := by
  cases effect with
  | reject => rfl
  | grant =>
    unfold Interface.setUp
    split <;> rfl

/-- A request that is granted is answered well, and its rate is stored. -/
theorem Effect.of_granted {rate : UInt32} {result : Interface × Answer}
    (effect : Effect i turns (.conclude rate none) result)
    (attached : i.reporting.attached = true) :
    result.2 = .ok () ∧ result.1.status.rate = rate := by
  have ok : result.2 = .ok () := by
    cases effect with
    | grant => simp [Interface.setUp, attached]
  have stored : result.1.status.rate =
      (i.storedBy turns (.conclude rate none)).getD i.status.rate :=
    effect.rate
  rw [effect.stored_of_ok ok (.inr ⟨none, rfl⟩)] at stored
  exact ⟨ok, stored⟩

theorem Effect.eq_of_conclude_refused {rate : UInt32} {fault : Fault} {result : Interface × Answer}
    (effect : Effect i turns (.conclude rate (some fault)) result) :
    result = (i, .error fault) := by
  cases effect with
  | reject => rfl

end

end Modem.Signal

namespace Modem.Session

open Signal

theorem Owed.isRefresh {sent : List Queued} {operation : Operation}
    (owed : Owed sent .refresh operation) : operation.isRefresh = true := by
  cases owed with
  | tick => rfl
  | loaded query result => rfl

theorem Deed.shown_of_refresh {d : Deed} (refresh : d.operation.isRefresh = true) {c : Call}
    (mem : c ∈ d.calls) : ∃ values, c = .publish values :=
  Interface.shown_of_refresh refresh (d.calls_begin_callsOf.subset (List.mem_reverse.1 mem))

theorem History.steady {start last : Interface} {deeds : List Deed}
    (history : History start deeds last) (refreshes : ∀ d ∈ deeds, d.operation.isRefresh = true) :
    start.Steady last := by
  induction history with
  | nil => exact .refl _
  | cons before expected ended ih =>
    obtain ⟨refresh, earlier⟩ := List.forall_mem_cons.1 refreshes
    exact (ih earlier).trans ((Deed.effect ended).1.steady refresh)

namespace Account

variable {config : Config} {supported : Bool} {stage : Stage} {o a b : Account}

theorem Reachable.isRefresh (reachable : Reachable config supported stage a) {d : Deed}
    (mem : d ∈ a.deeds) (purpose : d.purpose = .refresh) : d.operation.isRefresh = true := by
  have owed := reachable.requested.owed d mem
  rw [purpose] at owed
  exact owed.isRefresh

/-! ## What the object has been told -/

/-- The calls made so far are those of the deeds that have ended, but for what a refresh under way
shows. -/
theorem Reachable.calls_of_refreshes (reachable : Reachable config supported stage a)
    (refreshes : a.service.Refreshes) :
    ∃ more, a.service.world.calls = more ++ a.ended.flatMap Deed.calls ∧
      ∀ c ∈ more, ∃ values, c = .publish values := by
  have calls : a.service.world.calls = a.deeds.flatMap Deed.calls := reachable.tracks.calls
  cases busy : a.service.work with
  | none => exact ⟨[], by rw [ended_of_idle busy]; exact calls, by simp⟩
  | some work =>
    have leading := reachable.tracks.leading
    rw [busy] at leading
    rcases began : a.deeds with _ | ⟨d, earlier⟩
    · rw [began] at leading
      cases leading
    · rw [began] at leading
      have purpose : d.purpose = .refresh := by
        have refresh := (refreshes work busy).1
        cases leading with
        | busy => exact refresh
      have refresh := reachable.isRefresh (d := d) (by simp [began]) purpose
      refine ⟨d.calls, ?_, fun c => Deed.shown_of_refresh refresh⟩
      rw [calls, ended_of_busy busy, began, List.flatMap_cons, List.tail_cons]

/-- The object has been told the stored rate and to be exported, and has never been taken off. -/
theorem Reachable.told_of_exported (reachable : Reachable config supported stage a)
    (refreshes : a.service.Refreshes) (exported : a.service.interface.exported = true) :
    a.service.world.calls.findSome? Call.rate? = some a.service.interface.status.rate ∧
      a.service.world.calls.findSome? Call.exports? = some true ∧
      .unexportObject ∉ a.service.world.calls := by
  obtain ⟨more, calls, shown⟩ := reachable.calls_of_refreshes refreshes
  have told := reachable.ended.told
  obtain ⟨created, exports⟩ := told.exported exported
  have unrated : more.findSome? Call.rate? = none := by
    rw [List.findSome?_eq_none_iff]
    intro c mem
    obtain ⟨values, rfl⟩ := shown c mem
    rfl
  have unexported : more.findSome? Call.exports? = none := by
    rw [List.findSome?_eq_none_iff]
    intro c mem
    obtain ⟨values, rfl⟩ := shown c mem
    rfl
  refine ⟨?_, ?_, ?_⟩
  · rw [calls, List.findSome?_append, unrated, Option.none_or, told.rate created]
  · rw [calls, List.findSome?_append, unexported, Option.none_or, exports]
  · rw [calls, List.mem_append, List.mem_flatMap]
    rintro (mem | ⟨d, ended, mem⟩)
    · obtain ⟨values, other⟩ := shown _ mem
      cases other
    · have unshut := (reachable.ended.exported_iff.1 exported).2 d ended
      have withdrawn := List.count_pos_iff.2 (List.mem_reverse.1 mem)
      have once := d.count_unexportObject_le
      have unexports : d.found.unexportsBy d.operation = true := by
        cases other : d.found.unexportsBy d.operation with
        | true => rfl
        | false =>
          rw [other, Bool.toNat_false] at once
          omega
      exact unshut (Interface.unexportsBy_iff.1 unexports).1

/-! ## What has come of a request -/

/-- A request has been refused between refreshes: what has been done for it leaves the interface as
it has found it and calls nothing. -/
structure Rejected (a b : Account) (caller : Nat) (fault : Fault) (earlier later : List Deed) :
    Prop where
  run : Run a b
  first : ∀ e ∈ earlier, e.purpose = .refresh
  last : ∀ e ∈ later, e.purpose = .refresh
  ended : ∃ d : Deed, b.ended = later ++ d :: (earlier ++ a.ended) ∧ d.purpose = .answer caller ∧
    d.rest = .done (d.found, .error fault) ∧ d.calls = []

/-- Without refreshes besides, a refused request has changed nothing, and has called nothing. -/
theorem Rejected.unchanged {caller : Nat} {fault : Fault}
    (rejected : Rejected a b caller fault [] []) (reachable : Reachable config supported stage a) :
    b.service.interface = a.service.interface ∧
      (a.service.work = none → b.service.work = none →
        b.service.world.calls = a.service.world.calls) := by
  obtain ⟨run, -, -, d, ended, -, done, silent⟩ := rejected
  constructor
  · have history : History a.service.interface ([] ++ d :: []) b.service.interface :=
      run.history_ended reachable.tracks ended
    obtain ⟨left, answer, before, -, done', after⟩ := history.at_deed
    obtain ⟨rfl, -⟩ := Prod.mk.inj (Exchange.done.inj (done'.symm.trans done))
    exact (after.unique .nil).trans (before.unique .nil)
  · intro before after
    have first : a.service.world.calls = a.deeds.flatMap Deed.calls := reachable.tracks.calls
    have last : b.service.world.calls = b.deeds.flatMap Deed.calls :=
      (reachable.run run).tracks.calls
    rw [ended_of_idle before, ended_of_idle after] at ended
    rw [last, first, ended]
    simp [silent]

/-- What has come of a request, and its answer: if it is granted, its rate is stored; if it is
refused, it is told why. -/
inductive Ruled (a b : Account) (caller : Nat) (rate : UInt32) : Option Fault → Option Answer → Prop
  | granted (stored : b.service.interface.status.rate = rate) :
      Ruled a b caller rate none (some (.ok ()))
  | refused {fault : Fault} {earlier later : List Deed}
      (steady : a.service.interface.Steady b.service.interface)
      (rejected : Rejected a b caller fault earlier later) :
      Ruled a b caller rate (some fault) (some (.error fault))

theorem Ruled.answered {caller : Nat} {rate : UInt32} {refusal : Option Fault}
    {told : Option Answer} (ruled : Ruled a b caller rate refusal told) :
    ∃ answer, told = some answer := by
  cases ruled with
  | granted _ => exact ⟨_, rfl⟩
  | refused _ _ => exact ⟨_, rfl⟩

/-- The request is ruled on, and the object stays exported. -/
theorem Handled.ruled {caller : Nat} {rate : UInt32} {refusal : Option Fault}
    (handled : Handled o a caller rate refusal) (reachable : Reachable config supported stage o)
    (exported : o.service.interface.exported = true) :
    a.service.interface.exported = true ∧
      Ruled o a caller rate refusal (a.service.answerTo? caller) := by
  obtain ⟨run, -, d, earlier, later, left, answer, first, last, ended, purpose, operation, done,
    told⟩ := handled
  have after := reachable.run run
  have grown : a.ended = (later ++ d :: earlier) ++ o.ended := by rw [ended]; simp
  have begun {e : Deed} (mem : e ∈ later ++ d :: earlier) : e ∈ a.deeds := by
    refine mem_deeds_of_ended ?_
    rw [grown]
    exact List.mem_append_left _ mem
  -- The refreshes before it let the request find the object exported, and those after it keep what
  -- it leaves.
  have history := run.history_ended reachable.tracks grown
  obtain ⟨left', answer', before, -, done', onward⟩ := history.at_deed
  obtain ⟨rfl, rfl⟩ := Prod.mk.inj (Exchange.done.inj (done.symm.trans done'))
  have steady := before.steady fun e mem =>
    after.isRefresh (begun (by simp [mem])) (first e mem)
  have stays := onward.steady fun e mem => after.isRefresh (begun (by simp [mem])) (last e mem)
  have effect := (Deed.effect done).1
  rw [operation] at effect
  have found : d.found.exported = true := steady.exported.trans exported
  have kept : left.exported = d.found.exported := effect.exported_of_conclude
  refine ⟨stays.exported.trans (kept.trans found), ?_⟩
  cases refusal with
  | none =>
    have whole := after.ended
    rw [ended] at whole
    obtain ⟨-, -, start, -⟩ := whole.at_deed
    obtain ⟨ok, stored⟩ : answer = .ok () ∧ left.status.rate = rate :=
      effect.of_granted (start.attached_of_exported found)
    rw [told, ok]
    exact .granted (stays.rate.trans stored)
  | some fault =>
    obtain ⟨rfl, rfl⟩ := Prod.mk.inj effect.eq_of_conclude_refused
    have silent : d.calls = [] := by
      rw [Deed.calls_of_ended done, operation]
      rfl
    rw [told]
    exact .refused (steady.trans stays) ⟨run, first, last, d, ended, purpose, done, silent⟩

theorem Since.steady (since : Since o a) (reachable : Reachable config supported stage o) :
    o.service.interface.Steady a.service.interface := by
  obtain ⟨later, refreshes, ended⟩ := since.ended
  refine (since.run.history_ended reachable.tracks ended).steady fun d mem => ?_
  have begun : d ∈ a.ended := ended ▸ List.mem_append_left _ mem
  exact (reachable.run since.run).isRefresh (mem_deeds_of_ended begun) (refreshes d mem)

end Account

end Modem.Session
