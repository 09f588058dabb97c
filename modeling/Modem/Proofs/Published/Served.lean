import Modem.Proofs.Session.Journal
import Modem.Proofs.Session.Mirror
import Modem.Published.Station

/-! # What subscribers see

The served object holds what it was told last. As it is told whatever the interface holds, whoever
reads a property while the interface has the object exported reads the state of the interface. -/

namespace Modem.Published

open Bus (Value)
open Session
open Signal

/-! ## The served object -/

namespace Served

theorem applyAll_concat (s : Served) (calls : List Call) (c : Call) :
    (s.applyAll (calls ++ [c])).1 = ((s.applyAll calls).1.apply c).1 := by
  rw [applyAll_append]
  rfl

variable (s : Served) (calls : List Call)

/-- The rate is the one set last. The calls are given with the latest first. -/
theorem rate_applyAll :
    (s.applyAll calls.reverse).1.rate = (calls.findSome? Call.rate?).getD s.rate := by
  induction calls with
  | nil => rfl
  | cons c calls ih =>
    rw [List.reverse_cons, applyAll_concat, List.findSome?_cons]
    cases c with
    | setRate rate => rfl
    | _ => exact ih

theorem shown_applyAll :
    (s.applyAll calls.reverse).1.shown = (calls.findSome? Call.shown?).getD s.shown := by
  induction calls with
  | nil => rfl
  | cons c calls ih =>
    rw [List.reverse_cons, applyAll_concat, List.findSome?_cons]
    cases c with
    | publish values => rfl
    | _ => exact ih

theorem exported_applyAll :
    (s.applyAll calls.reverse).1.exported = (calls.findSome? Call.exports?).getD s.exported := by
  induction calls with
  | nil => rfl
  | cons c calls ih =>
    rw [List.reverse_cons, applyAll_concat, List.findSome?_cons]
    cases c with
    | exportObject => rfl
    | unexportObject => rfl
    | _ => exact ih

end Served

/-- The value of a property by the status of the interface. -/
def Property.ofStatus (status : Status) : Property → Value
  | rate => ofRate status.rate
  | reading m => ofReading (status.shown.reading m)

/-- The object is served, and each property says what the status says. -/
structure Served.Mirrors (s : Served) (i : Interface) : Prop where
  exported : s.exported = true
  property : ∀ p, s.get p = p.ofStatus i.status

/-- An object that starts with nothing shown mirrors the interface while that has it exported. -/
theorem Served.mirrors_of_told {s : Served} (blank : s.shown = .empty) {created : Bool}
    {calls : List Call} {i : Interface} (told : Told created calls i)
    (exported : i.exported = true) : (s.applyAll calls.reverse).1.Mirrors i := by
  obtain ⟨existing, exports⟩ := told.exported exported
  have rate : (s.applyAll calls.reverse).1.rate = i.status.rate := by
    rw [rate_applyAll, told.rate existing]
    rfl
  have shown : (s.applyAll calls.reverse).1.shown = i.status.shown := by
    rw [shown_applyAll, blank, told.shown]
  constructor
  · rw [exported_applyAll, exports]
    rfl
  · intro p
    cases p with
    | rate => rw [get, rate, Property.ofStatus]
    | reading m => rw [get, shown, Property.ofStatus]

/-! ## Stations -/

namespace Station

/-- A station after some steps. -/
def afterAll (s : Station) (steps : List Step) : Station :=
  steps.foldl (fun s step => (s.step step).1) s

/-- The service of the station has stopped, or it is one that a run leads to, and the object is what
all the calls of the run have made of it. -/
inductive Serves (config : Config) (supported : Bool) (stage : Stage) (blank : Served)
    (s : Station) : Prop
  | running (a : Account) (reachable : Account.Reachable config supported stage a)
      (follows : a.Follows s.session)
      (served : s.served = (blank.applyAll s.session.service.world.calls.reverse).1)
  | stopped (stopped : s.session.service.stage = .stopped)

variable {config : Config} {supported : Bool} {stage : Stage} {blank : Served} {s : Station}

/-- The object absorbs the calls that a step adds to those of the session. -/
theorem calls_step {s : Session} {step : Step}
    (grown : s.service.world.journal <:+ (s.step step).1.service.world.journal) :
    (s.step step).1.service.world.calls.reverse =
      s.service.world.calls.reverse ++ (s.step step).2.entries.filterMap callOf? := by
  obtain ⟨added, grown⟩ := grown
  rw [entries_step grown.symm, World.calls, World.calls, ← grown, List.filterMap_append,
    List.reverse_append, List.filterMap_reverse]
  rfl

/-- Taking the object off the root stops the service unless there is none. -/
theorem Serves.fall (serves : s.Serves config supported stage blank) (answer : Option Answer) :
    (s.fall answer).1.Serves config supported stage blank := by
  cases serves with
  | running a reachable follows served =>
    by_cases direct : s.session.service.stage = .direct
    · have same := Service.abort_of_direct direct
      refine .running a reachable ⟨follows.1.trans same.symm, follows.2⟩ ?_
      change s.served = (blank.applyAll s.session.service.abort.world.calls.reverse).1
      rw [same, served]
    · exact .stopped (Service.stopped_abort direct)
  | stopped stopped => exact .stopped (Service.stopped_abort (by simp [stopped]))

theorem Serves.step (serves : s.Serves config supported stage blank) (step : Step) :
    (s.step step).1.Serves config supported stage blank := by
  have absorbed : ({ s with session := (s.session.step step).1 }.absorb
      ((s.session.step step).2.entries.filterMap callOf?)).1.Serves config supported stage
        blank := by
    cases serves with
    | running a reachable follows served =>
      rcases follows.step_or_stopped step with ⟨b, run, there⟩ | stopped
      · refine .running b (reachable.run run) there ?_
        have grown := run.journal
        rw [follows.1, there.1] at grown
        rw [absorb]
        dsimp only
        rw [calls_step grown, Served.applyAll_append, served]
      · exact .stopped stopped
    | stopped stopped => exact .stopped (stopped_step stopped step)
  unfold Station.step
  dsimp only
  split
  · exact absorbed.fall _
  · exact absorbed

theorem Serves.afterAll (serves : s.Serves config supported stage blank) (steps : List Step) :
    (s.afterAll steps).Serves config supported stage blank := by
  induction steps generalizing s with
  | nil => exact serves
  | cons step rest ih => exact ih (serves.step step)

/-- A property of the object is read where the object is. -/
theorem get_of_mirrors {i : Interface} (mirrors : s.served.Mirrors i) (p : Property) :
    s.get s.path Bus.Name.signalInterface p.name = .ok (p.ofStatus i.status) := by
  simp [get, refusal?, node, mirrors.exported, Property.named?_name, mirrors.property p]

end Station

/-- Between operations, the object has been told what the interface holds, whichever calls have
failed. As long as the interface has it exported, whoever reads a property reads the status, in
whatever way a station has come there. -/
theorem subscribers_see_status (config : Config) (supported : Bool) :
    (∀ deeds i, History (.fresh config supported) deeds i →
      Told (deeds.any Deed.creates) (deeds.flatMap Deed.calls) i) ∧
    (∀ stage a, Account.Reachable config supported stage a → a.service.work = none →
      Told a.service.world.created a.service.world.calls a.service.interface ∧
        (a.service.interface.exported = true →
          (({} : Served).applyAll a.service.world.calls.reverse).1.Mirrors a.service.interface)) ∧
    ∀ (stage : Stage) (surroundings : Surroundings) (station : Station) (steps : List Step),
      Service.start config supported stage surroundings = .ok station.session.service →
      station.served.shown = .empty →
      let now := station.afterAll steps
      now.session.service.stage ≠ .stopped → now.session.service.work = none →
      now.session.service.interface.exported = true →
      ∀ p : Property, now.get now.path Bus.Name.signalInterface p.name =
        .ok (p.ofStatus now.session.service.interface.status) := by
  refine ⟨fun deeds i history => history.told, ?_, ?_⟩
  · intro stage a reachable idle
    have told := reachable.told idle
    exact ⟨told, Served.mirrors_of_told rfl told⟩
  · intro stage surroundings station steps started blank now running idle exported p
    have silent : station.session.service.world.calls = [] := by
      rw [Account.service_of_start started]
      rfl
    have start : station.Serves config supported stage station.served :=
      .running { service := station.session.service } ⟨surroundings, _, started, .refl⟩
        ⟨rfl, by simp⟩ (by rw [silent]; rfl)
    apply Station.get_of_mirrors
    cases start.afterAll steps with
    | running a reachable follows served =>
      have told := reachable.told (by rw [follows.1]; exact idle)
      rw [follows.1] at told
      rw [served]
      exact Served.mirrors_of_told blank told exported
    | stopped stopped => exact absurd stopped running

/-- The bus refuses every rate and every snapshot. -/
def refusing : Surroundings :=
  { obliging .enabled { gsm := some ⟨⟨0xC04F800000000000⟩⟩ } with
    bus := fun _ c =>
      match c with
      | .setRate _ | .publish _ => { fault := some (.failed "refused") }
      | _ => {} }

/-- A station whose bus refuses every rate and every snapshot. -/
def refused : Station where
  path := "/modem"
  session := { service := (Account.fresh {} true .serving refusing).service }

/-- The interface is brought up and enabled, a rate is set, and the first answer of the device is
waited for. -/
def refusedSteps : List Step :=
  [.request .bringUp, .request .enable, .request (.setup 5 ⟨":1.5"⟩), .sleep 100]

/-- Although each call has failed, the rate and the reading are served. -/
theorem served_by_refusing_bus :
    let now := refused.afterAll refusedSteps
    now.get "/modem" Bus.Name.signalInterface "Rate" = .ok (ofRate 5) ∧
      now.get "/modem" Bus.Name.signalInterface "GsmRssi" =
        .ok (ofReading ⟨true, ⟨0xC04F800000000000⟩⟩) := by
  intro now
  have idle : now.session.service.work = none :=
    Option.isNone_iff_eq_none.1 (by decide +kernel)
  have seen := (subscribers_see_status {} true).2.2 .serving refusing refused refusedSteps rfl rfl
    (by decide +kernel) idle (by decide +kernel)
  have rate : Property.rate.ofStatus now.session.service.interface.status = ofRate 5 := by
    decide +kernel
  have reading : (Property.reading .gsmRssi).ofStatus now.session.service.interface.status =
      ofReading ⟨true, ⟨0xC04F800000000000⟩⟩ := by
    decide +kernel
  have path : now.path = "/modem" := by decide +kernel
  rw [← path]
  exact ⟨(seen .rate).trans (congrArg Except.ok rate),
    (seen (.reading .gsmRssi)).trans (congrArg Except.ok reading)⟩

end Modem.Published
