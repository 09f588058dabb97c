import Modem.Proofs.Published.Client
import Modem.Proofs.Session.Callers
import Modem.Proofs.Session.Unasked

/-! # Setup calls of clients

Clients call Setup on an object that is exported, one call after the other, while time passes and
the surroundings change in between. Each call succeeds exactly if the authorizer grants it, and the
rate that a client reads is the one granted last. A call that is refused is told why, and changes
nothing. -/

namespace Modem

open Bus (StandardError)

/-- Under which error, and with which text, a fault is told on the bus. -/
inductive Fault.ToldAs : Fault → StandardError → String → Prop
  | unauthorized (message : String) : ToldAs (.unauthorized message) .accessDenied message
  | unsupported (message : String) : ToldAs (.unsupported message) .notSupported message
  | invalidArgument (message : String) : ToldAs (.invalidArgument message) .invalidArgs message
  | value (source : ValueFault) : ToldAs (.value source) .invalidArgs source.text
  | failed (message : String) : ToldAs (.failed message) .failed message
  | bus (source : BusFault) : ToldAs (.bus source) .failed source.text
  | operation (context : String) (source : BusFault) :
      ToldAs (.operation context source) .failed (context ++ ": " ++ source.text)

theorem Fault.toldAs_toReply (fault : Fault) :
    ∃ error text, fault.ToldAs error text ∧ fault.toReply = .standard error text := by
  cases fault with
  | bus source => exact ⟨_, _, .bus source, rfl⟩
  | operation context source => exact ⟨_, _, .operation context source, rfl⟩
  | value source => exact ⟨_, _, .value source, rfl⟩
  | unsupported message => exact ⟨_, _, .unsupported message, rfl⟩
  | unauthorized message => exact ⟨_, _, .unauthorized message, rfl⟩
  | failed message => exact ⟨_, _, .failed message, rfl⟩
  | invalidArgument message => exact ⟨_, _, .invalidArgument message, rfl⟩

end Modem

namespace Modem.Published

open Session Signal

/-! ## Calls -/

/-- The rate that a call asks for, and why the authorizer refuses it, if it does. -/
structure Ruling where
  rate : UInt32
  refusal : Option Fault

/-- The rate of a call that is granted. -/
def Ruling.granted? (r : Ruling) : Option UInt32 :=
  match r.refusal with
  | none => some r.rate
  | some _ => none

theorem Ruling.granted?_of_granted {r : Ruling} (granted : r.refusal = none) :
    r.granted? = some r.rate := by
  rw [granted?, granted]

theorem Ruling.granted?_of_refused {r : Ruling} {fault : Fault} (refused : r.refusal = some fault) :
    r.granted? = none := by
  rw [granted?, refused]

namespace Client

variable {σ : Type} {peer : Peer σ} {s : σ} {path : String}

theorem rate_of_get (valid : Bus.ObjectPath.valid path = true) {rate : UInt32}
    (got : peer.get s path Bus.Name.signalInterface Property.rate.name = .ok (ofRate rate)) :
    Client.rate peer s path = .ok rate := by
  rw [Client.rate, read, checkPath, if_pos valid, got]
  simp only [toRate_ofRate]
  rfl

/-- Why a Setup call fails that is refused. -/
def setupFault (path : String) (rate : UInt32) (reply : Bus.ErrorReply) : ClientFault :=
  .operation ("failed to set signal refresh rate " ++ toString rate.toNat ++ " on " ++ path)
    (.refused reply)

end Client

namespace Station

variable {s start : Station}

theorem rate_of_exported (exported : s.served.exported = true)
    (valid : Bus.ObjectPath.valid s.path = true) (sender : Option Requester) :
    Client.rate (peer sender) s s.path = .ok s.served.rate :=
  Client.rate_of_get valid (get_of_exported exported .rate)

/-- A client with a name on the bus calls Setup on the object. -/
def called (s : Station) (rate : UInt32) (who : Requester) : Station × Except ClientFault Unit :=
  Client.setup (peer (some who)) s s.path rate

/-- What the authorizer makes of a call. -/
def ruling (s : Station) (rate : UInt32) (who : Requester) : Ruling :=
  ⟨rate, (s.session.service.world.verdict who).refusal⟩

/-- A call on the exported object is answered as the session answers the request. -/
theorem called_of_answer (exported : s.served.exported = true)
    (valid : Bus.ObjectPath.valid s.path = true) {rate : UInt32} {who : Requester} {answer : Answer}
    (answered : (s.step (.request (.setup rate who))).2.1 = some answer) :
    s.called rate who = ((s.step (.request (.setup rate who))).1,
      answer.mapError fun fault => Client.setupFault s.path rate fault.toReply) := by
  have unrefused : s.refusal? s.path Bus.Name.signalInterface = none := by
    simp [refusal?, node, exported]
  have set : s.setup s.path rate (some who) = ((s.step (.request (.setup rate who))).1,
      answer.mapError Fault.toReply, (s.step (.request (.setup rate who))).2.2) := by
    unfold setup
    simp only [unrefused, answered]
    cases answer with
    | ok u => rfl
    | error fault => rfl
  rw [called, Client.setup, Client.checkPath, if_pos valid, peer]
  dsimp only
  rw [set]
  cases answer with
  | ok u => rfl
  | error fault => rfl

/-! ## Steps -/

theorem path_step (s : Station) (step : Step) : (s.step step).1.path = s.path := by
  unfold Station.step
  dsimp only
  split <;> rfl

/-- Away from the root, the session does not notice what becomes of the object. -/
theorem session_step (elsewhere : s.path ≠ "/") (step : Step) :
    (s.step step).1.session = (s.session.step step).1 := by
  unfold Station.step
  dsimp only
  split
  next atRoot => exact absurd (of_decide_eq_true (Bool.and_eq_true_iff.1 atRoot).1) elsewhere
  next => rfl

theorem path_afterAll (s : Station) (steps : List Step) : (s.afterAll steps).path = s.path := by
  induction steps generalizing s with
  | nil => rfl
  | cons step rest ih => exact (ih _).trans (s.path_step step)

/-- A service that has just started has not called its object yet. -/
theorem serves_of_start {config : Config} {supported : Bool} {stage : Stage}
    {surroundings : Surroundings}
    (started : Service.start config supported stage surroundings = .ok s.session.service) :
    s.Serves config supported stage s.served := by
  have silent : s.session.service.world.calls = [] := by
    rw [Account.service_of_start started]
    rfl
  exact .running { service := s.session.service } ⟨surroundings, _, started, .refl⟩
    ⟨rfl, by simp⟩ (by rw [silent]; rfl)

/-! ## The object between calls -/

section

variable {config : Config} {stage : Stage} {blank : Served} {a b : Account}

/-- The station exports its object, and its session is that of a run that rests. -/
structure Open (config : Config) (stage : Stage) (blank : Served) (s : Station) (a : Account) :
    Prop where
  reachable : Account.Reachable config true stage a
  follows : a.Follows s.session
  available : s.session.service.Available
  exported : s.session.service.interface.exported = true
  served : s.served = (blank.applyAll s.session.service.world.calls.reverse).1

theorem Open.told (isOpen : s.Open config stage blank a) :
    s.session.service.world.calls.findSome? Call.rate? =
        some s.session.service.interface.status.rate ∧
      s.session.service.world.calls.findSome? Call.exports? = some true ∧
        .unexportObject ∉ s.session.service.world.calls := by
  have same := isOpen.follows.1
  rw [← same]
  exact isOpen.reachable.told_of_exported (same ▸ isOpen.available.rests.refreshes)
    (same ▸ isOpen.exported)

theorem Open.rate (isOpen : s.Open config stage blank a) :
    s.served.rate = s.session.service.interface.status.rate := by
  rw [isOpen.served, Served.rate_applyAll, isOpen.told.1]
  rfl

theorem Open.serves (isOpen : s.Open config stage blank a) : s.served.exported = true := by
  rw [isOpen.served, Served.exported_applyAll, isOpen.told.2.1]
  rfl

/-- A step of the session that leaves it at rest and exporting leaves the station open. -/
theorem Open.goes (isOpen : s.Open config stage blank a) {step : Step} (run : Account.Run a b)
    (follows : b.Follows (s.session.step step).1)
    (available : (s.session.step step).1.service.Available)
    (exported : (s.session.step step).1.service.interface.exported = true) :
    (s.step step).1.Open config stage blank b ∧ (s.step step).2.1 = (s.session.step step).2.answer ∧
      (s.step step).1.session = (s.session.step step).1 := by
  have reachable := isOpen.reachable.run run
  have grown := run.journal
  rw [isOpen.follows.1, follows.1] at grown
  have calls := calls_step grown
  -- What is exported has never been taken off, so the service does not fall even at the root.
  have kept : .unexportObject ∉ (s.session.step step).1.service.world.calls := by
    have told := reachable.told_of_exported (follows.1 ▸ available.rests.refreshes)
      (follows.1 ▸ exported)
    rw [← follows.1]
    exact told.2.2
  have stays : ((s.session.step step).2.entries.filterMap callOf?).contains .unexportObject =
      false := by
    rw [List.contains_eq_mem, decide_eq_false_iff_not]
    intro mem
    rw [← List.mem_reverse, calls] at kept
    exact kept (List.mem_append_right _ mem)
  have there : s.step step =
      (({ s with session := (s.session.step step).1 }.absorb
          ((s.session.step step).2.entries.filterMap callOf?)).1,
        (s.session.step step).2.answer,
        ({ s with session := (s.session.step step).1 }.absorb
          ((s.session.step step).2.entries.filterMap callOf?)).2) := by
    unfold Station.step
    dsimp only
    rw [stays, Bool.and_false]
    rfl
  rw [there]
  refine ⟨⟨reachable, follows, available, exported, ?_⟩, rfl, rfl⟩
  change (s.served.applyAll _).1 = _
  rw [isOpen.served]
  change _ = (blank.applyAll (s.session.step step).1.service.world.calls.reverse).1
  rw [calls, Served.applyAll_append]

/-- A call at an open station is ruled on, and the client gets the answer. -/
theorem Open.calls (isOpen : s.Open config stage blank a)
    (valid : Bus.ObjectPath.valid s.path = true) (rate : UInt32) (who : Requester) :
    ∃ b answer, (s.called rate who).1.Open config stage blank b ∧
      (s.called rate who).1.path = s.path ∧
      Account.Ruled a b s.session.callers rate (s.ruling rate who).refusal (some answer) ∧
      (s.called rate who).2 =
        answer.mapError fun fault => Client.setupFault s.path rate fault.toReply := by
  obtain ⟨b, run, follows, available, exported, ruled⟩ :=
    isOpen.follows.asks isOpen.reachable isOpen.available isOpen.exported rate who
  obtain ⟨there, told, -⟩ := isOpen.goes run follows available exported
  rw [← told] at ruled
  obtain ⟨answer, answered⟩ := ruled.answered
  rw [answered] at ruled
  have path := s.path_step (.request (.setup rate who))
  rw [called_of_answer isOpen.serves valid answered]
  exact ⟨b, answer, there, path, ruled, rfl⟩

theorem Open.between (isOpen : s.Open config stage blank a) {step : Step} (between : step.Between) :
    ∃ b, (s.step step).1.Open config stage blank b ∧
      (s.step step).1.session.service.interface.status.rate =
        s.session.service.interface.status.rate := by
  obtain ⟨b, run, follows, available, steady⟩ :=
    isOpen.follows.between isOpen.reachable isOpen.available between
  rw [isOpen.follows.1, follows.1] at steady
  obtain ⟨there, -, session⟩ :=
    isOpen.goes run follows available (steady.exported.trans isOpen.exported)
  exact ⟨b, there, session ▸ steady.rate⟩

end

/-- What leads from one station to another: calls, the latest first, and whatever happens between
them. -/
inductive Course (start : Station) : Station → List Ruling → Prop
  | start : Course start start []
  | between {s : Station} {calls : List Ruling} {step : Step} (course : Course start s calls)
      (between : step.Between) : Course start (s.step step).1 calls
  | call {s : Station} {calls : List Ruling} (course : Course start s calls) (rate : UInt32)
      (who : Requester) : Course start (s.called rate who).1 (s.ruling rate who :: calls)

section

variable {config : Config} {stage : Stage} {blank : Served} {a : Account} {calls : List Ruling}

/-- Along its calls, the station stays open, and its rate is the one granted last. -/
theorem Course.keeps (course : start.Course s calls) (isOpen : start.Open config stage blank a)
    (valid : Bus.ObjectPath.valid start.path = true) :
    s.path = start.path ∧ (∃ b, s.Open config stage blank b) ∧
      s.session.service.interface.status.rate = (calls.findSome? Ruling.granted?).getD
        start.session.service.interface.status.rate := by
  induction course with
  | start => exact ⟨rfl, ⟨a, isOpen⟩, rfl⟩
  | @between s calls step course between ih =>
    obtain ⟨path, ⟨b, opened⟩, rate⟩ := ih
    obtain ⟨c, there, kept⟩ := opened.between between
    exact ⟨(s.path_step step).trans path, ⟨c, there⟩, kept.trans rate⟩
  | @call s calls course rate who ih =>
    obtain ⟨path, ⟨b, opened⟩, last⟩ := ih
    obtain ⟨c, answer, there, same, ruled, -⟩ := opened.calls (path ▸ valid) rate who
    refine ⟨same.trans path, ⟨c, there⟩, ?_⟩
    cases refused : (s.ruling rate who).refusal with
    | none =>
      rw [refused] at ruled
      rw [List.findSome?_cons, Ruling.granted?_of_granted refused, ← there.follows.1]
      cases ruled with
      | granted stored => exact stored
    | some fault =>
      rw [refused] at ruled
      rw [List.findSome?_cons, Ruling.granted?_of_refused refused]
      cases ruled with
      | refused steady rejected =>
        rw [opened.follows.1, there.follows.1] at steady
        exact steady.rate.trans last

end

end Station

/-! ## From end to end -/

/-- A client has been told why its call is refused. The rate is served as before, and the object is
as exported and the timer the same as before. Of all that has been done since, the call has led to
one deed only, which has changed nothing, and the others are refreshes; without those, nothing has
changed at all. -/
structure Refused (config : Config) (stage : Stage) (s next : Station) (rate : UInt32)
    (fault : Fault) (result : Except ClientFault Unit) : Prop where
  told : ∃ error text, fault.ToldAs error text ∧
    result = .error (Client.setupFault s.path rate (.standard error text))
  rate : next.served.rate = s.served.rate
  steady : s.session.service.interface.Steady next.session.service.interface
  rejected : ∀ a, Account.Reachable config true stage a → a.Follows s.session →
    ∃ b earlier later, b.Follows next.session ∧
      Account.Rejected a b s.session.callers fault earlier later ∧
      (earlier = [] → later = [] →
        next.session.service.interface = s.session.service.interface ∧
          (s.session.service.work = none → next.session.service.work = none →
            next.served = s.served))

theorem Station.Open.refused {config : Config} {stage : Stage} {blank : Served} {s : Station}
    {a : Account} (isOpen : s.Open config stage blank a)
    (valid : Bus.ObjectPath.valid s.path = true) {rate : UInt32} {who : Requester} {fault : Fault}
    (refusal : (s.ruling rate who).refusal = some fault) :
    Refused config stage s (s.called rate who).1 rate fault (s.called rate who).2 := by
  have each (a : Account) (reachable : Account.Reachable config true stage a)
      (follows : a.Follows s.session) :
      ∃ b, (s.called rate who).1.Open config stage blank b ∧
        (s.called rate who).2 = .error (Client.setupFault s.path rate fault.toReply) ∧
        a.service.interface.Steady b.service.interface ∧
        ∃ earlier later, Account.Rejected a b s.session.callers fault earlier later := by
    obtain ⟨b, answer, there, -, ruled, result⟩ :=
      Open.calls { isOpen with reachable, follows } valid rate who
    rw [refusal] at ruled
    cases ruled with
    | refused steady rejected => exact ⟨b, there, result, steady, _, _, rejected⟩
  obtain ⟨b, there, result, steady, -⟩ := each a isOpen.reachable isOpen.follows
  rw [isOpen.follows.1, there.follows.1] at steady
  constructor
  · obtain ⟨error, text, told, same⟩ := fault.toldAs_toReply
    exact ⟨error, text, told, same ▸ result⟩
  · rw [there.rate, isOpen.rate, steady.rate]
  · exact steady
  · intro a reachable follows
    obtain ⟨b, there, -, -, earlier, later, rejected⟩ := each a reachable follows
    refine ⟨b, earlier, later, there.follows, rejected, ?_⟩
    rintro rfl rfl
    obtain ⟨same, quiet⟩ := rejected.unchanged reachable
    rw [there.follows.1, follows.1] at same quiet
    refine ⟨same, fun before after => ?_⟩
    rw [there.served, isOpen.served, quiet before after]

/-- On an object that a service at rest exports, whichever calls are granted and whichever refused,
a call succeeds exactly if it is granted. A client then reads the rate that was granted last, or
else the rate of the beginning, which is the configured one before anybody has been asked. A call
that is refused is told why, and changes nothing. -/
theorem setup_calls_are_ruled_on {config : Config} {stage : Stage} {surroundings : Surroundings}
    {fresh : Station} {steps : List Step}
    (started : Service.start config true stage surroundings = .ok fresh.session.service)
    (valid : Bus.ObjectPath.valid fresh.path = true)
    (available : (fresh.afterAll steps).session.service.Available)
    (exported : (fresh.afterAll steps).session.service.interface.exported = true)
    {s : Station} {calls : List Ruling} (course : (fresh.afterAll steps).Course s calls) :
    let start := (fresh.afterAll steps).session.service
    s.path = fresh.path ∧
      (∀ sender, Client.rate (Station.peer sender) s s.path =
        .ok ((calls.findSome? Ruling.granted?).getD start.interface.status.rate)) ∧
      (stage = .serving → start.world.authorizationsBegun = 0 →
        start.interface.status.rate = config.initialRate) ∧
      ∀ rate who,
        let next := s.called rate who
        let refusal := (s.ruling rate who).refusal
        (next.2 = .ok () ↔ refusal = none) ∧
          ∀ fault, refusal = some fault → Refused config stage s next.1 rate fault next.2 := by
  intro start
  have serving : start.stage = .serving := available.serving
  obtain ⟨a, initial⟩ : ∃ a, (fresh.afterAll steps).Open config stage fresh.served a := by
    cases (Station.serves_of_start started).afterAll steps with
    | running a reachable follows served =>
      exact ⟨a, reachable, follows, available, exported, served⟩
    | stopped stopped => cases serving.symm.trans stopped
  have path : (fresh.afterAll steps).path = fresh.path := Station.path_afterAll fresh steps
  obtain ⟨same, ⟨b, isOpen⟩, rate⟩ := course.keeps initial (path ▸ valid)
  have here : Bus.ObjectPath.valid s.path = true := by rwa [same, path]
  refine ⟨same.trans path, fun sender => ?_, ?_, fun rate who => ⟨?_, ?_⟩⟩
  · rw [Station.rate_of_exported isOpen.serves here, isOpen.rate, rate]
  · rintro rfl none
    have reachable := initial.reachable
    obtain ⟨there, -⟩ := initial.follows
    have first := reachable.initialRate (there ▸ none)
    rwa [there] at first
  · obtain ⟨c, answer, -, -, ruled, result⟩ := isOpen.calls here rate who
    rw [result]
    generalize (s.ruling rate who).refusal = refusal at ruled ⊢
    cases ruled with
    | granted stored => exact ⟨fun _ => rfl, fun _ => rfl⟩
    | refused steady rejected => exact ⟨nofun, nofun⟩
  · exact fun fault refusal => isOpen.refused here refusal

/-- The first Setup call is refused, and the others are granted. -/
def wary : Surroundings :=
  { obliging .enabled {} with
    authorizer := fun n _ => if n = 0 then { refusal := some (.unauthorized "denied") } else {} }

theorem patient_wary : wary.Patient := by
  refine ⟨fun n c => Nat.le_refl 0, fun n who => ?_⟩
  change (if n = 0 then ({ refusal := some (.unauthorized "denied") } : Verdict) else {}).delay ≤ 0
  split <;> exact Nat.le_refl 0

/-- A station that exports its object at rate three. -/
def waryStation : Station :=
  { path := "/modem"
    session := { service := (Account.fresh { initialRate := 3 } true .serving wary).service } }

/-- The refused call leaves the rate as configured, and the granted one sets it. -/
theorem rates_of_wary :
    let start := waryStation.afterAll [.request .bringUp]
    let refused := start.called 9 ⟨":1.5"⟩
    let granted := refused.1.called 7 ⟨":1.5"⟩
    refused.2 = .error (Client.setupFault "/modem" 9 (.standard .accessDenied "denied")) ∧
      Client.rate (Station.peer none) refused.1 "/modem" = .ok 3 ∧
      granted.2 = .ok () ∧ Client.rate (Station.peer none) granted.1 "/modem" = .ok 7 := by
  intro start refused granted
  have available : start.session.service.Available := by
    refine ⟨by decide +kernel, by decide +kernel, ?_, ?_, ?_, ?_⟩
    · have same : start.session = (waryStation.session.step (.request .bringUp)).1 :=
        waryStation.session_step (by decide) (.request .bringUp)
      rw [same, waryStation.session.surroundings_request .bringUp]
      exact patient_wary
    · exact List.isEmpty_iff.1 (by decide +kernel)
    · exact List.isEmpty_iff.1 (by decide +kernel)
    · exact Service.refreshes_of_idle (Option.isNone_iff_eq_none.1 (by decide +kernel))
  have exported : start.session.service.interface.exported = true := by decide +kernel
  have valid : Bus.ObjectPath.valid waryStation.path = true := by decide +kernel
  have started : Service.start { initialRate := 3 } true .serving wary =
      .ok waryStation.session.service := rfl
  have first : (start.ruling 9 ⟨":1.5"⟩).refusal = some (.unauthorized "denied") := by
    decide +kernel
  have second : (refused.1.ruling 7 ⟨":1.5"⟩).refusal = none := by decide +kernel
  have early : start.session.service.world.authorizationsBegun = 0 := by decide +kernel
  have once : start.Course refused.1 [start.ruling 9 ⟨":1.5"⟩] := .call .start 9 ⟨":1.5"⟩
  have twice : start.Course granted.1 [refused.1.ruling 7 ⟨":1.5"⟩, start.ruling 9 ⟨":1.5"⟩] :=
    .call once 7 ⟨":1.5"⟩
  obtain ⟨path, -, initial, each⟩ :=
    setup_calls_are_ruled_on started valid available exported (.start : start.Course start [])
  obtain ⟨path', rate', -, each'⟩ :=
    setup_calls_are_ruled_on started valid available exported once
  obtain ⟨path'', rate'', -, -⟩ :=
    setup_calls_are_ruled_on started valid available exported twice
  refine ⟨?_, ?_, (each' 7 ⟨":1.5"⟩).1.2 second, ?_⟩
  · obtain ⟨error, text, told, result⟩ := ((each 9 ⟨":1.5"⟩).2 _ first).told
    cases told
    rwa [path] at result
  · have kept := rate' none
    rw [path', List.findSome?_cons, Ruling.granted?_of_refused first] at kept
    exact kept.trans (congrArg Except.ok (initial rfl early))
  · have set := rate'' none
    rwa [path'', List.findSome?_cons, Ruling.granted?_of_granted second] at set

end Modem.Published
