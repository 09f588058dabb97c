import Modem.Proofs.Session.Instants
import Modem.Proofs.Signal.Beside

/-! # Services in concord

Two services go side by side in two worlds that answer alike as far as it counts. Whatever is taken
by one of them can be taken by the other, and they are side by side again. Two worlds may be apart,
and then what has to do with the device is left out. -/

namespace Modem.Session

open Signal

/-! ## What is said -/

/-- The event without what a call fails with, unless the call exports the object. -/
def Event.bare : Event → Event
  | .call .exportObject fault => .call .exportObject fault
  | .call c _ => .call c none
  | event => event

theorem Event.bare_call {c : Call} {fault other : Option Fault}
    (same : c = .exportObject → other = fault) :
    (Event.call c other).bare = (Event.call c fault).bare := by
  cases c with
  | exportObject => rw [same rfl]
  | _ => rfl

def Entry.bare (entry : Entry) : Entry := { entry with event := entry.event.bare }

namespace World

variable {audible : Event → Bool}

/-- What one hears of the journal, without what most calls fail with. -/
def said (w : World) (audible : Event → Bool) : List Entry := (w.heard audible).map Entry.bare

theorem said_record (w : World) (event : Event) :
    (w.record event).said audible =
      if audible event then ⟨w.now, event.bare⟩ :: w.said audible else w.said audible := by
  rw [said, heard_record]
  split
  · rfl
  · rfl

/-- In surroundings that are related, the same has been asked, and who hears some of what is said
has heard the same. -/
structure Agree (related : Surroundings → Surroundings → Prop) (audible : Event → Bool)
    (w v : World) : Prop where
  now : v.now = w.now
  surroundings : related w.surroundings v.surroundings
  authorizationsBegun : v.authorizationsBegun = w.authorizationsBegun
  queriesBegun : v.queriesBegun = w.queriesBegun
  said : v.said audible = w.said audible

namespace Agree

variable {related : Surroundings → Surroundings → Prop} {w v : World}

theorem record (agree : Agree related audible w v) (event other : Event)
    (same : other.bare = event.bare) (heard : audible other = audible event) :
    Agree related audible (w.record event) (v.record other) :=
  { agree with said := by rw [said_record, said_record, agree.said, agree.now, same, heard] }

theorem left (agree : Agree related audible w v) {event : Event}
    (silent : audible event = false) : Agree related audible (w.record event) v :=
  { agree with said := by rw [said_record, silent, if_neg Bool.false_ne_true, agree.said] }

theorem right (agree : Agree related audible w v) {event : Event}
    (silent : audible event = false) : Agree related audible w (v.record event) :=
  { agree with said := by rw [said_record, silent, if_neg Bool.false_ne_true, agree.said] }

theorem recordLines (agree : Agree related audible w v)
    (deaf : ∀ line, audible (.line line) = false) (lines others : List Line) :
    Agree related audible (w.recordLines lines) (v.recordLines others) := by
  have first : Agree related audible (w.recordLines lines) v := by
    induction lines generalizing w with
    | nil => exact agree
    | cons line rest ih => exact ih (agree.left (deaf line))
  induction others generalizing v with
  | nil => exact first
  | cons line rest ih => exact ih (agree.right (deaf line)) (first.right (deaf line))

/-- What a call fails with is not heard, unless it exports the object. -/
theorem beginCall (agree : Agree related audible w v) (c : Call)
    (heard : ∀ fault other, audible (.call c other) = audible (.call c fault))
    (fault : c = .exportObject → (v.beginCall c).2.fault = (w.beginCall c).2.fault) :
    Agree related audible (w.beginCall c).1 (v.beginCall c).1 := by
  have begun : Agree related audible { w with callsMade := w.callsMade + 1 }
      { v with callsMade := v.callsMade + 1 } := { agree with said := agree.said }
  exact begun.record _ _ (Event.bare_call fault) (heard _ _)

theorem beginAuthorization (agree : Agree related audible w v)
    (deaf : ∀ line, audible (.line line) = false)
    (authorizer : v.surroundings.authorizer = w.surroundings.authorizer) (who : Requester) :
    Agree related audible (w.beginAuthorization who).1 (v.beginAuthorization who).1 ∧
      (v.beginAuthorization who).2 = (w.beginAuthorization who).2 := by
  have verdict : (v.beginAuthorization who).2 = (w.beginAuthorization who).2 := by
    simp only [World.beginAuthorization, agree.authorizationsBegun, authorizer]
  have begun : Agree related audible { w with authorizationsBegun := w.authorizationsBegun + 1 }
      { v with authorizationsBegun := v.authorizationsBegun + 1 } :=
    { agree with authorizationsBegun := congrArg (· + 1) agree.authorizationsBegun }
  exact ⟨(begun.record (.authorize who) _ rfl rfl).recordLines deaf _ _, verdict⟩

/-- Both devices are asked the same, whatever they make of it. -/
theorem beginQuery (agree : Agree related audible w v)
    (deaf : ∀ line, audible (.line line) = false) :
    Agree related audible w.beginQuery.1 v.beginQuery.1 := by
  have counted := congrArg (· + 1) agree.queriesBegun
  have begun : Agree related audible { w with queriesBegun := w.queriesBegun + 1 }
      { v with queriesBegun := v.queriesBegun + 1 } := { agree with queriesBegun := counted }
  have asked := begun.record _ _ (congrArg (fun n => (Event.query n).bare) counted)
    (congrArg (fun n => audible (.query n)) counted)
  exact asked.recordLines deaf _ _

end Agree

end World

/-! ## Worlds -/

/-- What it takes for two worlds to be in concord. -/
structure Concord (apart : Prop) where
  worlds : World → World → Prop
  /-- What is known of two worlds ahead of time, and of all the earlier ones with them. -/
  ahead : World → World → Prop
  earlier {w v w' v' : World} (known : ahead w' v') (first : w.journal <:+ w'.journal)
    (second : v.journal <:+ v'.journal) : ahead w v
  now {w v : World} (alike : worlds w v) : v.now = w.now
  modem {w v : World} (alike : worlds w v) : v.surroundings.modem = w.surroundings.modem
  record {w v : World} (alike : worlds w v) (event : Event) :
    worlds (w.record event) (v.record event)
  left {w v : World} (alike : worlds w v) (line : Line) : worlds (w.record (.line line)) v
  right {w v : World} (alike : worlds w v) (line : Line) : worlds w (v.record (.line line))
  call {w v : World} (alike : worlds w v) (c : Call)
    (known : ahead (w.beginCall c).1 (v.beginCall c).1) :
    worlds (w.beginCall c).1 (v.beginCall c).1 ∧
      (v.beginCall c).2.delay = (w.beginCall c).2.delay ∧
      (c = .exportObject → (v.beginCall c).2.fault = (w.beginCall c).2.fault)
  authorize {w v : World} (alike : worlds w v) (who : Requester) :
    worlds (w.beginAuthorization who).1 (v.beginAuthorization who).1 ∧
      (v.beginAuthorization who).2 = (w.beginAuthorization who).2
  query {w v : World} (together : ¬apart) (alike : worlds w v) :
    worlds w.beginQuery.1 v.beginQuery.1 ∧ v.beginQuery.2 = w.beginQuery.2
  /-- What it takes for two surroundings to answer alike from now on. -/
  answers : Surroundings → Surroundings → Prop
  surround {w v : World} {surroundings others : Surroundings} (alike : worlds w v)
    (same : answers surroundings others) :
    worlds { w with surroundings } { v with surroundings := others }
  pass {w v : World} (alike : worlds w v) (now : Nat) : worlds { w with now } { v with now }

/-- Two exchanges have got as far. -/
inductive Progress.Beside {α β : Type} (related : α → β → Prop) : Progress α → Progress β → Prop
  | finished {a : α} {b : β} (results : related a b) : Beside related (.finished a) (.finished b)
  | waiting (time : Nat) {x : Exchange α} {y : Exchange β} (rests : x.Beside related y) :
      Beside related (.waiting time x) (.waiting time y)

variable {apart : Prop} {R : Concord apart}

theorem Concord.proceed {α β : Type} {related : α → β → Prop} {x : Exchange α} {y : Exchange β}
    (beside : x.Beside related y) {w v : World} (worlds : R.worlds w v)
    (known : R.ahead (Session.proceed x w).1 (Session.proceed y v).1) :
    R.worlds (Session.proceed x w).1 (Session.proceed y v).1 ∧
      (Session.proceed x w).2.Beside related (Session.proceed y v).2 := by
  induction beside generalizing w v with
  | done results => exact ⟨worlds, .finished results⟩
  | left line tail ih => exact ih (R.left worlds line) known
  | right line tail ih => exact ih (R.right worlds line) known
  | created tail ih => exact ih (R.record worlds .created) known
  | call c tails ih =>
    rename_i rest more
    have before : R.ahead (w.beginCall c).1 (v.beginCall c).1 := by
      refine R.earlier known ?_ ?_
      · simp only [Session.proceed]
        split
        · exact journal_proceed _ _
        · exact List.suffix_rfl
      · simp only [Session.proceed]
        split
        · exact journal_proceed _ _
        · exact List.suffix_rfl
    obtain ⟨begun, delay, fault⟩ := R.call worlds c before
    simp only [Session.proceed, delay, R.now begun] at known ⊢
    split
    next prompt =>
      rw [if_pos prompt, if_pos prompt] at known
      exact ih _ _ fault begun known
    · exact ⟨begun, .waiting _ (tails _ _ fault)⟩
  | authorize who tails ih =>
    obtain ⟨begun, verdict⟩ := R.authorize worlds who
    simp only [Session.proceed, verdict, R.now begun] at known ⊢
    split
    next prompt =>
      rw [if_pos prompt, if_pos prompt] at known
      exact ih _ begun known
    · exact ⟨begun, .waiting _ (tails _)⟩
  | modem tails ih =>
    simp only [Session.proceed, R.modem worlds] at known ⊢
    exact ih _ worlds known
  | clock tails ih =>
    simp only [Session.proceed, R.now worlds] at known ⊢
    exact ih _ worlds known

/-! ## Services -/

/-- Two pieces of work wait for the same, and what is left of them goes side by side. -/
inductive Works (apart : Prop) : Option Work → Option Work → Prop
  | none : Works apart none none
  | some (purpose : Purpose) (time : Nat) {x y : Exchange (Interface × Answer)}
      (rests : x.Beside (Interface.KinResults apart) y) :
      Works apart (some ⟨purpose, time, x⟩) (some ⟨purpose, time, y⟩)

namespace Service

/-- Two services are the same, but for their worlds, and if they are apart, for what has to do with
the device. -/
inductive Beside (R : Concord apart) (s : Service) : Service → Prop
  | mk {world : World} {interface : Interface} {loads : List Load} {work : Option Work}
      (worlds : R.worlds s.world world) (kin : s.interface.Kin apart interface)
      (asked : apart ∨ loads = s.loads) (works : Works apart s.work work) :
      Beside R s { s with world, interface, loads, work }

variable {s t : Service} {occurrence : Occurrence}

theorem Beside.worlds (beside : s.Beside R t) : R.worlds s.world t.world := by
  obtain ⟨worlds, -, -, -⟩ := beside
  exact worlds

theorem Beside.now (beside : s.Beside R t) : t.now = s.now := R.now beside.worlds

theorem Beside.interface (beside : s.Beside R t) : s.interface.Kin apart t.interface := by
  obtain ⟨-, kin, -, -⟩ := beside
  exact kin

theorem Beside.works (beside : s.Beside R t) : Works apart s.work t.work := by
  obtain ⟨-, -, -, works⟩ := beside
  exact works

theorem Beside.loads (beside : s.Beside R t) (together : ¬apart) : t.loads = s.loads := by
  obtain ⟨-, -, asked, -⟩ := beside
  exact asked.resolve_left together

theorem Beside.queue (beside : s.Beside R t) : t.queue = s.queue := by
  obtain ⟨-, -, -, -⟩ := beside
  rfl

theorem Beside.checks (beside : s.Beside R t) : t.checks = s.checks := by
  obtain ⟨-, -, -, -⟩ := beside
  rfl

theorem Beside.stage (beside : s.Beside R t) : t.stage = s.stage := by
  obtain ⟨-, -, -, -⟩ := beside
  rfl

theorem Beside.replies (beside : s.Beside R t) : t.replies = s.replies := by
  obtain ⟨-, -, -, -⟩ := beside
  rfl

theorem Beside.finish (beside : s.Beside R t) (purpose : Purpose) {p q : Interface × Answer}
    (results : Interface.KinResults apart p q) :
    (s.finish purpose p).Beside R (t.finish purpose q) := by
  have now := beside.now
  obtain ⟨worlds, -, asked, works⟩ := beside
  obtain ⟨kin, answer⟩ := results
  cases purpose with
  | answer caller =>
    simp only [Service.finish, reply, answer, Service.now] at now ⊢
    rw [now]
    exact .mk worlds kin asked works
  | refresh => exact .mk (s := s.finish .refresh p) worlds kin asked works
  | close => exact .mk (s := s.finish .close p) worlds kin asked works

theorem Beside.perform (beside : s.Beside R t) (purpose : Purpose)
    {x y : Exchange (Interface × Answer)} (exchanges : x.Beside (Interface.KinResults apart) y)
    (known : R.ahead (s.perform purpose x).world (t.perform purpose y).world) :
    (s.perform purpose x).Beside R (t.perform purpose y) := by
  rw [(s.performed purpose x).world_eq, (t.performed purpose y).world_eq] at known
  obtain ⟨worlds, progress⟩ := Concord.proceed exchanges beside.worlds known
  obtain ⟨-, kin, asked, works⟩ := beside
  rename_i world interface loads work
  dsimp only at worlds progress
  unfold Service.perform
  rcases here : proceed x s.world with ⟨w, p⟩
  rcases there : proceed y world with ⟨v, q⟩
  rw [here, there] at worlds progress
  cases progress with
  | finished results =>
    have moved : Beside R { s with world := w } { s with world := v, interface, loads, work } :=
      .mk (s := { s with world := w }) worlds kin asked works
    exact moved.finish purpose results
  | waiting time rests =>
    exact .mk (s := { s with world := w, work := _ }) worlds kin asked (.some purpose time rests)

/-- Two services come to the same, and if they are apart, nothing is made of an answer. -/
structure Alongside (R : Concord apart) (p q : Service × Option Job) : Prop where
  services : p.1.Beside R q.1
  job : q.2 = p.2
  together : ∀ job, p.2 = some job → ∀ query result, job.operation = .loaded query result → ¬apart

theorem Beside.nothing (beside : s.Beside R t) : Alongside R (s, none) (t, none) := by
  refine ⟨beside, rfl, ?_⟩
  intro job none
  cases none

theorem Beside.begins (beside : s.Beside R t) {job : Job}
    (together : ∀ query result, job.operation = .loaded query result → ¬apart) :
    Alongside R (s, some job) (t, some job) := by
  refine ⟨beside, rfl, ?_⟩
  intro begun same
  obtain rfl := Option.some.inj same
  exact together

theorem Beside.dispatch (beside : s.Beside R t) (queued : Queued) :
    Alongside R (s.dispatch queued) (t.dispatch queued) := by
  by_cases aside : s.stage = .serving ∧ ∃ rate who, queued.request = .setup rate who
  · obtain ⟨serving, rate, who, setup⟩ := aside
    obtain ⟨caller, request⟩ := queued
    dsimp only at setup
    subst setup
    rw [dispatch_setup serving, dispatch_setup (beside.stage.trans serving)]
    obtain ⟨worlds, kin, asked, works⟩ := beside
    exact Beside.nothing (.mk (s := { s with world := _, checks := _ }) (R.record worlds _) kin
      asked works)
  · have plain : s.stage = .serving → ∀ rate who, queued.request ≠ .setup rate who :=
      fun serving rate who setup => aside ⟨serving, rate, who, setup⟩
    have same := beside.stage
    rw [dispatch_other plain, dispatch_other (by rwa [same])]
    exact beside.begins (by simp)

theorem Beside.conclude (beside : s.Beside R t) (c : Check) (refusal : Option Fault) :
    Alongside R (s.conclude c refusal) (t.conclude c refusal) := by
  obtain ⟨worlds, kin, asked, works⟩ := beside
  have moved := Beside.mk (s := (s.conclude c refusal).1) worlds kin asked works
  exact moved.begins (by simp)

theorem Beside.beginCheck (beside : s.Beside R t) (c : Check) :
    Alongside R (s.beginCheck c) (t.beginCheck c) := by
  obtain ⟨begun, verdict⟩ := R.authorize beside.worlds c.who
  have now := R.now begun
  obtain ⟨-, kin, asked, works⟩ := beside
  unfold Service.beginCheck
  dsimp only at begun verdict now ⊢
  rw [verdict, now]
  split
  · have moved := Beside.mk (s := { s with world := _ }) begun kin asked works
    exact moved.conclude c _
  · exact Beside.nothing (.mk (s := { s with world := _, checks := _ }) begun kin asked works)

theorem Beside.concludeLoad (beside : s.Beside R t) (together : ¬apart) (query : Query)
    (result : Except Fault Snapshot) :
    Alongside R (s.concludeLoad query result) (t.concludeLoad query result) := by
  obtain ⟨worlds, kin, asked, works⟩ := beside
  obtain rfl := asked.resolve_left together
  have moved := Beside.mk (s := (s.concludeLoad query result).1) worlds kin (.inr rfl) works
  exact moved.begins fun _ _ _ => together

theorem Beside.beginLoad (beside : s.Beside R t) (together : ¬apart) (query : Query) :
    Alongside R (s.beginLoad query) (t.beginLoad query) := by
  obtain ⟨begun, response⟩ := R.query together beside.worlds
  have now := R.now begun
  obtain ⟨-, kin, asked, works⟩ := beside
  obtain rfl := asked.resolve_left together
  unfold Service.beginLoad
  dsimp only at begun response now ⊢
  rw [response, now]
  split
  · have moved := Beside.mk (s := { s with world := _ }) begun kin (.inr rfl) works
    exact moved.concludeLoad together query _
  · exact Beside.nothing (.mk (s := { s with world := _, loads := _ }) begun kin (.inr rfl) works)

/-- Before anything is carried out, both services come to the same. -/
theorem Beside.prepare (beside : s.Beside R t)
    (together : ∀ query, occurrence = .load query → ¬apart) :
    Alongside R (s.prepare occurrence) (t.prepare occurrence) := by
  cases occurrence with
  | resume => exact beside.nothing
  | request =>
    have same := beside.queue
    cases queue : s.queue with
    | nil =>
      rw [prepare_request_of_nil queue, prepare_request_of_nil (same.trans queue)]
      exact beside.nothing
    | cons queued rest =>
      rw [prepare_request queue, prepare_request (same.trans queue)]
      obtain ⟨worlds, kin, asked, works⟩ := beside
      have popped := Beside.mk (s := { s with queue := rest }) worlds kin asked works
      exact popped.dispatch queued
  | check asking =>
    have same := beside.checks
    cases found : s.checks.find? fun c => c.caller = asking with
    | none =>
      rw [prepare_check_of_none found, prepare_check_of_none (by rwa [same])]
      exact beside.nothing
    | some c =>
      rw [prepare_check found, prepare_check (s := t) (by rwa [same])]
      cases c.arrival with
      | some arrival => exact beside.conclude c arrival.content
      | none => exact beside.beginCheck c
  | tick => exact beside.begins (by simp)
  | load query =>
    have here := together query rfl
    have same := beside.loads here
    cases found : s.loads.find? fun l => l.query = query with
    | some l =>
      simp only [Service.prepare, same, found]
      exact beside.concludeLoad here query _
    | none =>
      simp only [Service.prepare, same, found]
      exact beside.beginLoad here query
  | close =>
    obtain ⟨worlds, kin, asked, works⟩ := beside
    have noted := Beside.mk (s := { s with world := _ }) (R.record worlds (.line ⟨.debug,
      "All signal handles dropped, stopping service"⟩)) kin asked works
    exact noted.begins (by simp)

/-- Whatever both services take, they are side by side again. -/
theorem Beside.take (beside : s.Beside R t)
    (together : ∀ query, occurrence = .load query → ¬apart)
    (known : R.ahead (s.take occurrence).world (t.take occurrence).world) :
    (s.take occurrence).Beside R (t.take occurrence) := by
  by_cases resume : occurrence = .resume
  · subst resume
    have works := beside.works
    have rested : { s with work := none }.Beside R { t with work := none } := by
      obtain ⟨worlds, kin, asked, -⟩ := beside
      exact .mk (s := { s with work := none }) worlds kin asked .none
    unfold Service.take at known ⊢
    dsimp only at known ⊢
    generalize s.work = first, t.work = second at works known
    cases works with
    | none => exact beside
    | some purpose time rests => exact rested.perform purpose rests known
  · obtain ⟨services, job, others⟩ := beside.prepare together
    rcases here : s.prepare occurrence with ⟨p, begun⟩
    rcases there : t.prepare occurrence with ⟨q, same⟩
    rw [take_of_prepare resume here, take_of_prepare resume there] at known ⊢
    rw [here, there] at services job
    rw [here] at others
    dsimp only at services job others
    subst job
    cases same with
    | none => exact services
    | some job =>
      refine services.perform job.purpose (Interface.beside_carryOut services.interface _ ?_) known
      exact others job rfl

/-! ## What is ready -/

theorem Beside.timer (beside : s.Beside R t) :
    t.interface.reporting.timer = s.interface.reporting.timer := by
  obtain ⟨-, ⟨-, ⟨-, -⟩⟩, -, -⟩ := beside
  rfl

theorem Beside.readyRequest (beside : s.Beside R t) : t.readyRequest = s.readyRequest := by
  unfold Service.readyRequest
  rw [beside.queue]

theorem Beside.readyChecks (beside : s.Beside R t) : t.readyChecks = s.readyChecks := by
  unfold Service.readyChecks
  rw [beside.checks, beside.now]

theorem Beside.readyTick (beside : s.Beside R t) : t.readyTick = s.readyTick := by
  unfold Service.readyTick
  rw [beside.timer, beside.now]

theorem Beside.readyClose (beside : s.Beside R t) : t.readyClose = s.readyClose := by
  obtain ⟨-, -, -, -⟩ := beside
  rfl

theorem Beside.interface_eq (beside : s.Beside R t) (together : ¬apart) :
    t.interface = s.interface :=
  beside.interface.eq_of_not together

theorem Beside.readyLoads (beside : s.Beside R t) (together : ¬apart) :
    t.readyLoads = s.readyLoads := by
  unfold Service.readyLoads Service.unbegun
  rw [beside.loads together, beside.interface_eq together, beside.now]

theorem Beside.ready (beside : s.Beside R t) (together : ¬apart) : t.ready = s.ready := by
  have works := beside.works
  unfold Service.ready
  rw [beside.stage, beside.now, beside.readyRequest, beside.readyChecks, beside.readyTick,
    beside.readyLoads together, beside.readyClose]
  generalize s.work = first, t.work = second at works
  cases works with
  | none => rfl
  | some purpose time rests => rfl

theorem Beside.wake?_eq (beside : s.Beside R t) (together : ¬apart) : t.wake? = s.wake? := by
  have works := beside.works
  unfold Service.wake?
  rw [beside.stage, beside.checks, beside.timer, beside.loads together]
  generalize s.work = first, t.work = second at works
  cases works with
  | none => rfl
  | some purpose time rests => rfl

/-! ## From outside -/

theorem Beside.send (beside : s.Beside R t) (caller : Nat) (request : Request) :
    (s.send caller request).Beside R (t.send caller request) := by
  have now := beside.now
  obtain ⟨worlds, kin, asked, works⟩ := beside
  unfold Service.send
  dsimp only
  split
  · unfold Service.reply Service.now at *
    dsimp only at now ⊢
    rw [now]
    exact .mk (s := { s with replies := _ }) worlds kin asked works
  · exact .mk (s := { s with queue := _ }) worlds kin asked works

theorem Beside.surround (beside : s.Beside R t) {surroundings others : Surroundings}
    (same : R.answers surroundings others) :
    Beside R { s with world := { s.world with surroundings } }
      { t with world := { t.world with surroundings := others } } := by
  obtain ⟨worlds, kin, asked, works⟩ := beside
  exact .mk (s := { s with world := _ }) (R.surround worlds same) kin asked works

theorem Beside.moveTo (beside : s.Beside R t) (time : Nat) :
    (s.moveTo time).Beside R (t.moveTo time) := by
  have now := beside.now
  unfold Service.moveTo
  rw [now]
  obtain ⟨worlds, kin, asked, works⟩ := beside
  exact .mk (s := { s with world := _ }) (R.pass worlds _) kin asked works

theorem Beside.close (beside : s.Beside R t) :
    Beside R { s with isOpen := false } { t with isOpen := false } := by
  obtain ⟨worlds, kin, asked, works⟩ := beside
  exact .mk (s := { s with isOpen := false }) worlds kin asked works

theorem Beside.leave (beside : s.Beside R t) (leaver : Nat) :
    Beside R { s with leavers := leaver :: s.leavers }
      { t with leavers := leaver :: t.leavers } := by
  obtain ⟨worlds, kin, asked, works⟩ := beside
  exact .mk (s := { s with leavers := leaver :: s.leavers }) worlds kin asked works

theorem Beside.onStage (beside : s.Beside R t) (stage : Stage) :
    Beside R { s with stage } { t with stage } := by
  obtain ⟨worlds, kin, asked, works⟩ := beside
  exact .mk (s := { s with stage }) worlds kin asked works

end Service

/-! ## Accounts -/

/-- The moves are the same, or bring surroundings that are related. -/
inductive Move.Like (related : Surroundings → Surroundings → Prop) : Move → Move → Prop
  | same (m : Move) (other : ∀ surroundings, m ≠ .surround surroundings) : Like related m m
  | surround {surroundings others : Surroundings} (answers : related surroundings others) :
      Like related (.surround surroundings) (.surround others)

theorem Move.like_self {related : Surroundings → Surroundings → Prop} {moves : List Move}
    (steady : ∀ surroundings, .surround surroundings ∉ moves) :
    List.Forall₂ (Move.Like related) moves moves :=
  List.forall₂_same.2 fun m mem => .same m fun surroundings same => steady surroundings (same ▸ mem)

namespace Account

variable {a b : Account} {m n : Move}

/-- Services side by side to which the same has been sent. -/
structure Beside (R : Concord apart) (a b : Account) : Prop where
  services : a.service.Beside R b.service
  sent : b.sent = a.sent

theorem Beside.after (beside : a.Beside R b) (like : m.Like R.answers n)
    (together : ∀ query, m = .take (.load query) → ¬apart)
    (known : R.ahead (a.after m).service.world (b.after n).service.world) :
    (a.after m).Beside R (b.after n) := by
  obtain ⟨services, sent⟩ := beside
  cases like with
  | surround answers => exact ⟨services.surround answers, sent⟩
  | same m other =>
    cases m with
    | surround surroundings => exact absurd rfl (other surroundings)
    | send caller request =>
      exact ⟨services.send caller request, congrArg (Queued.mk caller request :: ·) sent⟩
    | pass time => exact ⟨services.moveTo time, sent⟩
    | close => exact ⟨services.close, sent⟩
    | leave caller => exact ⟨services.leave caller, sent⟩
    | serve =>
      refine ⟨?_, sent⟩
      simp only [Account.after, services.stage]
      exact services.onStage _
    | take occurrence =>
      have taken : ∀ query, occurrence = .load query → ¬apart := by
        rintro query rfl
        exact together query rfl
      exact ⟨services.take taken known, sent⟩

/-- What one can do, so can the other. -/
theorem Beside.allows (beside : a.Beside R b) (together : ¬apart) (like : m.Like R.answers n)
    (allowed : a.Allows m) : b.Allows n := by
  cases like with
  | surround => trivial
  | same m other =>
    cases m with
    | send caller request => rwa [Account.Allows, beside.sent]
    | take occurrence => rwa [Account.Allows, beside.services.ready together]
    | _ => trivial

end Account

end Modem.Session
