import Modem.Proofs.Session.Handling
import Modem.Session.Clock

/-! # Accounts of a service

An account is a service together with what has been sent to it and the deeds it has begun. It moves
on with the service: everything outside acts at any time, and inside anything that is ready can come
next. Whatever the order, the deeds lead to the interface that the service has. -/

namespace Modem.Session

open Signal

/-- Surroundings that grant and deliver everything at once. -/
def obliging (modem : State) (values : Snapshot) : Surroundings where
  modem
  device _ := { result := .ok values }
  authorizer _ _ := {}
  bus _ _ := {}
  patience := 0

/-! ## Moves -/

inductive Move where
  | send (caller : Nat) (request : Request)
  /-- The surroundings answer differently from now on. -/
  | surround (surroundings : Surroundings)
  | pass (time : Nat)
  /-- No further request is sent. -/
  | close
  /-- A caller lets go of its handle, answered or not. -/
  | leave (caller : Nat)
  /-- Hands the interface to a service. -/
  | serve
  | take (occurrence : Service.Occurrence)

structure Account where
  service : Service
  sent : List Queued := []
  /-- The latest first. -/
  deeds : List Deed := []

namespace Account

variable {config : Config} {supported : Bool} {stage : Stage} {start : Interface}

/-- An occurrence begins a deed, goes on with the latest one, or does neither. -/
def deedsAfter (a : Account) : Service.Occurrence → List Deed
  | .resume =>
    match a.deeds with
    | d :: earlier => d.resume a.service.world :: earlier
    | [] => []
  | occurrence =>
    match a.service.prepare occurrence with
    | (s, some job) => .begin job s :: a.deeds
    | (_, none) => a.deeds

def after (a : Account) : Move → Account
  | .send caller request =>
    { a with service := a.service.send caller request, sent := ⟨caller, request⟩ :: a.sent }
  | .surround surroundings =>
    { a with service := { a.service with world := { a.service.world with surroundings } } }
  | .pass time => { a with service := a.service.moveTo time }
  | .close => { a with service := { a.service with isOpen := false } }
  | .leave caller =>
    { a with service := { a.service with leavers := caller :: a.service.leavers } }
  | .serve =>
    { a with service := { a.service with
      stage := if a.service.stage = .direct then .serving else a.service.stage } }
  | .take occurrence =>
    { a with service := a.service.take occurrence, deeds := a.deedsAfter occurrence }

/-- Each caller sends one request, and what is taken has to be ready. -/
def Allows (a : Account) : Move → Prop
  | .send caller _ => caller ∉ a.sent.map Queued.caller
  | .take occurrence => occurrence ∈ a.service.ready
  | _ => True

instance (a : Account) (m : Move) : Decidable (a.Allows m) :=
  match m with
  | .send caller _ => inferInstanceAs (Decidable (caller ∉ a.sent.map Queued.caller))
  | .take occurrence => inferInstanceAs (Decidable (occurrence ∈ a.service.ready))
  | .surround _ | .pass _ | .close | .leave _ | .serve => inferInstanceAs (Decidable True)

/-- Any number of moves in any order. -/
inductive Run (a : Account) : Account → Prop
  | refl : Run a a
  | step {b : Account} {m : Move} (run : Run a b) (allowed : b.Allows m) : Run a (b.after m)

theorem Run.trans {a b c : Account} (first : Run a b) (second : Run b c) : Run a c := by
  induction second with
  | refl => exact first
  | step _ allowed ih => exact ih.step allowed

/-- An interface that has just been built, and nothing sent yet. -/
def fresh (config : Config) (supported : Bool) (stage : Stage) (surroundings : Surroundings) :
    Account where
  service := { world := { surroundings }, interface := .fresh config supported, stage }

/-- The account after some moves. -/
def afterAll (a : Account) (moves : List Move) : Account := moves.foldl after a

/-- Each of the moves is possible when its turn comes. -/
def AllowsAll (a : Account) : List Move → Prop
  | [] => True
  | m :: rest => a.Allows m ∧ (a.after m).AllowsAll rest

instance decidableAllowsAll (a : Account) : (moves : List Move) → Decidable (a.AllowsAll moves)
  | [] => inferInstanceAs (Decidable True)
  | m :: rest =>
    have := decidableAllowsAll (a.after m) rest
    inferInstanceAs (Decidable (a.Allows m ∧ (a.after m).AllowsAll rest))

theorem allowsAll_append {a : Account} {first later : List Move} :
    a.AllowsAll (first ++ later) ↔ a.AllowsAll first ∧ (a.afterAll first).AllowsAll later := by
  induction first generalizing a with
  | nil => exact iff_of_eq (true_and _).symm
  | cons m rest ih => exact (and_congr_right fun _ => ih).trans and_assoc.symm

theorem run_afterAll {a : Account} {moves : List Move} (allowed : a.AllowsAll moves) :
    Run a (a.afterAll moves) := by
  induction moves generalizing a with
  | nil => exact .refl
  | cons m rest ih => exact (Run.refl.step allowed.1).trans (ih allowed.2)

/-- Some run from a service that has just been started ends here. -/
def Reachable (config : Config) (supported : Bool) (stage : Stage) (a : Account) : Prop :=
  ∃ surroundings service,
    Service.start config supported stage surroundings = .ok service ∧ Run { service } a

theorem start_of_checked (checked : config.check = .ok ()) (surroundings : Surroundings) :
    Service.start config supported stage surroundings =
      .ok (fresh config supported stage surroundings).service := by
  unfold Service.start
  rw [checked]
  rfl

theorem reachable_afterAll {surroundings : Surroundings} {moves : List Move}
    (checked : config.check = .ok ())
    (allowed : (fresh config supported stage surroundings).AllowsAll moves) :
    Reachable config supported stage
      ((fresh config supported stage surroundings).afterAll moves) :=
  ⟨surroundings, _, start_of_checked checked surroundings, run_afterAll allowed⟩

/-! ## What taking an occurrence comes to -/

/-- Taking an occurrence moves something, begins a deed, or goes on with the latest one. -/
inductive Took (a : Account) : Account → Prop
  | moved (s : Service) (idle : a.service.work = none) (prepared : a.service.Prepared (s, none)) :
      Took a { a with service := s }
  | began (s t : Service) (job : Job) (world : World) (idle : a.service.work = none)
      (prepared : a.service.Prepared (s, some job))
      (calls : world.calls = (Signal.calls (Deed.begin job s).turns).reverse ++ s.world.calls)
      (performed : s.Performed job.purpose world (Deed.begin job s).rest t) :
      Took a ⟨t, a.sent, .begin job s :: a.deeds⟩
  | continued (d : Deed) (earlier : List Deed) (time : Nat) (t : Service) (world w : World)
      (deeds : a.deeds = d :: earlier) (busy : a.service.work = some ⟨d.purpose, time, d.rest⟩)
      (calls : world.calls =
        (Signal.calls (turnsTaken d.rest w)).reverse ++ a.service.world.calls)
      (performed :
        { a.service with work := none }.Performed d.purpose world (d.resume w).rest t) :
      Took a ⟨t, a.sent, d.resume w :: earlier⟩

/-- The deeds lead from one interface to another; while there is work, the latest deed waits. -/
inductive Leading (start last : Interface) : List Deed → Option Work → Prop
  | idle {deeds : List Deed} (history : History start deeds last) : Leading start last deeds none
  | busy {d : Deed} {earlier : List Deed} {time : Nat} (history : History start earlier d.found)
      (found : d.found = last) (expected : d.Expected) :
      Leading start last (d :: earlier) (some ⟨d.purpose, time, d.rest⟩)

theorem after_take {a : Account} {occurrence : Service.Occurrence} {s : Service}
    {job : Option Job} (fresh : occurrence ≠ .resume)
    (prepared : a.service.prepare occurrence = (s, job)) :
    a.after (.take occurrence) =
      match job with
      | some job => ⟨s.carryOut job, a.sent, .begin job s :: a.deeds⟩
      | none => { a with service := s } := by
  cases occurrence with
  | resume => exact absurd rfl fresh
  | _ =>
    simp only [after, deedsAfter, Service.take, prepared]
    cases job <;> rfl

theorem took {a : Account} {last : Interface} {occurrence : Service.Occurrence}
    (begun : ∀ l ∈ a.service.loads, l.query ∈ a.service.interface.reporting.inFlight)
    (leading : Leading start last a.deeds a.service.work) (ready : occurrence ∈ a.service.ready) :
    Took a (a.after (.take occurrence)) := by
  by_cases resume : occurrence = .resume
  · subst resume
    obtain ⟨work, busy⟩ := Service.busy_of_resume_mem_ready ready
    obtain ⟨s, sent, deeds⟩ := a
    dsimp only at busy leading ⊢
    rw [busy] at leading
    cases leading with
    | @busy d earlier time history found expected =>
      simp only [after, deedsAfter, Service.take, busy]
      exact .continued d earlier time _ _ s.world rfl busy (calls_proceed _ _)
        (Service.performed _ _ _)
  · have idle := Service.idle_of_mem_ready ready resume
    have prepared := Service.prepared begun ready
    rcases result : a.service.prepare occurrence with ⟨s, job⟩
    rw [result] at prepared
    rw [after_take resume result]
    cases job with
    | none => exact .moved s idle prepared
    | some job => exact .began s _ job _ idle prepared (calls_proceed _ _) (Service.performed _ _ _)

/-! ## Tracking -/

/-- What an account says about the service is so. -/
structure Tracks (start : Interface) (a : Account) : Prop where
  leading : Leading start a.service.interface a.deeds a.service.work
  /-- A query that has reached the device is under way, whatever the present work leaves. -/
  begun : ∀ l ∈ a.service.loads, ∀ i, a.service.Holds i → l.query ∈ i.reporting.inFlight
  calls : a.service.world.calls = a.deeds.flatMap fun d => (Signal.calls d.turns).reverse

theorem Leading.of_performed {d : Deed} {earlier : List Deed} {s t : Service}
    {world : World} (history : History start earlier d.found) (found : d.found = s.interface)
    (expected : d.Expected) (idle : s.work = none)
    (performed : s.Performed d.purpose world d.rest t) :
    Leading start t.interface (d :: earlier) t.work := by
  generalize left : d.rest = rest at performed
  cases performed with
  | ended result =>
    rw [Service.interface_finish, Service.work_finish]
    dsimp only
    rw [idle]
    exact .idle (.cons history expected left)
  | waits time rest =>
    subst left
    exact .busy history found expected

theorem Leading.of_idle {last : Interface} {deeds : List Deed}
    (leading : Leading start last deeds none) : History start deeds last := by
  cases leading with
  | idle history => exact history

theorem Leading.of_busy {last : Interface} {d : Deed} {earlier : List Deed} {work : Work}
    (leading : Leading start last (d :: earlier) (some work)) :
    History start earlier d.found ∧ d.found = last ∧ d.Expected := by
  cases leading with
  | busy history found expected => exact ⟨history, found, expected⟩

theorem Tracks.initial {service : Service} (here : service.interface = start)
    (idle : service.work = none) (unloaded : service.loads = [])
    (quiet : service.world.calls = []) : Tracks start { service } where
  leading := by
    rw [here, idle]
    exact .idle .nil
  begun := by simp [unloaded]
  calls := quiet

theorem Tracks.took {a b : Account} (tracks : a.Tracks start)
    (took : a.Took b) : b.Tracks start := by
  obtain ⟨leading, begun, called⟩ := tracks
  cases took with
  | moved s idle prepared =>
    obtain ⟨interface, work, -, calls⟩ := prepared.untouched
    refine ⟨by rwa [interface, work], ?_, calls.trans called⟩
    intro l mem i holds
    have here : i = a.service.interface := (holds.of_idle (work.trans idle)).trans interface
    rw [here]
    cases prepared with
    | query query arrival world pending calls =>
      rcases List.mem_append.1 mem with old | new
      · exact begun l old _ a.service.holds_interface
      · obtain rfl := List.mem_singleton.1 new
        exact pending
    | _ => exact begun l mem _ a.service.holds_interface
  | began s t job world idle prepared calls performed =>
    obtain ⟨interface, work, -, kept⟩ := prepared.untouched
    rw [idle] at leading
    have history := leading.of_idle
    have found : (Deed.begin job s).found = a.service.interface := interface
    have expected : (Deed.begin job s).Expected := by
      intro query answered
      rw [found]
      exact prepared.expected answered
    refine ⟨.of_performed (by rwa [found]) rfl expected (work.trans idle) performed, ?_, ?_⟩
    · intro l mem i holds
      rw [performed.loads_eq] at mem
      obtain ⟨old, other⟩ := prepared.loads mem
      have pending := begun l old _ a.service.holds_interface
      rcases performed.holds (work.trans idle) holds with here | ⟨turns, answer, ends⟩
      · rwa [here, interface]
      · have leaves : (Deed.begin job s).Leaves i := ⟨turns, answer, ends⟩
        refine (Deed.becomes_of_leaves leaves expected).mem_inFlight ?_ other
        rwa [found]
    · rw [performed.world_eq, calls, kept, called]
      rfl
  | continued d earlier time t world w deeds busy calls performed =>
    rw [deeds, busy] at leading
    obtain ⟨history, found, expected⟩ := leading.of_busy
    have resumed : Leading start t.interface (d.resume w :: earlier) t.work :=
      .of_performed (d := d.resume w) (s := { a.service with work := none })
        history found expected rfl performed
    refine ⟨resumed, ?_, ?_⟩
    · intro l mem i holds
      rw [performed.loads_eq] at mem
      apply begun l mem i
      rcases performed.holds rfl holds with here | ⟨turns, answer, ends⟩
      · exact .inl here
      · exact .inr ⟨_, _, answer, busy, (leads_proceed _ _).trans ends⟩
    · rw [performed.world_eq, calls, called, deeds]
      simp [Deed.resume]

theorem Tracks.takes {a : Account} {occurrence : Service.Occurrence}
    (tracks : a.Tracks start) (ready : occurrence ∈ a.service.ready) :
    Took a (a.after (.take occurrence)) :=
  Account.took (fun l mem => tracks.begun l mem _ a.service.holds_interface) tracks.leading ready

theorem Tracks.after {a : Account} {m : Move} (tracks : a.Tracks start)
    (allowed : a.Allows m) : (a.after m).Tracks start := by
  cases m with
  | send caller request =>
    simp only [Account.after, Service.send]
    split
    · exact ⟨tracks.leading, tracks.begun, tracks.calls⟩
    · exact ⟨tracks.leading, tracks.begun, tracks.calls⟩
  | take occurrence => exact tracks.took (tracks.takes allowed)
  | _ => exact ⟨tracks.leading, tracks.begun, tracks.calls⟩

theorem Run.tracks {a b : Account} (run : Run a b) (tracks : a.Tracks start) :
    b.Tracks start := by
  induction run with
  | refl => exact tracks
  | step _ allowed ih => exact ih.after allowed

theorem service_of_start {surroundings : Surroundings} {service : Service}
    (started : Service.start config supported stage surroundings = .ok service) :
    service = (fresh config supported stage surroundings).service := by
  unfold Service.start at started
  cases checked : config.check with
  | error defect =>
    rw [checked] at started
    cases started
  | ok =>
    rw [checked] at started
    exact (Except.ok.inj started).symm

theorem Reachable.run {a b : Account}
    (reachable : Reachable config supported stage a) (run : Run a b) :
    Reachable config supported stage b := by
  obtain ⟨surroundings, service, started, before⟩ := reachable
  exact ⟨surroundings, service, started, before.trans run⟩

theorem Reachable.induct {motive : (a : Account) → Reachable config supported stage a → Prop}
    (fresh : ∀ surroundings reachable,
      motive (fresh config supported stage surroundings) reachable)
    (step : ∀ {a : Account} {m : Move} (reachable : Reachable config supported stage a)
      (allowed : a.Allows m), motive a reachable →
        motive (a.after m) (reachable.run (Run.refl.step allowed)))
    {a : Account} (reachable : Reachable config supported stage a) : motive a reachable := by
  obtain ⟨surroundings, service, started, run⟩ := reachable
  obtain rfl := service_of_start started
  induction run with
  | refl => exact fresh surroundings _
  | step run allowed ih => exact step ⟨surroundings, _, started, run⟩ allowed ih

theorem Reachable.tracks {a : Account}
    (reachable : Reachable config supported stage a) : a.Tracks (.fresh config supported) := by
  obtain ⟨surroundings, service, started, run⟩ := reachable
  obtain rfl := service_of_start started
  exact run.tracks (.initial rfl rfl rfl rfl)

/-- Between operations, the deeds lead to the interface. -/
theorem Reachable.history {a : Account}
    (reachable : Reachable config supported stage a) (idle : a.service.work = none) :
    History (.fresh config supported) a.deeds a.service.interface := by
  have leading := reachable.tracks.leading
  rw [idle] at leading
  exact leading.of_idle

/-! ## Moments -/

/-- The deeds that have ended and the interface they lead to, as things stand or as the work under
way may end. -/
inductive Moment (a : Account) : List Deed → Interface → Prop
  | idle (idle : a.service.work = none) : Moment a a.deeds a.service.interface
  | before (d : Deed) (earlier : List Deed) (deeds : a.deeds = d :: earlier)
      (busy : a.service.work ≠ none) : Moment a earlier a.service.interface
  | ended (d : Deed) (earlier : List Deed) (deeds : a.deeds = d :: earlier)
      (busy : a.service.work ≠ none) {more : List Turn} {i : Interface} {answer : Answer}
      (ends : d.rest.Ends more (i, answer)) : Moment a (d.endedBy ends :: earlier) i

/-- A deed that has ended has begun, and may have taken more turns since. -/
theorem Moment.begun {a : Account} {deeds : List Deed} {i : Interface} (moment : a.Moment deeds i) :
    ∀ d ∈ deeds, ∃ e ∈ a.deeds, ∃ more, d.purpose = e.purpose ∧ d.operation = e.operation ∧
      d.found = e.found ∧ d.turns = e.turns ++ more := by
  have self {e : Deed} (mem : e ∈ a.deeds) :
      ∃ f ∈ a.deeds, ∃ more, e.purpose = f.purpose ∧ e.operation = f.operation ∧
        e.found = f.found ∧ e.turns = f.turns ++ more :=
    ⟨e, mem, [], rfl, rfl, rfl, (List.append_nil _).symm⟩
  cases moment with
  | idle => exact fun d mem => self mem
  | before d earlier deeds => exact fun e mem => self (by simp [deeds, mem])
  | ended d earlier deeds busy ends =>
    refine List.forall_mem_cons.2 ⟨⟨d, by simp [deeds], _, rfl, rfl, rfl, rfl⟩, fun e mem => ?_⟩
    exact self (by simp [deeds, mem])

/-- At every moment, the deeds that have ended lead to the interface. -/
theorem Reachable.history_of_moment {a : Account} {deeds : List Deed} {i : Interface}
    (reachable : Reachable config supported stage a) (moment : a.Moment deeds i) :
    History (.fresh config supported) deeds i := by
  have leading := reachable.tracks.leading
  cases moment with
  | idle idle =>
    rw [idle] at leading
    exact leading.of_idle
  | before d _ at_work busy =>
    obtain ⟨work, busy⟩ := Option.ne_none_iff_exists'.1 busy
    rw [at_work, busy] at leading
    obtain ⟨history, found, -⟩ := leading.of_busy
    rwa [← found]
  | ended d _ at_work busy ends =>
    obtain ⟨work, busy⟩ := Option.ne_none_iff_exists'.1 busy
    rw [at_work, busy] at leading
    obtain ⟨history, found, expected⟩ := leading.of_busy
    exact .cons (d := d.endedBy ends) history expected rfl

/-- Each deed, also one under way, has found what the deeds before it led to. -/
theorem Reachable.found {a : Account} {later earlier : List Deed} {d : Deed}
    (reachable : Reachable config supported stage a) (deeds : a.deeds = later ++ d :: earlier) :
    History (.fresh config supported) earlier d.found ∧ d.Expected := by
  have leading := reachable.tracks.leading
  rw [deeds] at leading
  generalize a.service.work = work at leading
  cases work with
  | none =>
    obtain ⟨left, answer, before, expected, -⟩ := leading.of_idle.at_deed
    exact ⟨before, expected⟩
  | some work =>
    cases later with
    | nil =>
      obtain ⟨before, -, expected⟩ := leading.of_busy
      exact ⟨before, expected⟩
    | cons latest later =>
      obtain ⟨whole, -, -⟩ := leading.of_busy
      obtain ⟨left, answer, before, expected, -⟩ := whole.at_deed
      exact ⟨before, expected⟩

theorem Reachable.found_latest {a : Account} {earlier : List Deed} {d : Deed}
    (reachable : Reachable config supported stage a) (deeds : a.deeds = d :: earlier) :
    History (.fresh config supported) earlier d.found := by
  have latest : a.deeds = [] ++ d :: earlier := deeds
  exact (reachable.found latest).1

/-! ## Going on -/

/-- What has ended stays as it is, and something is added before anything is under way. -/
theorem Run.deeds_later {a b : Account} (run : Run a b) (tracks : a.Tracks start)
    (idle : a.service.work = none) :
    ∃ later, b.deeds = later ++ a.deeds ∧ (b.service.work ≠ none → later ≠ []) := by
  induction run with
  | refl => exact ⟨[], rfl, fun busy => absurd idle busy⟩
  | @step b m run allowed ih =>
    obtain ⟨later, deeds, more⟩ := ih
    cases m with
    | send caller request =>
      refine ⟨later, deeds, ?_⟩
      simp only [Account.after, Service.send]
      split
      · exact more
      · exact more
    | take occurrence =>
      have took := (run.tracks tracks).takes allowed
      generalize b.after (.take occurrence) = c at took
      cases took with
      | moved s idle prepared =>
        have still : s.work = none := prepared.untouched.work.trans idle
        exact ⟨later, deeds, fun busy => absurd still busy⟩
      | began s t job => exact ⟨.begin job s :: later, by simp [deeds], nofun⟩
      | continued d earlier time t world w found busy =>
        cases later with
        | nil => exact absurd rfl (more (by simp [busy]))
        | cons e later =>
          obtain ⟨-, rest⟩ := List.cons.inj (found.symm.trans deeds)
          exact ⟨d.resume w :: later, by simp [rest], nofun⟩
    | _ => exact ⟨later, deeds, more⟩

/-- From one rest to a later one, there is a history. -/
theorem Run.history {a b : Account} (run : Run a b) (tracks : a.Tracks start)
    (idle : a.service.work = none) (still : b.service.work = none) :
    ∃ later,
      b.deeds = later ++ a.deeds ∧ History a.service.interface later b.service.interface := by
  obtain ⟨later, deeds, -⟩ := run.deeds_later tracks idle
  have first := tracks.leading
  have whole := (run.tracks tracks).leading
  rw [idle] at first
  rw [still, deeds] at whole
  obtain ⟨middle, here, onward⟩ := whole.of_idle.split
  obtain rfl := here.unique first.of_idle
  exact ⟨later, deeds, onward⟩

end Account

end Modem.Session
