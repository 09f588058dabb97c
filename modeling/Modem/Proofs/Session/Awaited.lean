import Modem.Proofs.Session.Near

/-! # Requests that are awaited

Where each request is awaited before the next one is sent, the service adds nothing to what requests
come to that act on the interface directly. While a request waits in the service, only that request
is missing. -/

namespace Modem.Session

open Signal

/-! ## A request that waits -/

namespace Service

variable {s : Service}

/-- A request waits in the service, and nothing else does. -/
inductive Waits (s : Service) (caller : Nat) (request : Request) : Prop
  | queued (queue : s.queue = [⟨caller, request⟩]) (checks : s.checks = [])
  | aside (rate : UInt32) (who : Requester) (setup : request = .setup rate who)
      (queue : s.queue = []) (checks : s.checks = [⟨caller, rate, who, none⟩])

theorem unanswered_of_rest (idle : s.work = none) (queue : s.queue = []) (checks : s.checks = []) :
    s.unanswered = [] := by
  simp [unanswered, idle, queue, checks]

theorem Waits.unanswered {caller : Nat} {request : Request} (waits : s.Waits caller request) :
    s.unanswered ≠ [] := by
  cases waits with
  | queued queue checks => simp [Service.unanswered, queue]
  | aside rate who setup queue checks => simp [Service.unanswered, checks]

/-- Something is ready as long as the request waits. -/
theorem Waits.ready {caller : Nat} {request : Request} (waits : s.Waits caller request)
    (brisk : s.Brisk) : s.ready ≠ [] := by
  cases waits with
  | queued queue checks =>
    simp [Service.ready, brisk.idle, brisk.serving, readyRequest, queue]
  | aside rate who setup queue checks =>
    have check : .check caller ∈ s.readyChecks :=
      mem_readyChecks_iff.2 ⟨⟨caller, rate, who, none⟩, rfl, .inr (by rw [checks]; rfl)⟩
    intro nothing
    have mem : .check caller ∈ s.ready := by
      simp only [Service.ready, brisk.idle, brisk.serving, List.mem_append]
      exact .inl (.inl (.inl (.inr check)))
    rw [nothing] at mem
    cases mem

end Service

/-! ## Accounts -/

def Move.isTake : Move → Bool
  | .take _ => true
  | _ => false

namespace Account

variable {config : Config} {supported : Bool} {outcomes : List (Option Fault)}
  {a b before : Account} {caller : Nat} {request : Request} {moves others : List Move}

/-- A request is sent that acts on the interface, and it is carried out. -/
def directly (b : Account) (caller : Nat) (request : Request) : Account :=
  (b.after (.send caller request)).after (.take .request)

/-- Requests act on the interface, and each has been answered. -/
structure Direct (b : Account) : Prop where
  direct : b.service.stage = .direct
  queue : b.service.queue = []
  checks : b.service.checks = []
  idle : b.service.work = none
  prompt : b.service.world.surroundings.Prompt
  told : b.service.replies.map Reply.caller = b.sent.map Queued.caller

theorem Direct.service_directly (direct : b.Direct) (caller : Nat) (request : Request) :
    (b.directly caller request).service =
      b.service.perform (.answer caller) (b.service.interface.serve request) :=
  Service.take_send_of_direct direct.direct direct.queue caller request

theorem Direct.directly (direct : b.Direct) (caller : Nat) (request : Request) :
    (b.directly caller request).Direct := by
  have same := direct.service_directly caller request
  obtain ⟨result, goes⟩ := Service.perform_of_prompt direct.prompt (.answer caller)
    (b.service.interface.serve request)
  obtain ⟨stage, queue, checks, idle, prompt, told⟩ := direct
  have surroundings : (proceed (b.service.interface.serve request) b.service.world).1.surroundings =
      b.service.world.surroundings := surroundings_proceed _ _
  rw [goes] at same
  constructor
  · rw [same]
    exact stage
  · rw [same]
    exact queue
  · rw [same]
    exact checks
  · rw [same]
    exact idle
  · rw [same]
    exact surroundings ▸ prompt
  · rw [same]
    exact congrArg (caller :: ·) told

/-- Where requests act on the interface, an account has got as far as the account of the service
will have when what waits has been answered. -/
inductive Meets (outcomes : List (Option Fault)) (a b : Account) : Prop
  | rest (queue : a.service.queue = []) (checks : a.service.checks = [])
      (beside : a.service.settled.Beside (directed outcomes) b.service) (sent : b.sent = a.sent)
  | waits (before : Account) (caller : Nat) (request : Request) (direct : before.Direct)
      (waits : a.service.Waits caller request)
      (beside : a.service.settled.Beside (directed outcomes) before.service)
      (sent : a.sent = ⟨caller, request⟩ :: before.sent)
      (ahead : b = before.directly caller request) : Meets outcomes a b

theorem Meets.unanswered (meets : a.Meets outcomes b) (answered : a.service.unanswered = []) :
    a.service.queue = [] ∧ a.service.checks = [] ∧
      a.service.settled.Beside (directed outcomes) b.service ∧ b.sent = a.sent := by
  cases meets with
  | rest queue checks beside sent => exact ⟨queue, checks, beside, sent⟩
  | waits before caller request direct waits => exact absurd answered waits.unanswered

/-- What is sent waits in the service. -/
theorem Meets.send (meets : a.Meets outcomes b) (brisk : a.service.Brisk) (direct : b.Direct)
    (answered : a.service.unanswered = []) (caller : Nat) (request : Request) :
    (a.after (.send caller request)).Meets outcomes (b.directly caller request) := by
  obtain ⟨queue, checks, beside, sent⟩ := meets.unanswered answered
  have goes : a.service.send caller request = { a.service with queue := [⟨caller, request⟩] } := by
    simp only [Service.send, brisk.serving, queue, List.nil_append]
  refine .waits b caller request direct ?_ ?_ (congrArg _ sent.symm) rfl
  · exact .queued (congrArg Service.queue goes) ((congrArg Service.checks goes).trans checks)
  · have same : (a.service.send caller request).settled = a.service.settled := by
      rw [goes]
      rfl
    exact same ▸ beside

theorem Meets.surround (meets : a.Meets outcomes b) (answered : a.service.unanswered = [])
    {s t : Surroundings} (kin : s.Kin t) :
    (a.after (.surround s)).Meets outcomes (b.after (.surround t)) := by
  obtain ⟨queue, checks, beside, sent⟩ := meets.unanswered answered
  exact .rest queue checks (beside.surround kin) sent

theorem Meets.load (meets : a.Meets outcomes b) (brisk : a.service.Brisk) {query : Query}
    (ready : .load query ∈ a.service.ready) :
    (a.after (.take (.load query))).Meets outcomes b := by
  have tends := brisk.tends outcomes ready
  have queue : (a.service.take (.load query)).queue = a.service.queue := tends.queue
  have checks : (a.service.take (.load query)).checks = a.service.checks := tends.checks
  cases meets with
  | rest empty none beside sent =>
    exact .rest (queue.trans empty) (checks.trans none) (beside.load brisk ready) sent
  | waits before caller request direct waits beside sent ahead =>
    refine .waits before caller request direct ?_ (beside.load brisk ready) sent ahead
    cases waits with
    | queued one none => exact .queued (queue.trans one) (checks.trans none)
    | aside rate who setup empty one =>
      exact .aside rate who setup (queue.trans empty) (checks.trans one)

/-- A request from the queue is carried out, or set aside. -/
theorem Meets.of_queued (brisk : a.service.Brisk) (direct : before.Direct)
    (one : a.service.queue = [⟨caller, request⟩]) (none : a.service.checks = [])
    (beside : a.service.settled.Beside (directed outcomes) before.service)
    (sent : a.sent = ⟨caller, request⟩ :: before.sent)
    (known : (directed outcomes).ahead (a.after (.take .request)).service.world
      (before.directly caller request).service.world) :
    (a.after (.take .request)).Meets outcomes (before.directly caller request) := by
  have taken := brisk.taken_request one
  have goes := direct.service_directly caller request
  have became : (a.after (.take .request)).service = a.service.take .request := rfl
  rw [became, goes] at known
  generalize a.service.take .request = t at taken became known
  cases taken with
  | served _ _ rest queue =>
    obtain ⟨same, rfl⟩ := List.cons.inj (queue.symm.trans one)
    cases same
    refine .rest ?_ ?_ ?_ sent.symm
    · rw [became, Service.queue_carryOut]
    · rw [became, Service.checks_carryOut, none]
    · rw [became, goes]
      exact beside.served known
  | setAside _ rate who rest line queue =>
    obtain ⟨same, rfl⟩ := List.cons.inj (queue.symm.trans one)
    cases same
    refine .waits before caller _ direct ?_ ?_ sent rfl
    · rw [became]
      exact .aside rate who rfl rfl (by rw [none]; rfl)
    · rw [became]
      exact beside.setAside line

/-- The authorization of a Setup request ends as soon as it begins. -/
theorem Meets.of_aside (brisk : a.service.Brisk) (direct : before.Direct) {rate : UInt32}
    {who : Requester} (empty : a.service.queue = [])
    (one : a.service.checks = [⟨caller, rate, who, none⟩])
    (beside : a.service.settled.Beside (directed outcomes) before.service)
    (sent : a.sent = ⟨caller, .setup rate who⟩ :: before.sent)
    (known : (directed outcomes).ahead (a.after (.take (.check caller))).service.world
      (before.directly caller (.setup rate who)).service.world) :
    (a.after (.take (.check caller))).Meets outcomes
      (before.directly caller (.setup rate who)) := by
  let c : Check := ⟨caller, rate, who, none⟩
  have found : (a.service.checks.find? fun d => d.caller = c.caller) = some c := by
    simp [one, c]
  have goes := direct.service_directly caller (.setup rate who)
  have became : (a.after (.take (.check caller))).service = _ := brisk.take_check found
  rw [became, goes] at known
  refine .rest ?_ ?_ ?_ sent.symm
  · rw [became, Service.queue_carryOut]
    exact empty
  · rw [became, Service.checks_carryOut, one]
    simp [c]
  · rw [became, goes]
    exact beside.checked direct.prompt known

/-- Whatever the service takes, it gets to the same. -/
theorem Meets.take (meets : a.Meets outcomes b) (brisk : a.service.Brisk)
    {occurrence : Service.Occurrence} (ready : occurrence ∈ a.service.ready)
    (known : (directed outcomes).ahead (a.after (.take occurrence)).service.world b.service.world) :
    (a.after (.take occurrence)).Meets outcomes b := by
  rcases (brisk.taken ready).occurs with ⟨rfl, waiting⟩ | ⟨c, pending, rfl⟩ | ⟨query, rfl⟩
  · cases meets with
    | rest empty => exact absurd empty waiting
    | waits before caller request direct waits beside sent ahead =>
      subst ahead
      cases waits with
      | queued one none => exact .of_queued brisk direct one none beside sent known
      | aside rate who setup empty => exact absurd empty waiting
  · cases meets with
    | rest empty none =>
      rw [none] at pending
      cases pending
    | waits before caller request direct waits beside sent ahead =>
      subst ahead
      cases waits with
      | queued one none =>
        rw [none] at pending
        cases pending
      | aside rate who setup empty one =>
        subst setup
        rw [one] at pending
        obtain rfl := List.mem_singleton.1 pending
        exact .of_aside brisk direct empty one beside sent known
  · exact meets.load brisk ready

/-! ## Awaited requests -/

/-- While an answer is awaited, the service takes what is ready, and nothing else happens. -/
def Awaits (a : Account) : List Move → Prop
  | [] => True
  | m :: rest => (m.isTake = true ∨ a.service.unanswered = []) ∧ (a.after m).Awaits rest

instance decidableAwaits (a : Account) : (moves : List Move) → Decidable (a.Awaits moves)
  | [] => inferInstanceAs (Decidable True)
  | m :: rest =>
    have := decidableAwaits (a.after m) rest
    inferInstanceAs
      (Decidable ((m.isTake = true ∨ a.service.unanswered = []) ∧ (a.after m).Awaits rest))

/-- The same requests go through a service or act on the interface, in surroundings that are related
and in which only the device takes its time. -/
inductive Directly : List Move → List Move → Prop
  | nil : Directly [] []
  | send (caller : Nat) (request : Request) {moves others : List Move}
      (rest : Directly moves others) :
      Directly (.send caller request :: moves)
        (.send caller request :: .take .request :: others)
  | surround {s t : Surroundings} (kin : s.Kin t) (prompt : s.Prompt) {moves others : List Move}
      (rest : Directly moves others) : Directly (.surround s :: moves) (.surround t :: others)
  | take (occurrence : Service.Occurrence) {moves others : List Move}
      (rest : Directly moves others) : Directly (.take occurrence :: moves) others

theorem Reachable.brisk_take {occurrence : Service.Occurrence}
    (reachable : Reachable config supported .serving a) (brisk : a.service.Brisk)
    (ready : occurrence ∈ a.service.ready) : (a.after (.take occurrence)).service.Brisk := by
  have idle := ((brisk.taken ready).idles brisk ready).idle
  exact brisk.take ready (reachable.early (m := .take occurrence) ready nofun brisk.early idle)

/-- What is kept by each awaited move. -/
structure Together (config : Config) (supported : Bool) (outcomes : List (Option Fault))
    (a b : Account) : Prop where
  reachable : Reachable config supported .serving a
  brisk : a.service.Brisk
  direct : b.Direct
  meets : a.Meets outcomes b

namespace Together

theorem send (together : Together config supported outcomes a b)
    (answered : a.service.unanswered = []) (allowed : a.Allows (.send caller request)) :
    Together config supported outcomes (a.after (.send caller request))
      (b.directly caller request) := by
  obtain ⟨reachable, brisk, direct, meets⟩ := together
  have goes : a.service.send caller request =
      { a.service with queue := a.service.queue ++ [⟨caller, request⟩] } := by
    simp only [Service.send, brisk.serving]
  refine ⟨reachable.run (Run.refl.step allowed), ?_, direct.directly caller request,
    meets.send brisk direct answered caller request⟩
  obtain ⟨⟨serving, isOpen, idle, unasked⟩, prompt, early, queries⟩ := brisk
  simp only [after, goes]
  exact ⟨⟨serving, isOpen, idle, unasked⟩, prompt, early,
    ⟨queries.numbered, queries.asked, queries.work⟩⟩

theorem surround (together : Together config supported outcomes a b)
    (answered : a.service.unanswered = []) {s t : Surroundings} (kin : s.Kin t)
    (prompt : s.Prompt) :
    Together config supported outcomes (a.after (.surround s)) (b.after (.surround t)) := by
  obtain ⟨reachable, brisk, direct, meets⟩ := together
  have allowed : a.Allows (.surround s) := trivial
  refine ⟨reachable.run (Run.refl.step allowed), ?_, ?_, meets.surround answered kin⟩
  · obtain ⟨⟨serving, isOpen, idle, unasked⟩, -, early, queries⟩ := brisk
    exact ⟨⟨serving, isOpen, idle, unasked⟩, prompt, early,
      ⟨queries.numbered, queries.asked, queries.work⟩⟩
  · obtain ⟨direct, queue, checks, idle, -, told⟩ := direct
    exact ⟨direct, queue, checks, idle, kin.prompt prompt, told⟩

theorem take (together : Together config supported outcomes a b)
    {occurrence : Service.Occurrence} (ready : occurrence ∈ a.service.ready)
    (known : (directed outcomes).ahead (a.after (.take occurrence)).service.world
      b.service.world) :
    Together config supported outcomes (a.after (.take occurrence)) b := by
  obtain ⟨reachable, brisk, direct, meets⟩ := together
  have allowed : a.Allows (.take occurrence) := ready
  exact ⟨reachable.run (Run.refl.step allowed), reachable.brisk_take brisk ready, direct,
    meets.take brisk ready known⟩

end Together

/-- What acts on the interface directly can be sent and carried out. -/
theorem Direct.allows_directly (direct : b.Direct) (new : caller ∉ b.sent.map Queued.caller)
    (request : Request) :
    b.AllowsAll [.send caller request, .take .request] := by
  refine ⟨new, ?_, trivial⟩
  have sent : b.service.send caller request =
      { b.service with queue := [⟨caller, request⟩] } := by
    simp only [Service.send, direct.direct, direct.queue, List.nil_append]
  simp only [Allows, after, sent, Service.ready, direct.idle, direct.direct]
  exact Service.mem_readyRequest_iff.2 ⟨rfl, List.cons_ne_nil _ _⟩

/-- Through all moves, what acts on the interface directly is possible, and it comes to what the
service comes to. -/
theorem Directly.together (directly : Directly moves others)
    (together : Together config supported outcomes a b) (allowed : a.AllowsAll moves)
    (awaits : a.Awaits moves)
    (known : (directed outcomes).ahead (a.afterAll moves).service.world
      (b.afterAll others).service.world) :
    b.AllowsAll others ∧
      Together config supported outcomes (a.afterAll moves) (b.afterAll others) := by
  induction directly generalizing a b with
  | nil => exact ⟨trivial, together⟩
  | send caller request rest ih =>
    obtain ⟨new, allowed⟩ := allowed
    obtain ⟨answered, awaits⟩ := awaits
    have answered := answered.resolve_left Bool.false_ne_true
    obtain ⟨possible, last⟩ := ih (together.send answered new) allowed awaits known
    obtain ⟨-, -, -, sent⟩ := together.meets.unanswered answered
    have unsent : caller ∉ b.sent.map Queued.caller := by
      rw [sent]
      exact new
    obtain ⟨first, second, -⟩ := together.direct.allows_directly unsent request
    exact ⟨⟨first, second, possible⟩, last⟩
  | surround kin prompt rest ih =>
    obtain ⟨-, allowed⟩ := allowed
    obtain ⟨answered, awaits⟩ := awaits
    have answered := answered.resolve_left Bool.false_ne_true
    obtain ⟨possible, last⟩ := ih (together.surround answered kin prompt) allowed awaits known
    exact ⟨⟨trivial, possible⟩, last⟩
  | take occurrence rest ih =>
    obtain ⟨ready, allowed⟩ := allowed
    have soFar := (directed outcomes).earlier known
      (journal_afterAll (a.after (.take occurrence)) _) (journal_afterAll b _)
    exact ih (together.take ready soFar) allowed awaits.2 known

/-! ## What a service adds -/

/-- Each request has been answered, and the accounts are the same but for what is shown, for what
has been published and asked of the device, and for the log: the status is the same, and the same
has been replied, created, called and authorized. -/
structure Same (a b : Account) : Prop where
  answered : a.service.replies.map Reply.caller = a.sent.map Queued.caller
  replies : b.service.replies = a.service.replies
  status : b.service.interface.status =
    { a.service.interface.status with shown := b.service.interface.status.shown }
  said : b.service.world.said Event.controlled = a.service.world.said Event.controlled

theorem Together.same (together : Together config supported outcomes a b)
    (answered : a.service.unanswered = []) : Same a b := by
  obtain ⟨-, -, beside, sent⟩ := together.meets.unanswered answered
  have replies : b.service.replies = a.service.replies := beside.replies
  have near : a.service.world.Near b.service.world := beside.worlds
  refine ⟨?_, replies, beside.interface.status, near.said⟩
  rw [← replies, ← sent]
  exact together.direct.told

/-- As long as something waits for an answer, the service has something to do. -/
theorem Together.ready (together : Together config supported outcomes a b)
    (waiting : a.service.unanswered ≠ []) : a.service.ready ≠ [] := by
  obtain ⟨-, brisk, -, meets⟩ := together
  cases meets with
  | rest queue checks => exact absurd (Service.unanswered_of_rest brisk.idle queue checks) waiting
  | waits before caller request direct waits => exact waits.ready brisk

/-- However a service goes on by itself, it comes to rest. -/
theorem length_le_toil {occurrences : List Service.Occurrence}
    (reachable : Reachable config supported .serving a) (brisk : a.service.Brisk)
    (allowed : a.AllowsAll (occurrences.map .take)) : occurrences.length ≤ a.service.toil := by
  induction occurrences generalizing a with
  | nil => exact Nat.zero_le _
  | cons occurrence rest ih =>
    obtain ⟨ready, allowed⟩ := allowed
    have less := brisk.toil_lt ready
    have later := reachable.run (Run.refl.step (m := .take occurrence) ready)
    have more := ih later (reachable.brisk_take brisk ready) allowed
    exact Nat.lt_of_le_of_lt more less

theorem together_fresh {s t : Surroundings} (checked : config.check = .ok ()) (kin : s.Kin t)
    (prompt : s.Prompt) :
    Together config supported outcomes (fresh config supported .serving s)
      (fresh config supported .direct t) := by
  have worlds : World.Near { surroundings := s } { surroundings := t } := ⟨rfl, kin, rfl, rfl, rfl⟩
  have queries : (fresh config supported .serving s).service.Queries :=
    ⟨Reporting.numbered_initial _ _, nofun, nofun⟩
  refine ⟨?_, ⟨⟨rfl, rfl, rfl, nofun⟩, prompt, nofun, queries⟩,
    ⟨rfl, rfl, rfl, rfl, kin.prompt prompt, rfl⟩, .rest rfl rfl ?_ rfl⟩
  · exact ⟨s, _, start_of_checked checked s, .refl⟩
  · exact .mk (R := directed outcomes) (s := (fresh config supported .serving s).service.settled)
      worlds (.refl True _) (.inr rfl) .none

/-- Where each request is awaited, a service adds nothing. The bus and the authorizer answer at
once, and the exports come to the same; whatever the device answers, and whenever the service takes
that, the same requests can act on the interface directly, and what they come to is the same
whenever nothing waits for an answer. If something does, the service has something to do, and it
comes to rest after a number of steps that is known beforehand. -/
theorem service_adds_nothing {s t : Surroundings} (checked : config.check = .ok ()) (kin : s.Kin t)
    (prompt : s.Prompt) (directly : Directly moves others)
    (allowed : (fresh config supported .serving s).AllowsAll moves)
    (awaits : (fresh config supported .serving s).Awaits moves)
    (exports :
      ((fresh config supported .serving s).afterAll moves).service.world.exports <:+ outcomes)
    (exportsToo :
      ((fresh config supported .direct t).afterAll others).service.world.exports <:+ outcomes) :
    let a := (fresh config supported .serving s).afterAll moves
    let b := (fresh config supported .direct t).afterAll others
    (fresh config supported .direct t).AllowsAll others ∧ b.service.unanswered = [] ∧
      (a.service.unanswered = [] → Same a b) ∧
      (a.service.unanswered ≠ [] → a.service.ready ≠ []) ∧
      ∀ occurrences : List Service.Occurrence, a.AllowsAll (occurrences.map .take) →
        occurrences.length ≤ a.service.toil := by
  intro a b
  obtain ⟨possible, together⟩ := directly.together (together_fresh checked kin prompt) allowed
    awaits ⟨exports, exportsToo⟩
  have direct := together.direct
  exact ⟨possible, Service.unanswered_of_rest direct.idle direct.queue direct.checks,
    together.same, together.ready,
    fun _ => length_le_toil together.reachable together.brisk⟩

/-- The authorizer refuses one requester. -/
def selective (modem : State) (device : Nat → Response) : Surroundings :=
  { obliging modem {} with
    device
    authorizer := fun _ who =>
      if who = ⟨":1.9"⟩ then { refusal := some (.failed "refused") } else {} }

/-- The service asks its device between the requests and while a request waits, and the modem comes
up between two requests. A Setup request is refused, and another one starts the timer. The other
device is not asked at all. -/
theorem service_among_queries :
    let values : Snapshot := { gsm := some ⟨.zero⟩ }
    let s (modem : State) : Surroundings := selective modem fun _ => { result := .ok values }
    let t (modem : State) : Surroundings :=
      selective modem fun _ => { result := .error (.failed "busy") }
    let moves : List Move := [.send 0 .bringUp, .take .request, .send 1 (.setup 5 ⟨":1.5"⟩),
      .take .request, .take (.check 1), .surround (s .registered), .send 2 .enable, .take .request,
      .send 3 (.setup 7 ⟨":1.9"⟩), .take (.load ⟨0, 0⟩), .take .request, .take (.check 3)]
    let others : List Move := [.send 0 .bringUp, .take .request, .send 1 (.setup 5 ⟨":1.5"⟩),
      .take .request, .surround (t .registered), .send 2 .enable, .take .request,
      .send 3 (.setup 7 ⟨":1.9"⟩), .take .request]
    let a := (fresh {} true .serving (s .disabled)).afterAll moves
    let b := (fresh {} true .direct (t .disabled)).afterAll others
    Same a b ∧ (fresh {} true .direct (t .disabled)).AllowsAll others ∧
      a.service.interface.status.timer = some ⟨0, 5, 5000⟩ ∧
      a.service.interface.status.shown = values ∧ b.service.interface.status.shown = {} := by
  intro values s t moves others a b
  have kin (modem : State) : (s modem).Kin (t modem) := ⟨rfl, rfl, fun _ _ => rfl, fun _ _ => rfl⟩
  have prompt (modem : State) : (s modem).Prompt := by
    refine ⟨fun _ _ => rfl, fun n who => ?_⟩
    by_cases refused : who = ⟨":1.9"⟩ <;> simp [s, selective, refused]
  have directly : Directly moves others :=
    .send _ _ (.take _ (.send _ _ (.take _ (.take _ (.surround (kin _) (prompt _)
      (.send _ _ (.take _ (.send _ _ (.take _ (.take _ (.take _ .nil)))))))))))
  have allowed : (fresh {} true .serving (s .disabled)).AllowsAll moves := by decide +kernel
  have awaits : (fresh {} true .serving (s .disabled)).Awaits moves := by decide +kernel
  have exports : a.service.world.exports <:+ [none] := by decide +kernel
  have exportsToo : b.service.world.exports <:+ [none] := by decide +kernel
  obtain ⟨possible, -, same, -⟩ := service_adds_nothing rfl (kin .disabled) (prompt .disabled)
    directly allowed awaits exports exportsToo
  exact ⟨same (by decide +kernel), possible, by decide +kernel, by decide +kernel,
    by decide +kernel⟩

end Account

end Modem.Session
