import Modem.Proofs.Session.Rulings

/-! # Calls on a service at rest

A session at whose service nobody waits answers a Setup request that is awaited, and nobody waits
again. Nor does anybody after a step that asks nothing. -/

namespace Modem.Session

open Signal

/-- The horizon is far beyond the end of what is under way. -/
theorem Service.exists_base (s : Service) :
    ∃ base, s.Until base ∧ base + 4 * s.world.surroundings.patience < s.horizon := by
  have far : 4 * s.world.surroundings.patience <
      16 * (s.world.surroundings.patience + 1) * (s.load + 4) := by
    have least := Nat.mul_le_mul_left (16 * (s.world.surroundings.patience + 1))
      (Nat.le_add_left 4 s.load)
    omega
  unfold horizon
  cases busy : s.work with
  | none =>
    exact ⟨s.now, ⟨Nat.le_refl _, fun work here => by cases busy.symm.trans here⟩,
      Nat.add_lt_add_left far _⟩
  | some work =>
    refine ⟨max s.now work.time, ⟨Nat.le_max_left _ _, fun other here => ?_⟩,
      Nat.add_lt_add_left far _⟩
    obtain rfl := Option.some.inj (busy.symm.trans here)
    exact Nat.le_max_right _ _

theorem Service.interface_send (s : Service) (caller : Nat) (request : Request) :
    (s.send caller request).interface = s.interface := by
  unfold Service.send
  split <;> rfl

theorem Service.surroundings_advance (s : Service) (enough : Service → Bool) (limit n : Nat) :
    (s.advance enough limit n).world.surroundings = s.world.surroundings := by
  induction n generalizing s with
  | zero => rfl
  | succ n ih =>
    unfold advance
    split
    · rfl
    split
    · exact (ih _).trans (s.surroundings_take _)
    split
    · split
      · exact ih _
      · rfl
    · rfl

/-- Nothing that is asked of the service changes its surroundings. -/
theorem surroundings_request (s : Session) (request : Request) :
    (s.step (.request request)).1.service.world.surroundings =
      s.service.world.surroundings := by
  change ((s.service.send s.callers request).await s.callers).settle.world.surroundings = _
  rw [Service.settle, Service.surroundings_advance, Service.await, Service.settle,
    Service.surroundings_advance, Service.surroundings_advance, Service.surroundings_send]

/-- A step that asks nothing of the service, and leaves the surroundings patient. -/
inductive Step.Between : Step → Prop
  | sleep (duration : Nat) : Between (.sleep duration)
  | modem (state : State) : Between (.modem state)
  | device (response : Nat → Response) : Between (.device response)
  | authorizer (verdict : Nat → Requester → Verdict) (patience : Nat)
      (patient : ∀ n who, (verdict n who).delay ≤ patience) : Between (.authorizer verdict patience)
  | bus (delivery : Nat → Call → Delivery) (patience : Nat)
      (patient : ∀ n c, (delivery n c).delay ≤ patience) : Between (.bus delivery patience)

theorem Step.Between.callers {step : Step} (between : step.Between) {s : Session} :
    (s.step step).1.callers = s.callers := by
  cases between with
  | modem state =>
    change (if s.fixedModem then s else s.mapSurroundings _).callers = s.callers
    split <;> rfl
  | _ => rfl

namespace Account

variable {config : Config} {supported : Bool} {stage : Stage} {a : Account} {s : Session}

/-- Nobody has answered a caller that has sent nothing. -/
theorem Reachable.unheard (reachable : Reachable config supported stage a)
    (serving : a.service.stage = .serving) {caller : Nat}
    (new : caller ∉ a.sent.map Queued.caller) : a.service.answerTo? caller = none := by
  rw [Service.answerTo?, Option.map_eq_none_iff, List.find?_eq_none]
  intro reply mem same
  obtain rfl := of_decide_eq_true same
  rcases reachable.replied reply mem with ⟨stopped, -⟩ | ⟨d, left, ended, purpose, -⟩
  · cases serving.symm.trans stopped
  · have owed := reachable.requested.owed d (mem_deeds_of_ended ended)
    rw [purpose] at owed
    exact new owed.caller_mem

/-- A request that is awaited at an available service is handled. -/
theorem Reachable.awaits (reachable : Reachable config supported stage a)
    (available : a.service.Available) {caller : Nat} (new : caller ∉ a.sent.map Queued.caller)
    (rate : UInt32) (who : Requester) :
    let o := a.after (.send caller (.setup rate who))
    Run a o ∧ ∃ b, b.sent = o.sent ∧ b.service = (o.service.await caller).settle ∧
      Handled o b caller rate (a.service.world.verdict who).refusal := by
  intro o
  obtain ⟨serving, isOpen, patient, queue, checks, refreshes⟩ := available
  have run : Run a o := Run.refl.step (m := .send caller (.setup rate who)) new
  have begun := reachable.run run
  have sent : o.service = { a.service with queue := [⟨caller, .setup rate who⟩] } := by
    change a.service.send caller (.setup rate who) = _
    simp only [Service.send, serving, queue, List.nil_append]
  have verdict : o.service.world.verdict who = a.service.world.verdict who := by rw [sent]
  have unheard : o.service.answerTo? caller = none := by
    rw [sent]
    exact reachable.unheard serving new
  have calm : o.service.world.surroundings.Patient := by rw [sent]; exact patient
  obtain ⟨base, soon, far⟩ := o.service.exists_base
  have waits : Phase o caller rate who base o := by
    refine .queued (.refl ?_ ?_) ?_ ?_ rfl ?_ soon
    · rw [sent]; exact serving
    · rw [sent]; exact isOpen
    · rw [sent]
    · rw [sent]; exact checks
    · rw [sent]; exact refreshes
  obtain ⟨b, first, kept, answered, concluded⟩ := waits.concludes begun calm unheard far
  have handled := concluded.handled calm
  obtain ⟨c, second, kept', settled, since, available⟩ :=
    (begun.run first).settles handled.available
  have handled := handled.trans since available
  obtain ⟨d, third, kept'', settled', since, available⟩ :=
    (begun.run handled.run).settles available
  refine ⟨run, d, kept''.trans (kept'.trans kept), ?_, verdict ▸ handled.trans since available⟩
  rw [settled', settled, answered]
  rfl

/-- Sending a request changes nothing yet. -/
theorem Ruled.of_send {b : Account} {caller : Nat} {request : Request} {rate : UInt32}
    {refusal : Option Fault} {told : Option Answer}
    (ruled : Ruled (a.after (.send caller request)) b caller rate refusal told)
    (run : Run a (a.after (.send caller request))) : Ruled a b caller rate refusal told := by
  have found : (a.after (.send caller request)).service.interface = a.service.interface :=
    a.service.interface_send caller request
  have same : (a.after (.send caller request)).ended = a.ended := by
    simp only [ended, after, Service.work_send]
  cases ruled with
  | granted stored => exact .granted stored
  | refused steady rejected =>
    obtain ⟨more, first, last, ended⟩ := rejected
    rw [same] at ended
    exact .refused (found ▸ steady) ⟨run.trans more, first, last, ended⟩

/-- A request that is awaited at an available service is ruled on, and the service is available
again. -/
theorem Follows.asks (follows : a.Follows s) (reachable : Reachable config supported stage a)
    (available : s.service.Available) (exported : s.service.interface.exported = true)
    (rate : UInt32) (who : Requester) :
    let next := s.step (.request (.setup rate who))
    ∃ b, Run a b ∧ b.Follows next.1 ∧ next.1.service.Available ∧
      next.1.service.interface.exported = true ∧
      Ruled a b s.callers rate (s.service.world.verdict who).refusal next.2.answer := by
  intro next
  obtain ⟨same, callers⟩ := follows
  rw [← same] at available exported ⊢
  have new : s.callers ∉ a.sent.map Queued.caller := by
    intro mem
    obtain ⟨q, old, whose⟩ := List.mem_map.1 mem
    have before := callers q old
    omega
  obtain ⟨run, b, sent, settled, handled⟩ := reachable.awaits available new rate who
  have there : b.service = next.1.service := by
    rw [settled]
    change ((a.service.send s.callers (.setup rate who)).await s.callers).settle = _
    rw [same]
    rfl
  have found : (a.after (.send s.callers (.setup rate who))).service.interface =
      a.service.interface := a.service.interface_send s.callers (.setup rate who)
  obtain ⟨exports, ruled⟩ := handled.ruled (reachable.run run) (found ▸ exported)
  have answer : next.2.answer = b.service.answerTo? s.callers := by rw [there]; rfl
  refine ⟨b, run.trans handled.run, ⟨there, fun q mem => ?_⟩, there ▸ handled.available,
    there ▸ exports, ?_⟩
  · rw [sent] at mem
    rcases List.mem_cons.1 mem with rfl | old
    · exact Nat.lt_succ_self _
    · exact Nat.lt_succ_of_lt (callers q old)
  · rw [answer]
    exact ruled.of_send run

/-- A step between calls leaves the service available, and only refreshes end. -/
theorem Follows.acts (follows : a.Follows s) (reachable : Reachable config supported stage a)
    (available : a.service.Available) {step : Step} (between : step.Between) :
    ∃ b, Run a b ∧ b.sent = a.sent ∧ b.service = (s.act step).1.service ∧
      b.service.Available ∧ a.service.interface.Steady b.service.interface := by
  have same := follows.1
  have bus := available.patient.bus
  have authorizer := available.patient.authorizer
  have surround {surroundings : Surroundings} (patient : surroundings.Patient) :
      ∃ b, Run a b ∧ b.sent = a.sent ∧
        b.service = { s.service with world := { s.service.world with surroundings } } ∧
        b.service.Available ∧ a.service.interface.Steady b.service.interface :=
    ⟨a.after (.surround surroundings), Run.refl.step trivial, rfl, by rw [← same]; rfl,
      available.surround patient, .refl _⟩
  rw [same] at bus authorizer
  cases between with
  | sleep duration =>
    obtain ⟨b, run, sent, here, since, available⟩ := reachable.sleeps available duration
    exact ⟨b, run, sent, by rw [here, same]; rfl, available, since.steady reachable⟩
  | modem state =>
    unfold Session.act
    dsimp only
    split
    · exact ⟨a, .refl, rfl, same, available, .refl _⟩
    · exact surround ⟨bus, authorizer⟩
  | device response => exact surround ⟨bus, authorizer⟩
  | authorizer verdict patience prompt =>
    refine surround ⟨fun n c => ?_, fun n who => ?_⟩
    · exact Nat.le_trans (bus n c) (Nat.le_max_left _ _)
    · exact Nat.le_trans (prompt n who) (Nat.le_max_right _ _)
  | bus delivery patience prompt =>
    refine surround ⟨fun n c => ?_, fun n who => ?_⟩
    · exact Nat.le_trans (prompt n c) (Nat.le_max_right _ _)
    · exact Nat.le_trans (authorizer n who) (Nat.le_max_left _ _)

theorem Follows.between (follows : a.Follows s) (reachable : Reachable config supported stage a)
    (available : s.service.Available) {step : Step} (between : step.Between) :
    ∃ b, Run a b ∧ b.Follows (s.step step).1 ∧ (s.step step).1.service.Available ∧
      a.service.interface.Steady b.service.interface := by
  obtain ⟨b, run, sent, here, available, steady⟩ :=
    follows.acts reachable (follows.1 ▸ available) between
  have midway := reachable.run run
  obtain ⟨c, more, kept, there, since, available⟩ := midway.settles available
  have settled : c.service = (s.step step).1.service := by
    rw [there, here]
    rfl
  refine ⟨c, run.trans more, ⟨settled, fun q mem => ?_⟩, settled ▸ available,
    steady.trans (since.steady midway)⟩
  rw [kept, sent] at mem
  exact Nat.lt_of_lt_of_eq (follows.2 q mem) between.callers.symm

end Account

end Modem.Session
