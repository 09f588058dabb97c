import Modem.Proofs.Session.Creation
import Modem.Proofs.Session.Finality
import Modem.Proofs.Signal.Settling

/-! # Requests for a rate

A request for a rate, an enable or a granted Setup request, settles reporting at the rate if the
modem is far enough up, whatever timer it finds. Asked again as often as one likes, for as long as
nothing else is done, it changes nothing that anybody could see. -/

namespace Modem.Session

open Signal

namespace Deed

/-- The deed is a granted Setup request for the rate, or an enable that finds it in store. -/
def Asks (d : Deed) (rate : UInt32) : Prop :=
  d.found.reporting.requested? d.turns d.operation = some rate

/-- The deed is a granted Setup request for the rate, or an enable. -/
def Repeats (d : Deed) (rate : UInt32) : Prop :=
  d.operation = .serve .enable ∨ d.operation.granted? d.turns = some rate

instance (d : Deed) (rate : UInt32) : Decidable (d.Asks rate) :=
  inferInstanceAs (Decidable (_ = _))

instance (d : Deed) (rate : UInt32) : Decidable (d.Repeats rate) :=
  match enable : d.operation with
  | .serve .enable => isTrue (.inl enable)
  | .serve .bringUp | .serve .disable | .serve .shutDown | .serve .status | .serve (.setup _ _)
  | .conclude _ _ | .tick | .loaded _ _ =>
    decidable_of_iff (d.operation.granted? d.turns = some rate) (by simp [Repeats, enable])

/-- What a request for a rate says to the object is the rate, if it is a Setup request, and that
nothing is available, if the rate is zero. It creates no object. -/
structure Bids (d : Deed) (rate : UInt32) : Prop where
  calls : Signal.calls d.turns =
    (d.operation.granted? d.turns).toList.map .setRate ++ if rate = 0 then [.publish .empty] else []
  creations : Signal.creations d.turns = 0

variable {d : Deed} {rate : UInt32} {i : Interface} {answer : Answer}

theorem Asks.creates (asks : d.Asks rate) : d.creates = false := by
  rw [Asks] at asks
  unfold Deed.creates Interface.createsBy
  split
  next bringUp =>
    rw [bringUp] at asks
    cases asks
  · rfl

theorem Repeats.asks (repeats : d.Repeats rate) (stored : d.found.reporting.rate = rate) :
    d.Asks rate := by
  rcases repeats with enable | granted
  · rw [Asks, enable, ← stored]
    rfl
  · have other : d.operation ≠ .serve .enable := Interface.ne_of_granted granted rfl
    rwa [Asks, Reporting.requested?_of_ne other]

/-- Where the device can be queried, a request for a rate is carried out. -/
theorem Asks.carriedOut (asks : d.Asks rate) (can : d.found.canEnable = true)
    (ended : d.rest = .done (i, answer)) :
    answer = .ok () ∧ d.Bids rate ∧
      ∃ state now, modem? d.turns = some state ∧
        i.reporting = { d.found.reporting with rate }.scheduled state now := by
  obtain ⟨effect, calls⟩ := effect ended
  obtain ⟨ok, scheduled⟩ := effect.of_requested can asks
  refine ⟨ok, ⟨calls.trans (Interface.callsOf_of_requested can asks), ?_⟩, scheduled⟩
  rw [creations_of_ended ended, asks.creates]
  rfl

end Deed

/-! ## Asking again -/

theorem canEnable_of_again {rate : UInt32} {times : Nat} {i j : Interface}
    (same : j.reporting = i.reporting.again rate times) : j.canEnable = i.canEnable := by
  rw [Interface.canEnable, Interface.canEnable, same]
  rfl

/-- However often the rate is asked for again, each time counts as one teardown if the rate is zero,
and nothing else happens. -/
theorem History.repeated {first last : Interface} {later : List Deed} {rate : UInt32}
    (history : History first later last) (can : first.canEnable = true)
    (settled : first.reporting.Settled rate) (repeats : ∀ e ∈ later, e.Repeats rate) :
    last.reporting = first.reporting.again rate later.length ∧
      ∀ e ∈ later, (∃ left, e.rest = .done (left, .ok ())) ∧ e.Bids rate := by
  induction history with
  | nil => exact ⟨(Reporting.again_zero _ _).symm, List.forall_mem_nil _⟩
  | @cons earlier d i answer before expected ended ih =>
    obtain ⟨repeated, repeats⟩ := List.forall_mem_cons.1 repeats
    obtain ⟨found, each⟩ := ih repeats
    have still : d.found.reporting.Settled rate := by
      rw [found]
      exact settled.again _
    have able : d.found.canEnable = true := (canEnable_of_again found).trans can
    have asks := repeated.asks still.stored
    obtain ⟨rfl, bids, state, now, -, scheduled⟩ := asks.carriedOut able ended
    refine ⟨?_, List.forall_mem_cons.2 ⟨⟨⟨i, ended⟩, bids⟩, each⟩⟩
    rw [scheduled, still.scheduled, found, Reporting.again_again, List.length_cons]

/-! ## What is left -/

/-- A request for a rate that has found the modem far enough up leaves no timer if the rate is zero,
and else one at the rate. One query is launched, unless there is nothing to query for or the timer
has been running. -/
structure Converged (rate : UInt32) (before after : Interface) : Prop where
  stored : after.status.rate = rate
  off : rate = 0 → after.status.timer = none
  on : rate ≠ 0 → ∃ timer, after.status.timer = some timer ∧ timer.rate = rate ∧
    timer.period = rate.toNat * 1000
  kept : rate ≠ 0 → before.status.timer.map Timer.rate = some rate →
    after.status.timer = before.status.timer
  queriesStarted : after.status.queriesStarted = before.status.queriesStarted +
    if rate ≠ 0 ∧ before.status.timer.map Timer.rate ≠ some rate then 1 else 0
  inFlight : after.reporting.inFlight = before.reporting.inFlight ++
    if rate ≠ 0 ∧ before.status.timer.map Timer.rate ≠ some rate then
      [⟨before.reporting.queriesStarted, before.reporting.generation⟩] else []

theorem converged_of_scheduled {before after : Interface} {rate : UInt32} {modem : State}
    {now : Nat} (far : modem.isEnablingOrLater = true)
    (supported : before.reporting.supported = true)
    (scheduled : after.reporting = { before.reporting with rate }.scheduled modem now) :
    Converged rate before after := by
  have settled : after.reporting.Settled rate :=
    scheduled ▸ Reporting.settled_scheduled far supported now
  have queries := before.reporting.queries_scheduled rate far supported now
  rw [← scheduled] at queries
  obtain ⟨inFlight, queriesStarted⟩ := queries
  refine ⟨settled.stored, ?_, ?_, ?_, queriesStarted, inFlight⟩
  · intro off
    have stopped := settled.timer
    rw [if_pos off] at stopped
    exact Option.map_eq_none_iff.1 stopped
  · intro on
    obtain ⟨timer, running, same⟩ :=
      Option.map_eq_some_iff.1 (settled.timer.trans (if_neg on))
    exact ⟨timer, running, same, by rw [Timer.period, same]⟩
  · intro on running
    change after.reporting.timer = before.reporting.timer
    rw [scheduled]
    exact Reporting.timer_scheduled_of_running on running

/-- Timer, rate, queries and snapshot are what they were, and unless reporting is off, the queries
under way are as good as before. -/
structure Unmoved (rate : UInt32) (before after : Interface) : Prop where
  timer : after.status.timer = before.status.timer
  stored : after.status.rate = before.status.rate
  queriesStarted : after.status.queriesStarted = before.status.queriesStarted
  shown : after.status.shown = before.status.shown
  inFlight : after.reporting.inFlight = before.reporting.inFlight
  generation : rate ≠ 0 → after.reporting.generation = before.reporting.generation

theorem unmoved_of_again {before after : Interface} {rate : UInt32} {times : Nat}
    (same : after.reporting = before.reporting.again rate times) :
    Unmoved rate before after := by
  constructor
  case generation =>
    intro on
    rw [same, Reporting.again, if_neg on]
    rfl
  all_goals
    simp only [Interface.status, same]
    rfl

namespace Account

variable {config : Config} {stage : Stage} {a : Account}

/-- Once a granted Setup request or an enable has found the modem far enough up, the timer is in
line with the rate. Whatever number of enables and granted Setup requests for the rate follow, with
nothing else in between and however the modem is found, they end well and leave everything as it is.
They say nothing to the object but the rate, once for each Setup request, and that nothing is
available, if the rate is zero. -/
theorem rate_requests_converge (reachable : Reachable config true stage a)
    {later earlier : List Deed} {d : Deed} {rate : UInt32} {modem : State}
    (ended : a.ended = later ++ d :: earlier) (attached : d.found.reporting.attached = true)
    (asks : d.Asks rate) (asked : modem? d.turns = some modem) (far : 5 ≤ modem.code)
    (repeats : ∀ e ∈ later, e.Repeats rate) :
    ∃ left, d.rest = .done (left, .ok ()) ∧ Converged rate d.found left ∧
      Unmoved rate left a.service.interface ∧
      (∀ e ∈ later, ∃ left, e.rest = .done (left, .ok ())) ∧ ∀ e ∈ later ++ [d], e.Bids rate := by
  have whole := reachable.ended
  rw [ended] at whole
  obtain ⟨left, answer, before, expected, done, onward⟩ := whole.at_deed
  have supported : d.found.reporting.supported = true := before.supported_eq
  have can : d.found.canEnable = true := Interface.canEnable_iff.2 ⟨supported, attached⟩
  obtain ⟨rfl, bids, state, now, told, scheduled⟩ := asks.carriedOut can done
  obtain rfl := Option.some.inj (told.symm.trans asked)
  have enough : state.isEnablingOrLater = true := decide_eq_true far
  have settled : left.reporting.Settled rate :=
    scheduled ▸ Reporting.settled_scheduled enough supported now
  have able : left.canEnable = true := by
    refine Interface.canEnable_iff.2 ⟨(History.cons before expected done).supported_eq, ?_⟩
    rwa [scheduled, Reporting.attached_scheduled]
  obtain ⟨same, each⟩ := onward.repeated able settled repeats
  refine ⟨left, done, converged_of_scheduled enough supported scheduled, unmoved_of_again same,
    fun e mem => (each e mem).1, ?_⟩
  intro e mem
  rcases List.mem_append.1 mem with again | first
  · exact (each e again).2
  · obtain rfl := List.mem_singleton.1 first
    exact bids

/-- Ten seconds are set up, five are stored while the modem is down, and an enable finds the modem
up again. With the modem down once more, five seconds are asked for twice. -/
def fiveRepeated : Account :=
  (fresh {} true .serving (obliging .enabled {})).afterAll
    [.send 0 .bringUp, .take .request, .send 1 (.setup 10 ⟨":1.5"⟩), .take .request,
      .take (.check 1), .surround (obliging .disabled {}), .send 2 (.setup 5 ⟨":1.5"⟩),
      .take .request, .take (.check 2), .surround (obliging .enabled {}), .pass 70,
      .send 3 .enable, .take .request, .surround (obliging .disabled {}), .pass 90,
      .send 4 (.setup 5 ⟨":1.5"⟩), .take .request, .take (.check 4), .send 5 .enable,
      .take .request]

/-- Then reporting is turned off, and off again. -/
def zeroRepeated : Account :=
  fiveRepeated.afterAll
    [.surround (obliging .enabled {}), .send 6 (.setup 0 ⟨":1.5"⟩), .take .request,
      .take (.check 6), .send 7 (.setup 0 ⟨":1.5"⟩), .take .request, .take (.check 7)]

theorem reachable_fiveRepeated : Reachable {} true .serving fiveRepeated :=
  reachable_afterAll rfl (by decide +kernel)

theorem eq_take_append_cons {α : Type} (things : List α) {n : Nat} (inside : n < things.length) :
    things = things.take n ++ things[n] :: things.drop (n + 1) := by
  rw [← List.drop_eq_getElem_cons, List.take_append_drop]

/-- The timer at ten seconds has been replaced, and the new one is what it was when it started. Off
for the second time, reporting is only told to be off. -/
theorem rates_of_repeated :
    (∃ left, Converged 5 fiveRepeated.ended[2].found left ∧
      Unmoved 5 left fiveRepeated.service.interface) ∧
    fiveRepeated.service.interface.status.timer = some ⟨1, 5, 5070⟩ ∧
    (∃ left, Converged 0 zeroRepeated.ended[1].found left ∧
      Unmoved 0 left zeroRepeated.service.interface) ∧
    Signal.calls zeroRepeated.ended[0].turns = [.setRate 0, .publish .empty] := by
  have onward : Run fiveRepeated zeroRepeated := run_afterAll (by decide +kernel)
  have asksFive : fiveRepeated.ended[2].Asks 5 := by decide +kernel
  have asksZero : zeroRepeated.ended[1].Asks 0 := by decide +kernel
  have toldFive : modem? fiveRepeated.ended[2].turns = some .enabled := by decide +kernel
  have toldZero : modem? zeroRepeated.ended[1].turns = some .enabled := by decide +kernel
  have five := rate_requests_converge reachable_fiveRepeated
    (eq_take_append_cons fiveRepeated.ended (n := 2) (by decide +kernel)) (by decide +kernel)
    asksFive toldFive (by decide) (by decide +kernel)
  have zero := rate_requests_converge (reachable_fiveRepeated.run onward)
    (eq_take_append_cons zeroRepeated.ended (n := 1) (by decide +kernel)) (by decide +kernel)
    asksZero toldZero (by decide) (by decide +kernel)
  obtain ⟨left, -, converged, unmoved, -⟩ := five
  obtain ⟨off, -, stopped, still, -⟩ := zero
  exact ⟨⟨left, converged, unmoved⟩, by decide +kernel, ⟨off, stopped, still⟩, by decide +kernel⟩

end Account

end Modem.Session
