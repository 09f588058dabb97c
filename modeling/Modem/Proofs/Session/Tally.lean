import Modem.Proofs.Session.Numbers

/-! # The tally of queries

A query is launched with every timer that starts and with every tick, and it is under way until its
answer is handled, once. However queries overlap, and whatever is stopped or replaced meanwhile,
those that have been launched are those that have been answered and those that are under way. -/

namespace Modem.Signal

def Operation.isTick : Operation → Bool
  | .tick => true
  | _ => false

theorem Operation.isTick_iff {operation : Operation} :
    operation.isTick = true ↔ operation = .tick := by
  cases operation <;> simp [isTick]

end Modem.Signal

namespace Modem.Session

open Signal

/-! ## Counting deeds -/

namespace Deed

variable {d : Deed} {i : Interface} {answer : Answer}

/-- The deed is the tick of a timer. -/
def ticks (d : Deed) : Bool := d.found.ticksBy d.operation

theorem queriesStarted (ended : d.rest = .done (i, answer)) (sound : d.found.reporting.Sound) :
    i.reporting.queriesStarted =
      d.found.reporting.queriesStarted + d.starts.toNat + d.ticks.toNat :=
  (counts ended sound).queriesStarted

end Deed

namespace History

variable {config : Config} {supported : Bool} {deeds : List Deed} {last : Interface}

theorem queriesStarted (history : History (.fresh config supported) deeds last) :
    last.reporting.queriesStarted = deeds.countP Deed.starts + deeds.countP Deed.ticks := by
  induction history with
  | nil => rfl
  | @cons earlier d i answer before expected ended ih =>
    rw [Deed.queriesStarted ended before.sound, ih, List.countP_cons, List.countP_cons]
    cases d.starts <;> cases d.ticks <;> simp <;> omega

end History

namespace Account

variable {config : Config} {supported : Bool} {stage : Stage} {a : Account} {m : Move}

/-! ## Ticks -/

/-- A tick is handled only while a timer runs. -/
theorem Reachable.running_of_tick (reachable : Reachable config supported stage a) :
    ∀ d ∈ a.deeds, d.operation = .tick → d.found.reporting.timer.isSome = true := by
  induction reachable using Reachable.induct with
  | fresh surroundings _ => exact fun d mem => absurd mem List.not_mem_nil
  | @step a m reachable allowed ih =>
    rcases reachable.goes allowed with ⟨same, -⟩ | ⟨occurrence, d, first, s, x, rfl, goes⟩
    · rw [same]
      exact ih
    · rcases goes.deeds with ⟨-, begun⟩ | ⟨-, e, earlier, before, resumed, -, operation, found⟩
      · rw [begun]
        refine List.forall_mem_cons.2 ⟨fun tick => ?_, ih⟩
        obtain rfl := Move.take.inj (tick_of_goes reachable allowed goes tick)
        obtain ⟨timer, running, -⟩ := timer_of_tick allowed
        rw [goes.found, running]
        rfl
      · rw [before, List.forall_mem_cons] at ih
        rw [resumed]
        refine List.forall_mem_cons.2 ⟨fun tick => ?_, ih.2⟩
        rw [← found]
        exact ih.1 (operation.trans tick)

theorem Reachable.ticks_eq {deeds : List Deed} {i : Interface}
    (reachable : Reachable config supported stage a) (moment : a.Moment deeds i) :
    deeds.countP Deed.ticks = deeds.countP fun d => d.operation.isTick := by
  refine List.countP_congr fun d mem => ?_
  obtain ⟨e, begun, -, -, operation, found, -⟩ := moment.begun d mem
  have running := reachable.running_of_tick e begun
  rw [← operation, ← found] at running
  unfold Deed.ticks Interface.ticksBy
  split
  next tick => simp [tick, running tick, Operation.isTick]
  next other => simpa [Operation.isTick_iff] using other

/-! ## Queries under way -/

/-- A query leaves those under way only when its answer is handled. -/
theorem Reachable.pending_after (reachable : Reachable config supported stage a)
    (allowed : a.Allows m) {query : Query}
    (pending : query ∈ a.service.interface.reporting.inFlight) :
    query ∈ (a.after m).service.interface.reporting.inFlight ∨
      ∃ d result, (a.after m).ended = d :: a.ended ∧ d.operation = .loaded query result := by
  rcases reachable.ends allowed with ⟨same, -⟩ | ⟨d, answer, ended, found, expected, left⟩
  · rw [same]
    exact .inl pending
  by_cases answered : d.operation.answered? = some query
  · refine .inr ⟨d, ?_⟩
    generalize d.operation = operation at answered
    cases operation with
    | loaded other result =>
      obtain rfl := Option.some.inj answered
      exact ⟨result, ended, rfl⟩
    | _ => cases answered
  · rw [← found] at pending
    exact .inl ((Deed.becomes left expected).mem_inFlight pending answered)

/-- At every moment, the queries that have been launched are one for each timer that has started
and one for each tick. Each of them has been answered, once, or is under way, and nothing but the
handling of its answer takes it away. -/
theorem queries_are_accounted_for (reachable : Reachable config supported stage a) :
    (∀ deeds i, a.Moment deeds i →
      i.reporting.timersStarted = deeds.countP Deed.starts ∧
      i.status.queriesStarted =
        deeds.countP Deed.starts + (deeds.countP fun d => d.operation.isTick) ∧
      i.status.queriesStarted = (handled deeds).length + i.reporting.inFlight.length ∧
      (handled deeds ++ i.reporting.inFlight).Nodup ∧
      ((handled deeds ++ i.reporting.inFlight).map Query.number).Perm
        (List.range i.status.queriesStarted)) ∧
    ∀ m, a.Allows m → ∀ query ∈ a.service.interface.reporting.inFlight,
      query ∈ (a.after m).service.interface.reporting.inFlight ∨
        ∃ d result, (a.after m).ended = d :: a.ended ∧ d.operation = .loaded query result := by
  refine ⟨fun deeds i moment => ?_, fun m allowed query => reachable.pending_after allowed⟩
  have history := reachable.history_of_moment moment
  obtain ⟨all, once⟩ := history.accounted
  refine ⟨history.timersStarted, ?_, all, once, history.numbers⟩
  rw [← reachable.ticks_eq moment]
  exact history.queriesStarted

/-- The device is slow to answer the first query, and answers the others at once. A tick, another
rate and the end of reporting come in between. -/
def overlapping : Account :=
  (fresh {} true .serving
    { obliging .enabled {} with
      device := fun count =>
        { delay := if count = 0 then 9000 else 0, result := .ok {} } }).afterAll
    [.send 0 .bringUp, .take .request, .send 1 (.setup 5 ⟨":1.5"⟩), .take .request,
      .take (.check 1), .take (.load ⟨0, 0⟩), .pass 5000, .take .tick, .take (.load ⟨1, 0⟩),
      .send 2 (.setup 3 ⟨":1.5"⟩), .take .request, .take (.check 2), .send 3 .disable,
      .take .request]

theorem reachable_overlapping : Reachable {} true .serving overlapping :=
  reachable_afterAll rfl (by decide +kernel)

theorem tally_of_overlapping :
    handled overlapping.deeds = [⟨1, 0⟩] ∧
      overlapping.service.interface.reporting.inFlight = [⟨0, 0⟩, ⟨2, 0⟩] ∧
      overlapping.deeds.countP Deed.starts +
          (overlapping.deeds.countP fun d => d.operation.isTick) =
        (handled overlapping.deeds).length +
          overlapping.service.interface.reporting.inFlight.length ∧
      ∃ d result, (overlapping.after (.take (.load ⟨2, 0⟩))).ended = d :: overlapping.ended ∧
        d.operation = .loaded ⟨2, 0⟩ result := by
  have idle : overlapping.service.work = none := Option.isNone_iff_eq_none.1 (by decide +kernel)
  have allowed : overlapping.Allows (.take (.load ⟨2, 0⟩)) := by decide +kernel
  obtain ⟨sums, leaves⟩ := queries_are_accounted_for reachable_overlapping
  obtain ⟨-, launched, accounted, -⟩ := sums _ _ (.idle idle)
  have pending := leaves _ allowed ⟨2, 0⟩ (by decide +kernel)
  exact ⟨by decide +kernel, by decide +kernel, launched.symm.trans accounted,
    pending.resolve_left (by decide +kernel)⟩

end Account

end Modem.Session
