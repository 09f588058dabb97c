import Modem.Proofs.Session.Finality
import Modem.Proofs.Session.Instants

/-! # Where there is a timer

A timer runs only on an object that exists, of a device that can be queried, and while the stored
rate is not zero. It starts only at the end of an enable or a granted Setup request that has found
the modem far enough up, at the rate that is in store then, and with one query. -/

namespace Modem.Session

open Signal

/-! ## Running timers -/

/-- What has to be so where a timer runs. -/
structure Admits (i : Interface) (timer : Timer) : Prop where
  rate : 0 < i.status.rate.toNat
  period : 0 < timer.period
  supported : i.status.supported = true
  attached : i.reporting.attached = true
  lifecycle : i.lifecycle = .initialized ∨ i.lifecycle = .enabled ∨ i.lifecycle = .disabled

namespace History

variable {config : Config} {supported : Bool} {deeds : List Deed} {last : Interface}

/-- No timer has no rate. -/
theorem timer_on (history : History (.fresh config supported) deeds last) {timer : Timer}
    (running : last.reporting.timer = some timer) : timer.rate ≠ 0 := by
  refine history.invariant (fun r => ∀ timer, r.timer = some timer → timer.rate ≠ 0) nofun ?_
    timer running
  intro r s answered on becomes timer running
  cases becomes with
  | same => exact on timer running
  | created => exact on timer running
  | torn => cases running
  | rated => exact on timer running
  | started rate now nonzero =>
    simp only [Reporting.started, Reporting.timer_launch, Option.some.injEq] at running
    subst running
    exact nonzero
  | ticked old now ran =>
    rw [Reporting.timer_launch, Option.some.injEq] at running
    subst running
    exact on old ran
  | received query result =>
    rw [Reporting.timer_received] at running
    exact on timer running

theorem admits (history : History (.fresh config supported) deeds last) {timer : Timer}
    (running : last.reporting.timer = some timer) : Admits last timer := by
  have sound := history.sound
  have here : last.reporting.timer ≠ none := by simp [running]
  have attached := sound.attached here
  have positive (rate : UInt32) (on : rate ≠ 0) : 0 < rate.toNat := by
    have nonzero : rate.toNat ≠ 0 := fun zero => on (UInt32.toNat_inj.1 zero)
    omega
  have period := positive _ (history.timer_on running)
  refine ⟨positive _ fun off => here (sound.off off), ?_, sound.supported here, attached, ?_⟩
  · rw [Timer.period]
    omega
  · exact Lifecycle.present_iff.1 (history.coherent.attached_eq ▸ attached)

end History

namespace Account

variable {config : Config} {supported : Bool} {stage : Stage} {a b : Account} {m : Move}

/-! ## The modem -/

/-- While the deed on top of some others was being done, the modem was in a state, and the deed has
been told so. -/
def Told (config : Config) (supported : Bool) (stage : Stage) (a : Account) (d : Deed)
    (earlier : List Deed) (state : State) : Prop :=
  ∃ b m e, Reachable config supported stage b ∧ b.Allows m ∧ Run (b.after m) a ∧
    b.service.world.surroundings.modem = state ∧
    (b.after m).deeds = e :: earlier ∧ .modem state ∈ e.turns ∧
    e.turns <+: d.turns ∧ e.operation = d.operation ∧ e.found = d.found

theorem Told.run {d : Deed} {earlier : List Deed} {state : State}
    (told : Told config supported stage a d earlier state) (run : Run a b) :
    Told config supported stage b d earlier state := by
  obtain ⟨c, m, e, reachable, allowed, before, rest⟩ := told
  exact ⟨c, m, e, reachable, allowed, before.trans run, rest⟩

/-- Whatever a deed is told of the modem is so. -/
theorem Reachable.told_modem (reachable : Reachable config supported stage a) (later : List Deed)
    {earlier : List Deed} {d : Deed} {state : State} (deeds : a.deeds = later ++ d :: earlier)
    (mem : .modem state ∈ d.turns) : Told config supported stage a d earlier state := by
  induction reachable using Reachable.induct generalizing later d with
  | fresh surroundings _ => simp [fresh] at deeds
  | @step a m reachable allowed ih =>
    have moved := Run.refl.step allowed
    rcases reachable.goes allowed with ⟨same, -, -⟩ | ⟨occurrence, e, first, s, x, rfl, goes⟩
    · rw [same] at deeds
      exact (ih _ deeds mem).run moved
    cases later with
    | cons f later =>
      rcases goes.deeds with ⟨-, begun⟩ | ⟨-, g, rest, before, resumed, -⟩
      · obtain ⟨-, old⟩ := List.cons.inj (begun.symm.trans deeds)
        exact (ih _ old mem).run moved
      · obtain ⟨-, old⟩ := List.cons.inj (resumed.symm.trans deeds)
        rw [old] at before
        exact (ih (g :: later) before mem).run moved
    | nil =>
      have here (same : d = e) (taken : .modem state ∈ turnsTaken x s.world) :
          Told config supported stage (a.after (.take occurrence)) d earlier state := by
        have modem := (told_of_mem_turnsTaken taken).2 state rfl
        rw [goes.surroundings] at modem
        exact ⟨a, _, d, reachable, allowed, .refl, modem.symm, deeds, mem, List.prefix_rfl, rfl,
          rfl⟩
      rcases goes.deeds with ⟨rfl, begun⟩ | ⟨-, g, rest, before, resumed, rfl, operation, found⟩
      · obtain ⟨rfl, -⟩ := List.cons.inj (begun.symm.trans deeds)
        rw [goes.turns] at mem
        exact here rfl mem
      · obtain ⟨rfl, rfl⟩ := List.cons.inj (resumed.symm.trans deeds)
        have turns := goes.turns
        rcases List.mem_append.1 (turns ▸ mem) with old | new
        · obtain ⟨b, m, h, from_, possible, run, modem, latest, asked, pre, same, there⟩ :=
            (ih [] before old).run moved
          exact ⟨b, m, h, from_, possible, run, modem, latest, asked,
            pre.trans ⟨_, turns.symm⟩, same.trans operation, there.trans found⟩
        · exact here rfl new

/-! ## Starting timers -/

/-- A timer starts with a move: an enable or a granted Setup request that has found the modem far
enough up ends. The timer runs at the rate that is in store by then, and one query is launched. -/
structure Starts (config : Config) (supported : Bool) (stage : Stage) (a : Account) (m : Move)
    (d : Deed) (earlier : List Deed) : Prop where
  deeds : (a.after m).deeds = d :: earlier
  ended : ∃ answer, d.rest = .done ((a.after m).service.interface, answer)
  requested : d.found.reporting.requested? d.turns d.operation =
    some (a.after m).service.interface.status.rate
  /-- There was no timer at this rate. -/
  other : a.service.interface.reporting.timer.map Timer.rate ≠
    some (a.after m).service.interface.status.rate
  asked : ∃ state, 5 ≤ state.code ∧ modem? d.turns = some state ∧
    Told config supported stage (a.after m) d earlier state
  timer : (a.after m).service.interface.reporting.timer =
    some (.start a.service.interface.reporting.timersStarted
      (a.after m).service.interface.status.rate a.service.now)
  timersStarted : (a.after m).service.interface.reporting.timersStarted =
    a.service.interface.reporting.timersStarted + 1
  queriesStarted : (a.after m).service.interface.reporting.queriesStarted =
    a.service.interface.reporting.queriesStarted + 1
  inFlight : (a.after m).service.interface.reporting.inFlight =
    a.service.interface.reporting.inFlight ++
      [⟨a.service.interface.reporting.queriesStarted, a.service.interface.reporting.generation⟩]

/-- What a move makes of the timer. -/
inductive Timed (config : Config) (supported : Bool) (stage : Stage) (a : Account) (m : Move) : Prop
  | kept (other : m ≠ .take .tick)
      (timer : (a.after m).service.interface.reporting.timer =
        a.service.interface.reporting.timer)
      (timersStarted : (a.after m).service.interface.reporting.timersStarted =
        a.service.interface.reporting.timersStarted)
      (queriesStarted : (a.after m).service.interface.reporting.queriesStarted =
        a.service.interface.reporting.queriesStarted)
  | stopped (other : m ≠ .take .tick) (d : Deed) (earlier : List Deed)
      (deeds : (a.after m).deeds = d :: earlier) (idle : (a.after m).service.work = none)
      (off : d.operation = .serve .disable ∨ d.operation = .serve .shutDown ∨
        d.found.reporting.requested? d.turns d.operation = some 0)
      (timer : (a.after m).service.interface.reporting.timer = none)
      (timersStarted : (a.after m).service.interface.reporting.timersStarted =
        a.service.interface.reporting.timersStarted)
      (queriesStarted : (a.after m).service.interface.reporting.queriesStarted =
        a.service.interface.reporting.queriesStarted)
  | ticked (timer : Timer) (tick : m = .take .tick)
      (running : a.service.interface.reporting.timer = some timer)
      (due : timer.due ≤ a.service.now)
      (reporting : (a.after m).service.interface.reporting =
        a.service.interface.reporting.tick a.service.now)
  | started (d : Deed) (earlier : List Deed) (other : m ≠ .take .tick)
      (starts : Starts config supported stage a m d earlier)

theorem timer_of_tick (allowed : a.Allows (.take .tick)) :
    ∃ timer, a.service.interface.reporting.timer = some timer ∧ timer.due ≤ a.service.now := by
  cases Service.ready_of_mem allowed with
  | tick _ _ due => simpa [Option.any_eq_true, Timer.isDue] using due

/-- The exchange of a tick has nothing to wait for. -/
theorem not_paused_of_tick {d : Deed} (tick : d.operation = .tick) : ¬Paused d.turns := by
  rintro ⟨before, turn, turns, slow⟩
  have leads := d.leads
  rw [tick, turns] at leads
  generalize d.rest = rest, all : before ++ [turn] = turns at leads
  cases leads with
  | refl => simp at all
  | clock now tail =>
    cases tail with
    | refl =>
      have split : before ++ [turn] = [] ++ [.clock now] := all
      obtain ⟨-, same⟩ := List.append_inj' split rfl
      obtain rfl := List.singleton_inj.1 same
      cases slow

theorem tick_of_goes {d : Deed} {first : List Turn} {s : Service}
    {x : Exchange (Interface × Answer)} (reachable : Reachable config supported stage a)
    (allowed : a.Allows m) (goes : Goes a (a.after m) d first s x) (tick : d.operation = .tick) :
    m = .take .tick := by
  rcases goes.deeds with ⟨-, begun⟩ | ⟨paused, e, earlier, -, -, rfl, operation, -⟩
  · obtain ⟨occurrence, rfl, begins⟩ := reachable.begins allowed begun
    rw [tick] at begins
    generalize d.purpose = purpose at begins
    cases begins with
    | tick => rfl
  · exact absurd paused (not_paused_of_tick (operation.trans tick))

/-- Whatever is moved, one of these things becomes of the timer. -/
theorem Reachable.timed (reachable : Reachable config supported stage a) (allowed : a.Allows m) :
    Timed config supported stage a m := by
  by_cases tick : m = .take .tick
  · subst tick
    obtain ⟨timer, running, due⟩ := timer_of_tick allowed
    exact .ticked timer rfl running due rfl
  have same (interface : (a.after m).service.interface = a.service.interface) :
      Timed config supported stage a m := by
    refine .kept tick ?_ ?_ ?_ <;> rw [interface]
  rcases reachable.goes allowed with ⟨-, interface, -⟩ | ⟨occurrence, d, first, s, x, here, goes⟩
  · exact same interface
  by_cases idle : (a.after m).service.work = none
  · obtain ⟨answer, ended⟩ := goes.ended idle
    have ends := d.leads
    rw [ended] at ends
    have timed := d.found.always_timed d.operation _ _ ends
    dsimp only at timed
    have found := goes.found
    have operation : d.operation = .tick → m = .take .tick := tick_of_goes reachable allowed goes
    have clocked : ∀ now, ClockedAt d.turns now → now = a.service.now := fun _ => goes.clocked
    obtain ⟨earlier, deeds⟩ := goes.latest
    generalize whole : (a.after m).service.interface.reporting = r at timed
    cases timed with
    | kept timer timersStarted queriesStarted =>
      subst whole
      rw [found] at timer timersStarted queriesStarted
      exact .kept tick timer timersStarted queriesStarted
    | stopped off timer timersStarted queriesStarted =>
      subst whole
      rw [found] at timersStarted queriesStarted
      exact .stopped tick d earlier deeds idle off timer timersStarted queriesStarted
    | ticked timer now todo => exact absurd (operation todo) tick
    | started rate state now requested on other attached supported asked enough read =>
      obtain rfl := clocked now read
      have rate_eq : (a.after m).service.interface.status.rate = rate := by
        rw [Interface.status, whole]
        simp [Reporting.started]
      have mem : .modem state ∈ d.turns := mem_of_modem? asked
      have told := (reachable.run (Run.refl.step allowed)).told_modem [] deeds mem
      rw [Reporting.started_of_supported (r := { d.found.reporting with rate }) supported,
        found] at whole
      refine .started d earlier tick ⟨deeds, ⟨answer, ended⟩, ?_, ?_, ?_, ?_, ?_, ?_, ?_⟩
      · rwa [rate_eq]
      · rwa [rate_eq, ← found]
      · exact ⟨state, of_decide_eq_true enough, asked, told⟩
      · rw [whole, rate_eq]
      · rw [whole]
      · rw [whole]
      · rw [whole]
  · exact same (goes.interface_of_busy idle)

/-- Timers are counted when they start. -/
theorem Reachable.starts_of_counted (reachable : Reachable config supported stage a)
    (allowed : a.Allows m)
    (counted : (a.after m).service.interface.reporting.timersStarted ≠
      a.service.interface.reporting.timersStarted) :
    ∃ d earlier, Starts config supported stage a m d earlier := by
  cases reachable.timed allowed with
  | kept other timer same => exact absurd same counted
  | stopped other d earlier deeds idle off timer same => exact absurd same counted
  | ticked timer tick running due reporting =>
    rw [reporting, Reporting.timersStarted_tick] at counted
    exact absurd rfl counted
  | started d earlier other starts => exact ⟨d, earlier, starts⟩

/-- A timer that runs has once been started. -/
theorem Reachable.origin (reachable : Reachable config supported stage a) {timer : Timer}
    (running : a.service.interface.reporting.timer = some timer) :
    ∃ b m d earlier, Reachable config supported stage b ∧ b.Allows m ∧ Run (b.after m) a ∧
      Starts config supported stage b m d earlier ∧
      timer.number = b.service.interface.reporting.timersStarted ∧
      timer.rate = (b.after m).service.interface.status.rate := by
  induction reachable using Reachable.induct generalizing timer with
  | fresh surroundings _ => cases running
  | @step a m reachable allowed ih =>
    have onward {old : Timer} (ran : a.service.interface.reporting.timer = some old)
        (number : timer.number = old.number) (rate : timer.rate = old.rate) :
        ∃ b n d earlier, Reachable config supported stage b ∧ b.Allows n ∧
          Run (b.after n) (a.after m) ∧ Starts config supported stage b n d earlier ∧
          timer.number = b.service.interface.reporting.timersStarted ∧
          timer.rate = (b.after n).service.interface.status.rate := by
      obtain ⟨b, n, d, earlier, from_, possible, run, starts, which, at_⟩ := ih ran
      exact ⟨b, n, d, earlier, from_, possible, run.step allowed, starts, number.trans which,
        rate.trans at_⟩
    cases reachable.timed allowed with
    | kept other timer =>
      rw [timer] at running
      exact onward running rfl rfl
    | stopped other d earlier deeds idle off timer =>
      rw [timer] at running
      cases running
    | ticked old tick ran due reporting =>
      rw [reporting, Reporting.timer_tick, ran] at running
      obtain rfl := Option.some.inj running
      exact onward ran rfl rfl
    | started d earlier other starts =>
      have same := starts.timer.symm.trans running
      obtain rfl := Option.some.inj same
      exact ⟨a, m, d, earlier, reachable, allowed, .refl, starts, rfl, rfl⟩

/-- There is a timer only where there may be one, at every moment and whatever the work under way
leaves. Each timer has been started by an enable or a granted Setup request that found the modem far
enough up, at the rate in store and with one query, and timers come about in no other way. -/
theorem timer_only_where_it_may_be (reachable : Reachable config supported stage a) :
    (∀ deeds i timer, a.Moment deeds i → i.reporting.timer = some timer → Admits i timer) ∧
    (∀ timer, a.service.interface.reporting.timer = some timer →
      ∃ b m d earlier, Reachable config supported stage b ∧ b.Allows m ∧ Run (b.after m) a ∧
        Starts config supported stage b m d earlier ∧
        timer.number = b.service.interface.reporting.timersStarted ∧
        timer.period = (b.after m).service.interface.status.rate.toNat * 1000) ∧
    ∀ m, a.Allows m →
      ((a.after m).service.interface.reporting.timersStarted =
          a.service.interface.reporting.timersStarted ∧
        ∀ timer, (a.after m).service.interface.reporting.timer = some timer →
          ∃ old, a.service.interface.reporting.timer = some old ∧ old.number = timer.number ∧
            old.period = timer.period) ∨
      ∃ d earlier, Starts config supported stage a m d earlier := by
  refine ⟨?_, ?_, ?_⟩
  · intro deeds i timer moment running
    exact (reachable.history_of_moment moment).admits running
  · intro timer running
    obtain ⟨b, m, d, earlier, from_, possible, run, starts, number, rate⟩ :=
      reachable.origin running
    exact ⟨b, m, d, earlier, from_, possible, run, starts, number, by rw [Timer.period, rate]⟩
  · intro m allowed
    cases reachable.timed allowed with
    | kept other timer timersStarted =>
      refine .inl ⟨timersStarted, fun running here => ⟨running, timer.symm.trans here, rfl, rfl⟩⟩
    | stopped other d earlier deeds idle off timer timersStarted =>
      refine .inl ⟨timersStarted, fun running here => ?_⟩
      cases timer.symm.trans here
    | ticked old tick ran due reporting =>
      refine .inl ⟨by rw [reporting, Reporting.timersStarted_tick], fun running here => ?_⟩
      rw [reporting, Reporting.timer_tick, ran] at here
      obtain rfl := Option.some.inj here
      exact ⟨old, ran, rfl, rfl⟩
    | started d earlier other starts => exact .inr ⟨d, earlier, starts⟩

/-- A rate that has been stored while the modem was down starts a timer when the modem is up and the
interface is enabled. -/
theorem timer_of_deferred_rate :
    let a := (fresh {} true .serving (obliging .disabled {})).afterAll
      [.send 0 .bringUp, .take .request, .send 1 (.setup 5 ⟨":1.5"⟩), .take .request,
        .take (.check 1), .surround (obliging .enabled {}), .pass 70, .send 2 .enable]
    let b := a.after (.take .request)
    a.service.interface.reporting.timer = none ∧
      b.service.interface.reporting.timer = some ⟨0, 5, 5070⟩ ∧
      Admits b.service.interface ⟨0, 5, 5070⟩ ∧
      ∃ d earlier, Starts {} true .serving a (.take .request) d earlier := by
  intro a b
  have reachable : Reachable {} true .serving a := reachable_afterAll rfl (by decide +kernel)
  have allowed : a.Allows (.take .request) := by decide +kernel
  have idle : b.service.work = none := Option.isNone_iff_eq_none.1 (by decide +kernel)
  have running : b.service.interface.reporting.timer = some ⟨0, 5, 5070⟩ := by decide +kernel
  have started := (timer_only_where_it_may_be reachable).2.2 _ allowed
  have later := timer_only_where_it_may_be (reachable.run (Run.refl.step allowed))
  refine ⟨by decide +kernel, running, later.1 _ _ _ (.idle idle) running, ?_⟩
  rcases started with ⟨none, -⟩ | starts
  · exact absurd none (by decide +kernel)
  · exact starts

end Account

end Modem.Session
