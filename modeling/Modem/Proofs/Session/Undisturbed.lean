import Modem.Proofs.Session.Devices
import Modem.Proofs.Session.Schedules
import Modem.Session.Parties

/-! # What no device disturbs

Two runs with the same requests keep the same schedule, whatever their devices do. Answers arrive at
different times and in different orders, and each run waits for its own. -/

namespace Modem.Session

open Signal

variable {outcomes : List (Option Fault)}

/-! ## Services on a level -/

namespace Service

variable {s t : Service}

/-- Two services are the same, but for what their devices have made of the queries that have reached
them, and the same queries have not reached them yet. -/
structure Level (outcomes : List (Option Fault)) (s t : Service) : Prop where
  beside : s.Beside (undisturbed outcomes) t
  unbegun : t.unbegun = s.unbegun
  left : s.Queries
  right : t.Queries

theorem Level.symm (level : s.Level outcomes t) : t.Level outcomes s :=
  ⟨level.beside.symm, level.unbegun.symm, level.right, level.left⟩

theorem scheduled_of_direct (idle : s.work = none) (direct : s.stage = .direct) :
    s.scheduled = s.readyRequest := by
  simp only [scheduled, ready, idle, direct, List.filter_eq_self]
  intro o mem
  rw [(mem_readyRequest_iff.1 mem).1]
  rfl

theorem Level.scheduled (level : s.Level outcomes t) : t.scheduled = s.scheduled := by
  obtain ⟨beside, unbegun, -, -⟩ := level
  cases busy : s.work with
  | none =>
    have idle := beside.idle busy
    have stage := beside.stage
    cases here : s.stage with
    | direct =>
      rw [scheduled_of_direct busy here, scheduled_of_direct idle (stage.trans here),
        beside.readyRequest]
    | serving =>
      rw [scheduled_of_serving busy here, scheduled_of_serving idle (stage.trans here),
        beside.readyRequest, beside.readyChecks, beside.readyTick, beside.readyClose, unbegun]
    | stopped => simp only [Service.scheduled, ready, busy, idle, here, stage, List.filter_nil]
  | some work =>
    have works := beside.works
    have now := beside.now
    rw [busy] at works
    generalize there : t.work = more at works
    cases works with
    | some purpose time rests =>
      simp only [Service.scheduled, ready, busy, there, now]
      split <;> rfl

theorem Beside.asking (beside : s.Beside (undisturbed outcomes) t) :
    s.asking.Beside (undisturbed outcomes) t.asking := by
  obtain ⟨worlds, kin, asked, works⟩ := beside
  exact .mk (s := s.asking) (World.Agree.beginQuery worlds fun _ => rfl) kin asked works

/-- Both launch the same. -/
theorem Beside.launched {s' t' : Service} (before : s.Beside (undisturbed outcomes) t)
    (after : s'.Beside (undisturbed outcomes) t') :
    t.interface.reporting.launched t'.interface.reporting =
      s.interface.reporting.launched s'.interface.reporting := by
  obtain ⟨-, ⟨-, ⟨-, -⟩⟩, -, -⟩ := before
  obtain ⟨-, ⟨-, ⟨-, -⟩⟩, -, -⟩ := after
  rfl

end Service

/-! ## Accounts on a level -/

namespace Account

variable {a b : Account} {m n : Move} {query : Query}

/-- What a move launches, if it is not for the device. -/
theorem queries_after (queries : a.service.Queries) (allowed : a.Allows m)
    (other : ∀ query, m ≠ .take (.load query)) :
    (a.after m).service.Queries ∧
      (a.after m).service.unbegun = a.service.unbegun ++
        a.service.interface.reporting.launched (a.after m).service.interface.reporting := by
  cases m with
  | send caller request =>
    refine queries.of_same ?_ ?_ (a.service.work_send caller request)
    · simp only [after, Service.send]
      split <;> rfl
    · simp only [after, Service.send]
      split <;> rfl
  | take occurrence =>
    have plain : ∀ query, occurrence ≠ .load query := by
      rintro query rfl
      exact other query rfl
    obtain ⟨next, loads, launches⟩ := queries.take_of_other allowed plain
    exact ⟨next, queries.unbegun_of_launches loads launches⟩
  | _ => exact queries.of_same rfl rfl rfl

/-- Two accounts with services on a level, to which the same has been sent. -/
structure Level (outcomes : List (Option Fault)) (a b : Account) : Prop where
  services : a.service.Level outcomes b.service
  sent : b.sent = a.sent

theorem Level.symm (level : a.Level outcomes b) : b.Level outcomes a :=
  ⟨level.services.symm, level.sent.symm⟩

theorem Level.surroundings (level : a.Level outcomes b) :
    a.service.world.surroundings.Kin b.service.world.surroundings :=
  World.Agree.surroundings level.services.beside.worlds

/-- The arrival of an answer leaves the level. -/
theorem Level.of_arrival (level : a.Level outcomes b) (ready : .load query ∈ a.service.ready)
    (arrival : a.service.isArrival (.load query) = true) :
    (a.after (.take (.load query))).Level outcomes b := by
  have idle := Service.idle_of_mem_ready ready nofun
  obtain ⟨beside, queries, unbegun⟩ := level.services.left.take_arrival outcomes idle
    level.surroundings.instant arrival
  have back := beside.symm.trans level.services.beside (beside.idle idle)
  exact ⟨⟨back, level.services.unbegun.trans unbegun.symm, queries, level.services.right⟩,
    level.sent⟩

/-- A query reaches both devices. -/
theorem Level.of_waiting (level : a.Level outcomes b) (ready : .load query ∈ a.service.ready)
    (readyToo : .load query ∈ b.service.ready)
    (waiting : a.service.isArrival (.load query) = false)
    (waitingToo : b.service.isArrival (.load query) = false) :
    (a.after (.take (.load query))).Level outcomes (b.after (.take (.load query))) := by
  have idle := Service.idle_of_mem_ready ready nofun
  have idleToo := Service.idle_of_mem_ready readyToo nofun
  obtain ⟨first, queries, unbegun⟩ := level.services.left.take_waiting outcomes idle
    level.surroundings.instant ready waiting
  obtain ⟨second, queriesToo, unbegunToo⟩ := level.services.right.take_waiting outcomes
    idleToo level.surroundings.instantToo readyToo waitingToo
  have beside := (first.symm.trans level.services.beside.asking (first.idle idle)).trans second
    (first.idle idle)
  refine ⟨⟨beside, ?_, queries, queriesToo⟩, level.sent⟩
  exact unbegunToo.trans (level.services.unbegun ▸ unbegun.symm)

/-- Any other move is made in both. -/
theorem Level.after (level : a.Level outcomes b) (like : m.Like Surroundings.Kin n)
    (other : ∀ query, m ≠ .take (.load query)) (allowed : a.Allows m) (allowedToo : b.Allows n)
    (known : (undisturbed outcomes).ahead (a.after m).service.world (b.after n).service.world) :
    (a.after m).Level outcomes (b.after n) := by
  have otherToo : ∀ query, n ≠ .take (.load query) := by
    cases like with
    | same m => exact other
    | surround => exact nofun
  have beside : a.Beside (undisturbed outcomes) b := ⟨level.services.beside, level.sent⟩
  have moved := beside.after like (fun query same => absurd same (other query)) known
  obtain ⟨queries, unbegun⟩ := queries_after level.services.left allowed other
  obtain ⟨queriesToo, unbegunToo⟩ := queries_after level.services.right allowedToo otherToo
  refine ⟨⟨moved.services, ?_, queries, queriesToo⟩, moved.sent⟩
  rw [unbegun, unbegunToo, level.services.unbegun,
    level.services.beside.launched moved.services]

/-- Time passes in both. -/
theorem Level.pass (level : a.Level outcomes b) (time : Nat) :
    (a.after (.pass time)).Level outcomes (b.after (.pass time)) :=
  ⟨⟨level.services.beside.moveTo time, level.services.unbegun,
    ⟨level.services.left.numbered, level.services.left.asked, level.services.left.work⟩,
    ⟨level.services.right.numbered, level.services.right.asked, level.services.right.work⟩⟩,
    level.sent⟩

theorem like_symm (like : m.Like Surroundings.Kin n) : n.Like Surroundings.Kin m := by
  cases like with
  | same m other => exact .same m other
  | surround answers => exact .surround answers.symm

/-! ## Runs abreast -/

/-- Two runs go abreast: they have each turn together, and time passes in both. In between, answers
arrive in the one or in the other. -/
inductive Abreast (outcomes : List (Option Fault)) :
    Account → Account → List Move → List Move → Prop
  | ends {a b : Account} (level : a.Level outcomes b) : Abreast outcomes a b [] []
  | turn {a b : Account} {m n : Move} {first second : List Move} (level : a.Level outcomes b)
      (like : m.Like Surroundings.Kin n)
      (later : Abreast outcomes (a.after m) (b.after n) first second) :
      Abreast outcomes a b (m :: first) (n :: second)
  | left {a b : Account} {m : Move} {first second : List Move} (level : a.Level outcomes b)
      (still : ∀ time, m = .pass time → time ≤ a.service.now)
      (later : Abreast outcomes (a.after m) b first second) :
      Abreast outcomes a b (m :: first) second
  | right {a b : Account} {n : Move} {first second : List Move} (level : a.Level outcomes b)
      (still : ∀ time, n = .pass time → time ≤ b.service.now)
      (later : Abreast outcomes a (b.after n) first second) :
      Abreast outcomes a b first (n :: second)
  | passLeft {a b : Account} {sooner later : Nat} {first second : List Move}
      (level : a.Level outcomes b) (early : sooner ≤ later)
      (rest : Abreast outcomes (a.after (.pass sooner)) (b.after (.pass sooner)) first
        (.pass later :: second)) :
      Abreast outcomes a b (.pass sooner :: first) (.pass later :: second)
  | passRight {a b : Account} {sooner later : Nat} {first second : List Move}
      (level : a.Level outcomes b) (early : sooner ≤ later)
      (rest : Abreast outcomes (a.after (.pass sooner)) (b.after (.pass sooner))
        (.pass later :: first) second) :
      Abreast outcomes a b (.pass later :: first) (.pass sooner :: second)

variable {first second done : List Move}

theorem Abreast.symm (abreast : Abreast outcomes a b first second) :
    Abreast outcomes b a second first := by
  induction abreast with
  | ends level => exact .ends level.symm
  | turn level like later ih => exact .turn level.symm (like_symm like) ih
  | left level still later ih => exact .right level.symm still ih
  | right level still later ih => exact .left level.symm still ih
  | passLeft level early rest ih => exact .passRight level.symm early ih
  | passRight level early rest ih => exact .passLeft level.symm early ih

/-- At the end, both are on a level. -/
theorem Abreast.afterAll (abreast : Abreast outcomes a b first second) :
    (a.afterAll first).Level outcomes (b.afterAll second) := by
  induction abreast with
  | ends level => exact level
  | turn level like later ih => exact ih
  | left level still later ih => exact ih
  | right level still later ih => exact ih
  | passLeft level early rest ih =>
    simpa only [Account.afterAll, List.foldl_cons, after_pass_pass early] using ih
  | passRight level early rest ih =>
    simpa only [Account.afterAll, List.foldl_cons, after_pass_pass early] using ih

/-- At every instant of the one run, the other is on a level with it at some instant. -/
theorem Abreast.course (abreast : Abreast outcomes a b first second) (course : Course first done) :
    ∃ others, Course second others ∧ (a.afterAll done).Level outcomes (b.afterAll others) := by
  induction abreast generalizing done with
  | ends level =>
    cases course with
    | start => exact ⟨[], .start [], level⟩
  | turn level like later ih =>
    cases course with
    | start => exact ⟨[], .start _, level⟩
    | next m course =>
      obtain ⟨others, within, there⟩ := ih course
      exact ⟨_ :: others, .next _ within, there⟩
    | @passing time limit early =>
      cases like with
      | same => exact ⟨[.pass time], .passing early _, level.pass time⟩
  | left level still later ih =>
    cases course with
    | start => exact ⟨[], .start _, level⟩
    | next m course => exact ih course
    | @passing time limit early =>
      have past := after_pass_of_le (Nat.le_trans early (still _ rfl))
      refine ⟨[], .start _, ?_⟩
      simp only [Account.afterAll, List.foldl_cons, List.foldl_nil, past]
      exact level
  | right level still later ih =>
    obtain ⟨others, within, there⟩ := ih course
    exact ⟨_ :: others, .next _ within, there⟩
  | @passLeft a b sooner later first second level early rest ih =>
    cases course with
    | start => exact ⟨[], .start _, level⟩
    | next m course =>
      obtain ⟨others, within, there⟩ := ih course
      obtain ⟨whole, inside, same⟩ := within.of_pass (a := b) early
      refine ⟨whole, inside, ?_⟩
      rw [same]
      exact there
    | @passing time limit inside =>
      exact ⟨[.pass time], .passing (Nat.le_trans inside early) _, level.pass time⟩
  | @passRight a b sooner later first second level early rest ih =>
    cases course with
    | start => exact ⟨[], .start _, level⟩
    | @next m moves done course =>
      obtain ⟨others, within, there⟩ := ih (.next _ course)
      refine ⟨_ :: others, .next _ within, ?_⟩
      simpa only [Account.afterAll, List.foldl_cons, after_pass_pass early] using there
    | @passing time limit inside =>
      rcases Nat.le_total time sooner with before | after
      · exact ⟨[.pass time], .passing before _, level.pass time⟩
      · obtain ⟨others, within, there⟩ := ih (.passing inside first)
        refine ⟨_ :: others, .next _ within, ?_⟩
        simpa only [Account.afterAll, List.foldl_cons, List.foldl_nil, after_pass_pass after]
          using there

/-! ## Orderly runs with the same demands -/

variable {order : Order} {turn : Nat}

/-- The same is done from outside at the same times. -/
def Demands (first second : List (Nat × Move)) : Prop :=
  List.Forall₂ (fun p q => q.1 = p.1 ∧ p.2.Like Surroundings.Kin q.2) first second

theorem Demands.symm {first second : List (Nat × Move)} (demands : Demands first second) :
    Demands second first :=
  List.Forall₂.flip (demands.imp fun _ _ same => ⟨same.1.symm, like_symm same.2⟩)

/-- Two runs keep to the same order, the same is demanded of them, and they end at the same time. -/
structure Paired (order : Order) (outcomes : List (Option Fault)) (turn : Nat) (a b : Account)
    (first second : List Move) : Prop where
  level : a.Level outcomes b
  left : Orderly order turn a first
  right : Orderly order turn b second
  demands : Demands (a.demands first) (b.demands second)
  known : (undisturbed outcomes).ahead (a.afterAll first).service.world
    (b.afterAll second).service.world
  ends : (b.afterAll second).service.now = (a.afterAll first).service.now

namespace Paired

theorem symm (paired : Paired order outcomes turn a b first second) :
    Paired order outcomes turn b a second first :=
  ⟨paired.level.symm, paired.right, paired.left, paired.demands.symm, paired.known.symm,
    paired.ends.symm⟩

/-- Neither run has a turn while the other waits. -/
theorem not_waits {choice : Option Service.Occurrence}
    (paired : Paired order outcomes turn a b (m :: first) second)
    (here : a.turn? m = some choice) : ¬b.Waits second := by
  rintro ⟨scheduled, later⟩
  have level := paired.level.services
  cases choice with
  | some occurrence =>
    obtain ⟨rfl, waiting⟩ := turn?_eq_some_some_iff.1 here
    have mem := Service.mem_scheduled paired.left.possible.1 waiting
    rw [← level.scheduled, scheduled] at mem
    cases mem
  | none =>
    have demands := paired.demands
    rw [Account.demands, if_pos here] at demands
    generalize demanded : b.demands second = demandsToo at demands
    cases demands with
    | cons same rest =>
      have late := later _ (demanded ▸ List.mem_cons_self)
      rw [same.1, level.beside.now] at late
      exact Nat.lt_irrefl _ late

/-- What takes no turn leaves the level. -/
theorem of_silent (paired : Paired order outcomes turn a b (m :: first) second)
    (silent : a.turn? m = none) (still : ∀ time, m = .pass time → time ≤ a.service.now) :
    Paired order outcomes turn (a.after m) b first second := by
  have level : (a.after m).Level outcomes b := by
    rcases turn?_eq_none_iff.1 silent with ⟨time, rfl⟩ | ⟨query, rfl, arrival⟩
    · rw [after_pass_of_le (still time rfl)]
      exact paired.level
    · exact paired.level.of_arrival paired.left.possible.1 arrival
  have demands := paired.demands
  rw [demands_of_silent silent] at demands
  exact ⟨level, (paired.left.of_silent silent).2, paired.right, demands, paired.known, paired.ends⟩

/-- Both have the same turn. -/
theorem of_turn {choice choiceToo : Option Service.Occurrence}
    (paired : Paired order outcomes turn a b (m :: first) (n :: second))
    (here : a.turn? m = some choice) (there : b.turn? n = some choiceToo) :
    m.Like Surroundings.Kin n ∧
      Paired order outcomes (turn + 1) (a.after m) (b.after n) first second := by
  obtain ⟨level, left, right, demands, known, ends⟩ := paired
  obtain ⟨chosen, onward⟩ := left.of_turn here
  obtain ⟨chosenToo, onwardToo⟩ := right.of_turn there
  rw [level.services.scheduled, chosen] at chosenToo
  subst chosenToo
  have soFar : (undisturbed outcomes).ahead (a.after m).service.world (b.after n).service.world :=
    (undisturbed outcomes).earlier known (run_afterAll left.possible.2).journal
      (run_afterAll right.possible.2).journal
  have like : m.Like Surroundings.Kin n ∧
      Demands ((a.after m).demands first) ((b.after n).demands second) := by
    cases choice with
    | some occurrence =>
      obtain ⟨rfl, -⟩ := turn?_eq_some_some_iff.1 here
      obtain ⟨rfl, -⟩ := turn?_eq_some_some_iff.1 there
      simp only [Account.demands, here, there] at demands
      exact ⟨.same _ (by simp), demands⟩
    | none =>
      rw [Account.demands, Account.demands, if_pos here, if_pos there] at demands
      cases demands with
      | cons same rest => exact ⟨same.2, rest⟩
  refine ⟨like.1, ?_, onward, onwardToo, like.2, known, ends⟩
  by_cases load : ∃ query, m = .take (.load query)
  · obtain ⟨query, rfl⟩ := load
    cases like.1 with
    | same =>
      exact level.of_waiting left.possible.1 right.possible.1 (waiting_of_turn here)
        (waiting_of_turn there)
  · exact level.after like.1 (fun query same => load ⟨query, same⟩) left.possible.1 right.possible.1
      soFar

/-- Time passes in both until it has passed in one. -/
theorem of_passes {sooner later : Nat}
    (paired : Paired order outcomes turn a b (.pass sooner :: first) (.pass later :: second))
    (early : sooner < later) :
    Paired order outcomes turn (a.after (.pass sooner)) (b.after (.pass sooner)) first
      (.pass later :: second) := by
  obtain ⟨level, left, right, demands, known, ends⟩ := paired
  have same : (b.after (.pass sooner)).afterAll (.pass later :: second) =
      b.afterAll (.pass later :: second) := by
    simp only [Account.afterAll, List.foldl_cons, after_pass_pass (Nat.le_of_lt early)]
  refine ⟨level.pass sooner, (left.of_silent rfl).2, right.pass early, ?_, ?_, ?_⟩
  · rw [demands_of_silent rfl, demands_of_silent rfl] at demands
    rwa [demands_of_silent rfl, after_pass_pass (Nat.le_of_lt early)]
  · rwa [same]
  · rwa [same]

theorem of_pass {time : Nat}
    (paired : Paired order outcomes turn a b (.pass time :: first) (.pass time :: second)) :
    Paired order outcomes turn (a.after (.pass time)) (b.after (.pass time)) first second := by
  obtain ⟨level, left, right, demands, known, ends⟩ := paired
  rw [demands_of_silent rfl, demands_of_silent rfl] at demands
  exact ⟨level.pass time, (left.of_silent rfl).2, (right.of_silent rfl).2, demands, known, ends⟩

/-- Neither run ends while time passes in the other. -/
theorem not_passes {time : Nat} (paired : Paired order outcomes turn a b (.pass time :: first) []) :
    time ≤ a.service.now := by
  have ends : b.service.now = ((a.after (.pass time)).afterAll first).service.now := paired.ends
  have now := paired.level.services.beside.now
  have passed : time ≤ (a.after (.pass time)).service.now := Nat.le_max_right _ _
  have later := (a.after (.pass time)).now_le_afterAll first
  omega

/-- Two orderly runs with the same demands go abreast. -/
theorem abreast (paired : Paired order outcomes turn a b first second) :
    Abreast outcomes a b first second := by
  induction size : first.length + second.length using Nat.strongRecOn
    generalizing turn a b first second with
  | ind size ih =>
    subst size
    have level := paired.level
    cases a.front first with
    | silent silent still rest =>
      exact .left level still (ih _ (by simp) (paired.of_silent silent still) rfl)
    | turn here rest =>
      cases b.front second with
      | silent silent still more =>
        exact .right level still (ih _ (by simp) (paired.symm.of_silent silent still).symm rfl)
      | turn there more =>
        obtain ⟨like, next⟩ := paired.of_turn here there
        exact .turn level like (ih _ (by simp; omega) next rfl)
      | passes future more =>
        exact absurd (paired.right.waits_of_pass future) (paired.not_waits here)
      | ends => exact absurd paired.right.waits_of_nil (paired.not_waits here)
    | @passes time future rest =>
      cases b.front second with
      | silent silent still more =>
        exact .right level still (ih _ (by simp) (paired.symm.of_silent silent still).symm rfl)
      | turn there more =>
        exact absurd (paired.left.waits_of_pass future) (paired.symm.not_waits there)
      | @passes timeToo _ more =>
        rcases Nat.lt_trichotomy time timeToo with sooner | rfl | later
        · exact .passLeft level (Nat.le_of_lt sooner)
            (ih _ (by simp) (paired.of_passes sooner) rfl)
        · exact .turn level (.same _ nofun) (ih _ (by simp; omega) paired.of_pass rfl)
        · exact .passRight level (Nat.le_of_lt later)
            (ih _ (by simp) (paired.symm.of_passes later).symm rfl)
      | ends => exact absurd paired.not_passes (Nat.not_le.2 future)
    | ends =>
      cases b.front second with
      | silent silent still more =>
        exact .right level still (ih _ (by simp) (paired.symm.of_silent silent still).symm rfl)
      | turn there more => exact absurd paired.left.waits_of_nil (paired.symm.not_waits there)
      | passes future more => exact absurd paired.symm.not_passes (Nat.not_le.2 future)
      | ends => exact .ends level

end Paired

/-! ## What is not disturbed -/

variable {config : Config} {supported : Bool} {stage : Stage}

/-- Two accounts are the same but for what is shown, for what has been published, for the log and
for the answers that have been waited for: at the same time there is the same status, and the same
has been replied, called, asked for and launched at the same times. -/
structure Undisturbed (a b : Account) : Prop where
  now : b.service.now = a.service.now
  stage : b.service.stage = a.service.stage
  status : b.service.interface.status =
    { a.service.interface.status with shown := b.service.interface.status.shown }
  replies : b.service.replies = a.service.replies
  said : b.service.world.said Event.scheduled = a.service.world.said Event.scheduled

theorem Level.undisturbed (level : a.Level outcomes b) : Undisturbed a b where
  now := level.services.beside.now
  stage := level.services.beside.stage
  status := level.services.beside.interface.status
  replies := level.services.beside.replies
  said := World.Agree.said level.services.beside.worlds

theorem level_fresh {s t : Surroundings} (kin : s.Kin t) :
    (fresh config supported stage s).Level outcomes (fresh config supported stage t) := by
  have queries (surroundings : Surroundings) :
      (fresh config supported stage surroundings).service.Queries :=
    ⟨Reporting.numbered_initial _ _, nofun, nofun⟩
  have worlds : World.Kin { surroundings := s } { surroundings := t } := ⟨rfl, kin, rfl, rfl, rfl⟩
  have beside : (fresh config supported stage s).service.Beside (undisturbed outcomes)
      (fresh config supported stage t).service :=
    .mk (R := Session.undisturbed outcomes) worlds (.refl True _) (.inr rfl) .none
  exact ⟨⟨beside, rfl, queries s, queries t⟩, rfl⟩

/-- Whatever the devices do, the schedule is the same. Take two runs in which the same is demanded
at the same times, with the same modem and the same authorizer, and buses that answer at once and
let the exports come to the same. Both have their turns in the same order, if several can have one,
and both go on to the same time, until nothing has a turn. Then at every instant of each of them
there is one of the other without a difference, and so there is none at the end. -/
theorem no_device_disturbs {s t : Surroundings} (kin : s.Kin t)
    (orderly : Orderly order 0 (fresh config supported stage s) first)
    (orderlyToo : Orderly order 0 (fresh config supported stage t) second)
    (demands : Demands ((fresh config supported stage s).demands first)
      ((fresh config supported stage t).demands second))
    (exports : ((fresh config supported stage s).afterAll first).service.world.exports <:+ outcomes)
    (exportsToo :
      ((fresh config supported stage t).afterAll second).service.world.exports <:+ outcomes)
    (ends : ((fresh config supported stage t).afterAll second).service.now =
      ((fresh config supported stage s).afterAll first).service.now) :
    let a := fresh config supported stage s
    let b := fresh config supported stage t
    (∀ done, Course first done →
      ∃ others, Course second others ∧ Undisturbed (a.afterAll done) (b.afterAll others)) ∧
    (∀ others, Course second others →
      ∃ done, Course first done ∧ Undisturbed (a.afterAll done) (b.afterAll others)) ∧
    Undisturbed (a.afterAll first) (b.afterAll second) := by
  intro a b
  have abreast : Abreast outcomes a b first second :=
    Paired.abreast
      ⟨level_fresh kin, orderly, orderlyToo, demands, ⟨exports, exportsToo⟩, ends⟩
  refine ⟨fun done course => ?_, fun others course => ?_, abreast.afterAll.undisturbed⟩
  · obtain ⟨others, within, level⟩ := abreast.course course
    exact ⟨others, within, level.undisturbed⟩
  · obtain ⟨done, within, level⟩ := abreast.symm.course course
    exact ⟨done, within, level.symm.undisturbed⟩

/-- One device answers at once. The other one fails, and its first answer comes after the second and
the third one, when reporting has been disabled. Between the ticks the first one shows values, and
the second one does not. -/
theorem no_failing_device_disturbs :
    let values : Snapshot := { gsm := some ⟨.zero⟩ }
    let s : Surroundings := obliging .registered values
    let failing (delay : Nat) : Response := { delay, result := .error (.failed "busy") }
    let t : Surroundings :=
      { s with device := Response.listed (failing 2500) [failing 500, failing 0] }
    let start : List Move := [.send 0 .bringUp, .take .request, .send 1 (.setup 1 ⟨":1.1"⟩),
      .take .request, .take (.check 1), .take (.load ⟨0, 0⟩), .pass 1000, .take .tick,
      .take (.load ⟨1, 0⟩), .pass 1500]
    let middle : List Move := [.send 2 .enable, .take .request, .pass 2000, .take .tick,
      .take (.load ⟨2, 0⟩), .pass 2300, .send 3 .disable, .take .request]
    let a := fresh {} true .serving s
    let b := fresh {} true .serving t
    let first := start ++ middle ++ [.pass 3000]
    let second := start ++ .take (.load ⟨1, 0⟩) :: middle ++
      [.pass 2500, .take (.load ⟨0, 0⟩), .pass 3000]
    Undisturbed (a.afterAll first) (b.afterAll second) ∧
      (∃ others, Course second others ∧ Undisturbed (a.afterAll start) (b.afterAll others)) ∧
      (a.afterAll start).service.interface.status.shown = values ∧
      (b.afterAll start).service.interface.status.shown = {} := by
  intro values s failing t start middle a b first second
  have kin : s.Kin t := ⟨rfl, rfl, fun _ _ => rfl, fun _ _ => rfl⟩
  let order : Order := fun _ ready => ready.head?
  have orderly : Orderly order 0 a first := by constructor <;> decide +kernel
  have orderlyToo : Orderly order 0 b second := by constructor <;> decide +kernel
  let demanded : List (Nat × Move) := [(0, .send 0 .bringUp), (0, .send 1 (.setup 1 ⟨":1.1"⟩)),
    (1500, .send 2 .enable), (2300, .send 3 .disable)]
  have here : a.demands first = demanded := by
    subst demanded first a middle start s values
    rfl
  have there : b.demands second = demanded := by
    subst demanded second b middle start t failing s values
    rfl
  have outside : ∀ demand ∈ demanded, ∀ surroundings, demand.2 ≠ .surround surroundings := by
    simp [demanded]
  have demands : Demands (a.demands first) (b.demands second) := by
    rw [here, there]
    exact List.forall₂_same.2 fun demand mem => ⟨rfl, .same _ (outside demand mem)⟩
  have exports : (a.afterAll first).service.world.exports <:+ [none] := by decide +kernel
  have exportsToo : (b.afterAll second).service.world.exports <:+ [none] := by decide +kernel
  have ends : (b.afterAll second).service.now = (a.afterAll first).service.now := by decide +kernel
  obtain ⟨course, -, last⟩ := no_device_disturbs kin orderly orderlyToo demands exports
    exportsToo ends
  have begun : Course first start := by
    rw [show first = start ++ (middle ++ [.pass 3000]) from List.append_assoc _ _ _]
    exact .of_append start _
  exact ⟨last, course start begun, by decide +kernel, by decide +kernel⟩

end Account

end Modem.Session
