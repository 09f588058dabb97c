import Modem.Proofs.Session.Deletion
import Modem.Proofs.Session.Instants
import Modem.Proofs.Session.Queries

/-! # Schedules

What is left of a run without the arrival of answers and the passing of time is its schedule: one
turn after the other, something happens that can happen, or somebody outside does something. In
which order, where there is a choice, is settled for each turn. -/

namespace Modem.Session

open Signal

/-! ## Waiting -/

/-- Where nothing can happen, nothing can until the service wakes. -/
theorem Service.ready_moveTo {s : Service} {time sooner : Nat} (quiet : s.ready = [])
    (early : ∀ wake ∈ s.wake?, time ≤ wake) (before : sooner < time) :
    (s.moveTo sooner).ready = [] := by
  have now : (s.moveTo sooner).now = max s.now sooner := rfl
  have later {wake : Nat} (undue : s.now < wake) (after : time ≤ wake) :
      (s.moveTo sooner).now < wake := by
    rw [now]
    omega
  cases busy : s.work with
  | some work =>
    have wakes : s.wake? = some work.time := by simp only [wake?, busy]
    have undue : s.now < work.time := by
      simp only [Service.ready, busy] at quiet
      split at quiet
      · cases quiet
      · omega
    have still : (s.moveTo sooner).work = some work := busy
    simp only [Service.ready, still, if_neg (Nat.not_le.2 (later undue (early _ wakes)))]
  | none =>
    have idle : (s.moveTo sooner).work = none := busy
    cases stage : s.stage with
    | direct =>
      have here : (s.moveTo sooner).stage = .direct := stage
      simp only [Service.ready, busy, stage] at quiet
      simp only [Service.ready, idle, here]
      exact quiet
    | stopped =>
      have here : (s.moveTo sooner).stage = .stopped := stage
      simp only [Service.ready, idle, here]
    | serving =>
      have here : (s.moveTo sooner).stage = .serving := stage
      obtain ⟨checks, tick, loads⟩ := le_of_early busy stage early
      simp only [Service.ready, busy, stage, List.append_eq_nil_iff] at quiet
      obtain ⟨⟨⟨⟨request, noCheck⟩, noTick⟩, noLoad⟩, close⟩ := quiet
      simp only [Service.ready, idle, here, List.append_eq_nil_iff]
      refine ⟨⟨⟨⟨request, ?_⟩, ?_⟩, ?_⟩, close⟩
      · rw [readyChecks_eq_nil_iff] at noCheck ⊢
        intro c mem
        obtain ⟨arrival, arrives, undue⟩ := noCheck c mem
        exact ⟨arrival, arrives, later undue (checks c mem arrival arrives)⟩
      · rw [readyTick_eq_nil_iff] at noTick ⊢
        exact fun timer running => later (noTick timer running) (tick timer running)
      · rw [readyLoads_eq_nil_iff] at noLoad ⊢
        exact ⟨noLoad.1, fun l mem => later (noLoad.2 l mem) (loads l mem)⟩

namespace Account

variable {a : Account} {m : Move} {moves done : List Move}

/-! ## Turns -/

/-- Whose turn it is with a move: that of an occurrence, or of somebody outside. The arrival of an
answer takes no turn, and neither does the passing of time. -/
def turn? (a : Account) : Move → Option (Option Service.Occurrence)
  | .pass _ => none
  | .take occurrence => if a.service.isArrival occurrence then none else some (some occurrence)
  | _ => some none

/-- Which of some occurrences has a turn with a number, or that somebody outside has it. -/
abbrev Order := Nat → List Service.Occurrence → Option Service.Occurrence

/-- Each turn is had as the order says, and time passes only when there is nothing to do. -/
def InTurn (order : Order) (turn : Nat) (a : Account) : List Move → Prop
  | [] => True
  | m :: rest =>
    match a.turn? m with
    | none => a.Prompt m ∧ InTurn order turn (a.after m) rest
    | some choice =>
      order turn a.service.scheduled = choice ∧ InTurn order (turn + 1) (a.after m) rest

instance decidableInTurn (order : Order) (turn : Nat) (a : Account) :
    (moves : List Move) → Decidable (InTurn order turn a moves)
  | [] => inferInstanceAs (Decidable True)
  | m :: rest =>
    have := decidableInTurn order turn (a.after m) rest
    have := decidableInTurn order (turn + 1) (a.after m) rest
    match here : a.turn? m with
    | none => decidable_of_iff (a.Prompt m ∧ InTurn order turn (a.after m) rest) (by
        simp only [InTurn, here])
    | some choice => decidable_of_iff
        (order turn a.service.scheduled = choice ∧ InTurn order (turn + 1) (a.after m) rest) (by
          simp only [InTurn, here])

/-- A run keeps to an order, and ends where nothing has a turn. -/
structure Orderly (order : Order) (turn : Nat) (a : Account) (moves : List Move) : Prop where
  possible : a.AllowsAll moves
  inTurn : InTurn order turn a moves
  rests : (a.afterAll moves).service.scheduled = []

/-- What is done from outside, and when. -/
def demands (a : Account) : List Move → List (Nat × Move)
  | [] => []
  | m :: rest =>
    if a.turn? m = some none then (a.service.now, m) :: (a.after m).demands rest
    else (a.after m).demands rest

theorem now_le_of_mem_demands {demand : Nat × Move} (mem : demand ∈ a.demands moves) :
    a.service.now ≤ demand.1 := by
  induction moves generalizing a with
  | nil => cases mem
  | cons m rest ih =>
    have later := fun mem => Nat.le_trans (a.now_le_after m) (ih (a := a.after m) mem)
    unfold demands at mem
    split at mem
    · rcases List.mem_cons.1 mem with rfl | mem
      · exact Nat.le_refl _
      · exact later mem
    · exact later mem

theorem turn?_eq_none_iff :
    a.turn? m = none ↔
      (∃ time, m = .pass time) ∨
        ∃ query, m = .take (.load query) ∧ a.service.isArrival (.load query) = true := by
  cases m with
  | pass time => simp [turn?]
  | take occurrence => cases occurrence <;> simp [turn?, Service.isArrival]
  | _ => simp [turn?]

theorem turn?_eq_some_some_iff {occurrence : Service.Occurrence} :
    a.turn? m = some (some occurrence) ↔
      m = .take occurrence ∧ a.service.isArrival occurrence = false := by
  cases m with
  | take taken =>
    by_cases same : taken = occurrence
    · simp [turn?, same]
    · simp [turn?, same]
  | _ => simp [turn?]

theorem waiting_of_turn {occurrence : Service.Occurrence} {choice : Option Service.Occurrence}
    (here : a.turn? (.take occurrence) = some choice) : a.service.isArrival occurrence = false := by
  cases arrival : a.service.isArrival occurrence with
  | false => rfl
  | true => simp [turn?, arrival] at here

/-- Nothing has a turn, and nothing is demanded before some time has passed. -/
structure Waits (a : Account) (moves : List Move) : Prop where
  scheduled : a.service.scheduled = []
  later : ∀ demand ∈ a.demands moves, a.service.now < demand.1

/-- What comes next in a run. -/
inductive Front (a : Account) : List Move → Prop
  | turn {m : Move} {choice : Option Service.Occurrence} (here : a.turn? m = some choice)
      (rest : List Move) : Front a (m :: rest)
  /-- An answer arrives, or no time passes. -/
  | silent {m : Move} (silent : a.turn? m = none)
      (still : ∀ time, m = .pass time → time ≤ a.service.now) (rest : List Move) :
      Front a (m :: rest)
  | passes {time : Nat} (future : a.service.now < time) (rest : List Move) :
      Front a (.pass time :: rest)
  | ends : Front a []

theorem front (a : Account) (moves : List Move) : a.Front moves := by
  cases moves with
  | nil => exact .ends
  | cons m rest =>
    cases here : a.turn? m with
    | some choice => exact .turn here rest
    | none =>
      rcases turn?_eq_none_iff.1 here with ⟨time, rfl⟩ | ⟨query, rfl, -⟩
      · rcases Nat.lt_or_ge a.service.now time with future | past
        · exact .passes future rest
        · refine .silent here ?_ rest
          rintro _ ⟨⟩
          exact past
      · exact .silent here nofun rest

variable {order : Order} {turn : Nat} {choice : Option Service.Occurrence}

theorem Orderly.of_silent (orderly : Orderly order turn a (m :: moves))
    (silent : a.turn? m = none) : a.Prompt m ∧ Orderly order turn (a.after m) moves := by
  obtain ⟨possible, inTurn, rests⟩ := orderly
  simp only [InTurn, silent] at inTurn
  exact ⟨inTurn.1, possible.2, inTurn.2, rests⟩

theorem Orderly.of_turn (orderly : Orderly order turn a (m :: moves))
    (here : a.turn? m = some choice) :
    order turn a.service.scheduled = choice ∧ Orderly order (turn + 1) (a.after m) moves := by
  obtain ⟨possible, inTurn, rests⟩ := orderly
  simp only [InTurn, here] at inTurn
  exact ⟨inTurn.1, possible.2, inTurn.2, rests⟩

theorem demands_of_silent (silent : a.turn? m = none) :
    a.demands (m :: moves) = (a.after m).demands moves := by
  simp [demands, silent]

theorem Orderly.waits_of_nil (orderly : Orderly order turn a []) : a.Waits [] :=
  ⟨orderly.rests, nofun⟩

theorem Orderly.waits_of_pass {time : Nat} (orderly : Orderly order turn a (.pass time :: moves))
    (future : a.service.now < time) : a.Waits (.pass time :: moves) := by
  obtain ⟨⟨quiet, -⟩, -⟩ := orderly.of_silent rfl
  refine ⟨by rw [Service.scheduled, quiet]; rfl, fun demand mem => ?_⟩
  rw [demands_of_silent rfl] at mem
  have moved : time ≤ (a.after (.pass time)).service.now := Nat.le_max_right _ _
  exact Nat.lt_of_lt_of_le future (Nat.le_trans moved (now_le_of_mem_demands mem))

/-! ## The passing of time -/

theorem after_pass_of_le {time : Nat} (past : time ≤ a.service.now) :
    a.after (.pass time) = a := by
  have still : a.service.moveTo time = a.service := by
    unfold Service.moveTo
    rw [Nat.max_eq_left past]
    rfl
  simp only [after, still]

theorem after_pass_pass {sooner later : Nat} (early : sooner ≤ later) :
    (a.after (.pass sooner)).after (.pass later) = a.after (.pass later) := by
  have now : max (max a.service.now sooner) later = max a.service.now later := by omega
  simp only [after, Service.moveTo, Service.now] at now ⊢
  rw [now]

/-- If time passes on the way to a later time, the run goes on as before. -/
theorem Orderly.pass {sooner later : Nat} (orderly : Orderly order turn a (.pass later :: moves))
    (early : sooner < later) :
    Orderly order turn (a.after (.pass sooner)) (.pass later :: moves) := by
  have same := a.after_pass_pass (Nat.le_of_lt early)
  obtain ⟨⟨quiet, wakes⟩, possible, inTurn, rests⟩ := orderly.of_silent rfl
  have prompt : (a.after (.pass sooner)).Prompt (.pass later) :=
    ⟨Service.ready_moveTo quiet wakes early, wakes⟩
  refine ⟨⟨trivial, ?_⟩, ⟨prompt, ?_⟩, ?_⟩
  · rw [same]
    exact possible
  · rw [same]
    exact inTurn
  · rw [afterAll, List.foldl_cons, same]
    exact rests

/-! ## Courses -/

/-- What has been made of some moves up to some instant. -/
inductive Course : List Move → List Move → Prop
  | start (moves : List Move) : Course moves []
  | next (m : Move) {moves done : List Move} (course : Course moves done) :
      Course (m :: moves) (m :: done)
  /-- Time is passing. -/
  | passing {sooner later : Nat} (early : sooner ≤ later) (moves : List Move) :
      Course (.pass later :: moves) [.pass sooner]

/-- The first moves have been made. -/
theorem Course.of_append (done rest : List Move) : Course (done ++ rest) done := by
  induction done with
  | nil => exact .start rest
  | cons m done ih => exact .next m ih

/-- What is made of the moves after some time has passed is made of them without that. -/
theorem Course.of_pass {sooner later : Nat} (early : sooner ≤ later)
    (course : Course (.pass later :: moves) done) :
    ∃ others, Course (.pass later :: moves) others ∧
      a.afterAll others = (a.after (.pass sooner)).afterAll done := by
  cases course with
  | start => exact ⟨[.pass sooner], .passing early moves, rfl⟩
  | @next m moves done course =>
    refine ⟨.pass later :: done, .next _ course, ?_⟩
    simp only [afterAll, List.foldl_cons, after_pass_pass early]
  | @passing time later within =>
    refine ⟨[.pass (max sooner time)], .passing (Nat.max_le.2 ⟨early, within⟩) moves, ?_⟩
    have now : max (max a.service.now sooner) time = max a.service.now (max sooner time) :=
      Nat.max_assoc _ _ _
    simp only [afterAll, List.foldl_cons, List.foldl_nil, after, Service.moveTo, Service.now]
      at now ⊢
    rw [now]

end Account

end Modem.Session
