import Modem.Signal.Interface

/-! # Brief exchanges

An exchange that asks nobody for a right waits for the answers to its calls only. The end of an
authorization leads to two calls at the most, a tick to none, and the answer to a query to one. -/

namespace Modem.Signal

namespace Exchange

variable {α β : Type}

/-- Nobody is asked for a right, and at most so many calls are made. -/
inductive Brief : Nat → Exchange α → Prop
  | done (n : Nat) (result : α) : Brief n (.done result)
  | note {n : Nat} {rest : Exchange α} (m : Note) (tail : Brief n rest) : Brief n (.note m rest)
  | call {n : Nat} {rest : Option Fault → Exchange α} (c : Call)
      (tails : ∀ fault, Brief n (rest fault)) : Brief (n + 1) (.call c rest)
  | modem {n : Nat} {rest : State → Exchange α} (tails : ∀ state, Brief n (rest state)) :
      Brief n (.modem rest)
  | clock {n : Nat} {rest : Nat → Exchange α} (tails : ∀ now, Brief n (rest now)) :
      Brief n (.clock rest)

theorem Brief.mono {n m : Nat} {x : Exchange α} (brief : Brief n x) (le : n ≤ m) : Brief m x := by
  induction brief generalizing m with
  | done n result => exact .done m result
  | note l tail ih => exact .note l (ih le)
  | call c tails ih =>
    obtain ⟨k, rfl⟩ := Nat.exists_eq_add_of_lt (Nat.lt_of_succ_le le)
    exact .call c fun fault => ih fault (Nat.le_add_right _ _)
  | modem tails ih => exact .modem fun state => ih state le
  | clock tails ih => exact .clock fun now => ih now le

theorem Brief.bind {n m : Nat} {x : Exchange α} {f : α → Exchange β} (brief : Brief n x)
    (tails : ∀ a, Brief m (f a)) : Brief (n + m) (x >>= f) := by
  change Brief (n + m) (x.bind f)
  induction brief with
  | done n result => exact (tails result).mono (Nat.le_add_left m n)
  | note l tail ih => exact .note l ih
  | call c fronts ih =>
    rw [Nat.add_right_comm]
    exact .call c ih
  | modem fronts ih => exact .modem ih
  | clock fronts ih => exact .clock ih

theorem brief_pure (n : Nat) (result : α) : Brief n (pure result : Exchange α) := .done n result

theorem brief_log (n : Nat) (severity : Severity) (text : String) :
    Brief n (log severity text) :=
  .note _ (.done n ())

theorem brief_attempt (c : Call) (complaint : String) : Brief 1 (attempt c complaint) := by
  refine .call c fun fault => ?_
  cases fault with
  | none => exact .done 0 ()
  | some fault => exact brief_log 0 _ _

/-- A line that is logged first makes an exchange no longer. -/
theorem Brief.logged {n : Nat} {severity : Severity} {text : String} {f : Unit → Exchange α}
    (tail : Brief n (f ())) : Brief n (log severity text >>= f) :=
  .note _ tail

end Exchange

open Exchange

/-! ## Reporting -/

namespace Reporting

theorem brief_publishShown (r : Reporting) (complaint : String) :
    Brief 1 (r.publishShown complaint) := by
  unfold publishShown
  split
  · exact brief_attempt _ _
  · exact brief_pure 1 ()

theorem brief_clear (r : Reporting) : Brief 1 r.clear :=
  (brief_publishShown _ _).bind fun _ => brief_pure 0 _

theorem brief_teardown (r : Reporting) : Brief 1 r.teardown := brief_clear _

theorem brief_loaded (r : Reporting) (query : Query) (result : Except Fault Snapshot) :
    Brief 1 (r.loaded query result) := by
  unfold loaded
  dsimp only
  split
  · refine .logged ?_
    exact brief_pure 1 _
  · cases result with
    | ok values =>
      dsimp only
      split
      · exact (brief_publishShown _ _).bind fun _ => brief_pure 0 _
      · refine .logged ?_
        exact brief_pure 1 _
    | error fault =>
      refine .logged ?_
      exact brief_clear _

theorem brief_startTimer (r : Reporting) (n : Nat) : Brief n r.startTimer := by
  refine .clock fun now => .logged ?_
  exact brief_pure n _

theorem brief_schedule (r : Reporting) (modem : State) : Brief 1 (r.schedule modem) := by
  unfold schedule
  split
  · split
    · refine .logged ?_
      exact brief_teardown r
    · exact brief_teardown r
  · split
    · refine .logged ?_
      exact brief_pure 1 r
    · split
      · refine .logged ?_
        exact brief_pure 1 r
      · split
        · exact brief_pure 1 r
        · exact brief_startTimer r 1

theorem brief_setRate (r : Reporting) (rate : UInt32) (modem : State) :
    Brief 2 (r.setRate rate modem) := by
  have scheduled := brief_schedule { r with rate } modem
  unfold setRate
  dsimp only
  split
  · exact (brief_attempt _ _).bind fun _ => scheduled
  · exact scheduled.mono (by decide)

end Reporting

/-! ## Operations -/

namespace Interface

theorem brief_setup (i : Interface) (rate : UInt32) : Brief 2 (i.setup rate) := by
  unfold setup
  split
  · exact brief_pure 2 _
  · refine .modem fun state => .logged ?_
    exact (i.reporting.brief_setRate rate state).bind fun _ => brief_pure 0 _

theorem brief_conclude (i : Interface) (rate : UInt32) (refusal : Option Fault) :
    Brief 2 (i.carryOut (.conclude rate refusal)) := by
  cases refusal with
  | none => exact i.brief_setup rate
  | some fault =>
    refine .logged ?_
    exact brief_pure 2 _

theorem brief_tick (i : Interface) : Brief 1 (i.carryOut .tick) :=
  .clock fun _ => brief_pure 1 _

theorem brief_loaded (i : Interface) (query : Query) (result : Except Fault Snapshot) :
    Brief 1 (i.carryOut (.loaded query result)) :=
  (i.reporting.brief_loaded query result).bind fun _ => brief_pure 0 _

end Interface

end Modem.Signal
