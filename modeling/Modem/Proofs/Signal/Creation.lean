import Modem.Proofs.Signal.Written

/-! # The creation of the object

Of all operations only bringing the interface up creates the object, where there is none, and it
does so once. Everything else that is exchanged on the way creates nothing. -/

namespace Modem.Signal

/-- How often the object is created in some turns. -/
def creations (turns : List Turn) : Nat := turns.count (.note .created)

@[simp]
theorem creations_nil : creations [] = 0 := rfl

@[simp]
theorem creations_append (first second : List Turn) :
    creations (first ++ second) = creations first + creations second :=
  List.count_append

namespace Exchange

variable {α β : Type}

/-- However the exchange ends, it has created the object so many times. -/
def Creates (x : Exchange α) (times : Nat) : Prop :=
  x.Always fun turns _ => creations turns = times

theorem creates_pure (result : α) : (pure result : Exchange α).Creates 0 := always_pure rfl

theorem creates_bind {x : Exchange α} {f : α → Exchange β} {first second : Nat}
    (front : x.Creates first) (back : ∀ a, (f a).Creates second) :
    (x >>= f).Creates (first + second) := by
  refine always_bind (front.mono fun turns a here => ?_)
  exact (back a).mono fun more result there => by rw [creations_append, here, there]

/-- What follows on something that creates nothing creates whatever there is to create. -/
theorem creates_after {x : Exchange α} {f : α → Exchange β} {times : Nat}
    (silent : x.Creates 0) (back : ∀ a, (f a).Creates times) : (x >>= f).Creates times := by
  rw [← Nat.zero_add times]
  exact creates_bind silent back

theorem creates_log (severity : Severity) (text : String) : (log severity text).Creates 0 :=
  always_log rfl

theorem creates_debug (text : String) : (debug text).Creates 0 := creates_log _ text

theorem creates_ask (c : Call) : (ask c).Creates 0 := always_call fun _ => always_done rfl

theorem creates_attempt (c : Call) (complaint : String) : (attempt c complaint).Creates 0 :=
  always_attempt rfl fun _ _ => rfl

theorem creates_modemState : modemState.Creates 0 := always_modem fun _ => always_done rfl

theorem creates_now : now.Creates 0 := always_clock fun _ => always_done rfl

end Exchange

open Exchange

/-! ## Reporting -/

namespace Reporting

variable (r : Reporting)

theorem creates_publishShown (complaint : String) : (r.publishShown complaint).Creates 0 := by
  unfold publishShown
  split
  · exact creates_attempt _ complaint
  · exact creates_pure ()

theorem creates_clear : r.clear.Creates 0 :=
  creates_after (creates_publishShown _ _) fun _ => creates_pure _

theorem creates_teardown : r.teardown.Creates 0 := creates_clear _

theorem creates_disable : r.disable.Creates 0 :=
  creates_after (creates_debug _) fun _ => creates_teardown r

theorem creates_loaded (query : Query) (result : Except Fault Snapshot) :
    (r.loaded query result).Creates 0 := by
  unfold loaded
  dsimp only
  split
  · exact creates_after (creates_debug _) fun _ => creates_pure _
  · split
    · split
      · exact creates_after (creates_publishShown _ _) fun _ => creates_pure _
      · exact creates_after (creates_log _ _) fun _ => creates_pure _
    · exact creates_after (creates_log _ _) fun _ => creates_clear _

theorem creates_startTimer : r.startTimer.Creates 0 :=
  creates_after creates_now fun _ => creates_after (creates_debug _) fun _ => creates_pure _

theorem creates_schedule (modem : State) : (r.schedule modem).Creates 0 := by
  unfold schedule
  split
  · split
    · exact creates_after (creates_debug _) fun _ => creates_teardown r
    · exact creates_teardown r
  · split
    · exact creates_after (creates_debug _) fun _ => creates_pure r
    · split
      · exact creates_after (creates_debug _) fun _ => creates_pure r
      · split
        · exact creates_pure r
        · exact creates_startTimer r

theorem creates_setRate (rate : UInt32) (modem : State) : (r.setRate rate modem).Creates 0 := by
  unfold setRate
  dsimp only
  split
  · exact creates_after (creates_attempt _ _) fun _ => creates_schedule _ modem
  · exact creates_schedule _ modem

end Reporting

/-! ## Operations -/

namespace Interface

variable (i : Interface)

theorem creates_create : i.create.Creates (if i.reporting.attached then 0 else 1) := by
  unfold create
  split
  · exact creates_pure i
  · have object : (Exchange.note .created (pure ())).Creates 1 := always_note (always_pure rfl)
    exact creates_bind object fun _ => creates_after (creates_attempt _ _) fun _ => creates_pure _

theorem creates_exportCleared : i.exportCleared.Creates 0 := by
  refine creates_after (Reporting.creates_clear _) fun reporting => ?_
  refine creates_after (creates_ask _) fun fault => ?_
  cases fault with
  | some fault => exact creates_pure _
  | none => exact creates_after (creates_debug _) fun _ => creates_pure _

theorem creates_bringUp : i.bringUp.Creates (i.createsBy (.serve .bringUp)).toNat := by
  unfold bringUp
  split
  next gone =>
    have none : i.createsBy (.serve .bringUp) = false := by simp [createsBy, gone]
    rw [none]
    exact creates_pure _
  next present =>
    have made : (i.createsBy (.serve .bringUp)).toNat =
        (if i.reporting.attached then 0 else 1) + 0 := by
      cases attached : i.reporting.attached <;> simp [createsBy, present, attached]
    rw [made]
    refine creates_bind (creates_create i) fun j => ?_
    dsimp only
    split
    · exact creates_after (creates_debug _) fun _ => creates_pure _
    · split
      · exact creates_pure _
      · exact creates_exportCleared _

theorem creates_enable : i.enable.Creates 0 := by
  unfold enable
  split
  · exact creates_pure _
  · split
    · exact creates_pure _
    · refine creates_after creates_modemState fun modem => ?_
      exact creates_after (Reporting.creates_schedule _ modem) fun _ => creates_pure _

theorem creates_disable : i.disable.Creates 0 := by
  unfold disable
  split
  · exact creates_pure _
  · exact creates_after (Reporting.creates_disable _) fun _ => creates_pure _

theorem creates_shutDown : i.shutDown.Creates 0 := by
  unfold shutDown
  split
  · exact creates_pure _
  · refine creates_after (Reporting.creates_disable _) fun reporting => ?_
    split
    · refine creates_after (creates_attempt _ _) fun _ => ?_
      exact creates_after (creates_debug _) fun _ => creates_pure _
    · exact creates_after (creates_debug _) fun _ => creates_pure _

theorem creates_setup (rate : UInt32) : (i.setup rate).Creates 0 := by
  unfold setup
  split
  · exact creates_pure _
  · refine creates_after creates_modemState fun modem => ?_
    refine creates_after (creates_debug _) fun _ => ?_
    exact creates_after (Reporting.creates_setRate _ rate modem) fun _ => creates_pure _

/-- Only bringing the interface up creates the object, and only where there is none. -/
theorem creates_carryOut (operation : Operation) :
    (i.carryOut operation).Creates (i.createsBy operation).toNat := by
  cases operation with
  | serve request =>
    cases request with
    | bringUp => exact creates_bringUp i
    | enable => exact creates_enable i
    | disable => exact creates_disable i
    | shutDown => exact creates_shutDown i
    | setup rate who =>
      refine always_authorize fun refusal => ?_
      cases refusal with
      | some fault => exact always_pure rfl
      | none => exact (creates_setup i rate).mono fun _ _ none => none
    | status => exact creates_pure _
  | conclude rate refusal =>
    cases refusal with
    | some fault => exact creates_after (creates_debug _) fun _ => creates_pure _
    | none => exact creates_setup i rate
  | tick => exact creates_after creates_now fun _ => creates_pure _
  | loaded query result =>
    exact creates_after (Reporting.creates_loaded _ query result) fun _ => creates_pure _

end Interface

end Modem.Signal
