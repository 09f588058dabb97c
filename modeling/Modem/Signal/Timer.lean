/-! # Refresh timers

A timer is due once in every period, for the first time one period after it starts. Times are in
milliseconds. A tick handled on time keeps the schedule; a late one starts it anew, and missed ticks
are not made up. After the first tick thirty years stand in for any longer period. -/

namespace Modem.Signal

structure Timer where
  /-- Timers are numbered in the order in which they start. -/
  number : Nat
  /-- The period in seconds. -/
  rate : UInt32
  due : Nat
  deriving DecidableEq, Repr

namespace Timer

/-- How late a tick may be handled without moving the schedule. -/
def tolerance : Nat := 5

def period (t : Timer) : Nat := t.rate.toNat * 1000

def start (number : Nat) (rate : UInt32) (now : Nat) : Timer :=
  ⟨number, rate, now + rate.toNat * 1000⟩

def isDue (t : Timer) (now : Nat) : Bool := t.due ≤ now

/-- How far apart two ticks can be: thirty years. -/
def reach : Nat := 30 * 365 * 24 * 60 * 60 * 1000

/-- The timer after a tick that is handled now. -/
def ticked (t : Timer) (now : Nat) : Timer :=
  let base := if now ≤ t.due + tolerance then t.due else now
  { t with due := base + min t.period reach }

def label (t : Timer) : String := "timer#" ++ toString t.number

theorem due_start (number : Nat) (rate : UInt32) (now : Nat) :
    (start number rate now).due = now + (start number rate now).period := rfl

theorem due_ticked_of_le {t : Timer} {now : Nat} (onTime : now ≤ t.due + tolerance)
    (inReach : t.period ≤ reach) : (t.ticked now).due = t.due + t.period := by
  simp only [ticked, onTime, if_true]
  omega

theorem due_ticked_of_lt {t : Timer} {now : Nat} (late : t.due + tolerance < now)
    (inReach : t.period ≤ reach) : (t.ticked now).due = now + t.period := by
  simp only [ticked, Nat.not_le.2 late, if_false]
  omega

end Timer

end Modem.Signal
