import Modem.Session.Service

/-! # Letting time pass

Everything that can happen at an instant happens before the clock moves, and the clock stops at each
time at which something can happen. -/

namespace Modem.Session.Service

/-- The next time at which something can happen, if nothing can now. -/
def wake? (s : Service) : Option Nat :=
  match s.work with
  | some work => some work.time
  | none =>
    match s.stage with
    | .serving =>
      (s.checks.filterMap (fun c => c.arrival.map Arrival.time) ++
        s.interface.reporting.timer.toList.map (fun t => t.due) ++
        s.loads.map (fun l => l.arrival.time)).min?
    | _ => none

def moveTo (s : Service) (time : Nat) : Service :=
  { s with world := { s.world with now := max s.now time } }

/-- Goes on until a time, or until there is enough. The bound is on the number of moves. -/
def advance (enough : Service → Bool) (limit : Nat) : Nat → Service → Service
  | 0, s => s
  | n + 1, s =>
    if enough s then s
    else
      match s.ready with
      | occurrence :: _ => advance enough limit n (s.take occurrence)
      | [] =>
        match s.wake? with
        | some time => if time ≤ limit then advance enough limit n (s.moveTo time) else s
        | none => s

/-- How many things wait to be handled. -/
def load (s : Service) : Nat :=
  s.queue.length + s.checks.length + s.interface.reporting.inFlight.length

/-- More moves than can be made until a time: each thing that waits takes a few, and in each
millisecond a call may be answered and a tick handled. -/
def moves (s : Service) (limit : Nat) : Nat := 16 * (limit - s.now + s.load + 2)

/-- Lets everything happen that can happen at this instant. -/
def settle (s : Service) : Service := s.advance (fun _ => false) s.now (s.moves s.now)

/-- Lets time pass. -/
def sleep (s : Service) (duration : Nat) : Service :=
  let limit := s.now + duration
  (s.advance (fun _ => false) limit (s.moves limit)).moveTo limit

/-- A time by which a request that is sent now has been answered. -/
def horizon (s : Service) : Nat :=
  let resumed := match s.work with
    | some work => max s.now work.time
    | none => s.now
  resumed + 16 * (s.world.surroundings.patience + 1) * (s.load + 4)

/-- Lets time pass until a caller has an answer, and then everything that can happen at once. -/
def await (s : Service) (caller : Nat) : Service :=
  (s.advance (fun s => (s.answerTo? caller).isSome) s.horizon (s.moves s.horizon)).settle

end Modem.Session.Service
