import Modem.Proofs.Session.Beginnings
import Modem.Proofs.Session.Ended
import Modem.Proofs.Signal.Timing

/-! # What is done at an instant

A deed goes on as far as it gets without the clock moving, and stops only for an answer that can
take time. What it is told of the clock and of the modem meanwhile is what is so at that instant. -/

namespace Modem.Signal

/-- Whether the answer can take time. -/
def Turn.takesTime : Turn → Bool
  | .call _ _ | .authorize _ _ => true
  | .note _ | .modem _ | .clock _ => false

/-- The last of some turns is one whose answer can take time. -/
def Paused (turns : List Turn) : Prop :=
  ∃ before turn, turns = before ++ [turn] ∧ turn.takesTime = true

theorem Paused.after {turns : List Turn} (paused : Paused turns) (first : List Turn) :
    Paused (first ++ turns) := by
  obtain ⟨before, turn, rfl, slow⟩ := paused
  exact ⟨first ++ before, turn, (List.append_assoc _ _ _).symm, slow⟩

/-- The clock is read after the last pause. -/
theorem ClockedAt.of_paused {first more : List Turn} {now : Nat}
    (clocked : ClockedAt (first ++ more) now) (paused : Paused first) : ClockedAt more now := by
  obtain ⟨before, notes, split⟩ := clocked
  obtain ⟨init, turn, rfl, slow⟩ := paused
  rcases List.append_eq_append_iff.1 split with ⟨between, -, later⟩ | ⟨between, here, later⟩
  · exact ⟨between, notes, later⟩
  · rcases List.eq_nil_or_concat between with rfl | ⟨rest, last, rfl⟩
    · exact ⟨[], notes, later.symm⟩
    · rw [List.concat_eq_append, ← List.append_assoc] at here
      obtain ⟨-, same⟩ := List.append_inj' here rfl
      obtain rfl := List.singleton_inj.1 same
      -- The turn that can take time would be the reading of the clock, or a note after it.
      have mem : turn ∈ Turn.clock now :: notes.map Turn.note := by simp [later]
      rcases List.mem_cons.1 mem with rfl | note
      · cases slow
      · obtain ⟨n, -, rfl⟩ := List.mem_map.1 note
        cases slow

end Modem.Signal

namespace Modem.Session

open Signal

/-! ## Worlds -/

namespace World

@[simp]
theorem now_recordLines (w : World) (lines : List Line) : (w.recordLines lines).now = w.now := by
  rw [recordLines_eq]

@[simp]
theorem now_beginAuthorization (w : World) (who : Requester) :
    (w.beginAuthorization who).1.now = w.now :=
  now_recordLines _ _

@[simp]
theorem now_beginQuery (w : World) : w.beginQuery.1.now = w.now := now_recordLines _ _

theorem Asked.now {w v : World} (asked : w.Asked v) : v.now = w.now := by
  cases asked with
  | nothing => rfl
  | line line => rfl
  | authorization who => exact w.now_beginAuthorization who
  | query => exact w.now_beginQuery

end World

theorem now_proceed {α : Type} (x : Exchange α) (w : World) : (proceed x w).1.now = w.now := by
  induction x generalizing w with
  | done result => rfl
  | note n rest ih => exact ih _
  | call c rest ih =>
    simp only [proceed]
    split
    · exact ih _ _
    · rfl
  | authorize who rest ih =>
    simp only [proceed]
    split
    · exact (ih _ _).trans (w.now_beginAuthorization who)
    · exact w.now_beginAuthorization who
  | modem rest ih => exact ih _ w
  | clock rest ih => exact ih _ w

/-- The clock and the modem are found as they are at that instant. -/
theorem told_of_mem_turnsTaken {α : Type} {x : Exchange α} {w : World} {turn : Turn}
    (mem : turn ∈ turnsTaken x w) :
    (∀ now, turn = .clock now → now = w.now) ∧
      ∀ state, turn = .modem state → state = w.surroundings.modem := by
  induction x generalizing w with
  | done result => cases mem
  | note n rest ih =>
    rcases List.mem_cons.1 mem with rfl | later
    · simp
    · exact ih (w := w.record (eventOf n)) later
  | call c rest ih =>
    simp only [turnsTaken] at mem
    split at mem
    · rcases List.mem_cons.1 mem with rfl | later
      · simp
      · exact ih _ (w := (w.beginCall c).1) later
    · obtain rfl := List.mem_singleton.1 mem
      simp
  | authorize who rest ih =>
    simp only [turnsTaken] at mem
    split at mem
    · rcases List.mem_cons.1 mem with rfl | later
      · simp
      · simpa using ih _ later
    · obtain rfl := List.mem_singleton.1 mem
      simp
  | modem rest ih =>
    rcases List.mem_cons.1 mem with rfl | later
    · simp
    · exact ih _ later
  | clock rest ih =>
    rcases List.mem_cons.1 mem with rfl | later
    · simp
    · exact ih _ later

/-- An exchange stops only for an answer that can take time. -/
theorem paused_of_waiting {α : Type} {x rest : Exchange α} {w : World} {time : Nat}
    (waiting : (proceed x w).2 = .waiting time rest) : Paused (turnsTaken x w) := by
  induction x generalizing w with
  | done result => cases waiting
  | note n rest ih => exact (ih waiting).after [_]
  | call c rest ih =>
    simp only [proceed, turnsTaken] at waiting ⊢
    split at waiting
    next prompt =>
      rw [if_pos prompt]
      exact (ih _ waiting).after [_]
    next slow =>
      rw [if_neg slow]
      exact ⟨[], _, rfl, rfl⟩
  | authorize who rest ih =>
    simp only [proceed, turnsTaken] at waiting ⊢
    split at waiting
    next prompt =>
      rw [if_pos prompt]
      exact (ih _ waiting).after [_]
    next slow =>
      rw [if_neg slow]
      exact ⟨[], _, rfl, rfl⟩
  | modem rest ih => exact (ih _ waiting).after [_]
  | clock rest ih => exact (ih _ waiting).after [_]

theorem Service.now_prepare (s : Service) (occurrence : Service.Occurrence) :
    (s.prepare occurrence).1.now = s.now := by
  obtain ⟨world, queue, checks, loads, asked, same⟩ := s.prepare_eq occurrence
  rw [same]
  exact asked.now

theorem Service.now_take (s : Service) (occurrence : Service.Occurrence) :
    (s.take occurrence).now = s.now :=
  take_kept (P := fun t => t.now = s.now) (s.now_prepare occurrence) id fun t purpose x kept => by
    rw [Service.now, (t.performed purpose x).world_eq, now_proceed]
    exact kept

/-! ## Going on -/

namespace Account

variable {config : Config} {supported : Bool} {stage : Stage} {a b : Account}

theorem now_after {m : Move} (other : ∀ time, m ≠ .pass time) :
    (a.after m).service.now = a.service.now := by
  cases m with
  | send caller request =>
    simp only [after, Service.send]
    split <;> rfl
  | pass time => exact absurd rfl (other time)
  | take occurrence => exact a.service.now_take occurrence
  | _ => rfl

theorem now_le_after (a : Account) (m : Move) : a.service.now ≤ (a.after m).service.now := by
  by_cases passes : ∃ time, m = .pass time
  · obtain ⟨time, rfl⟩ := passes
    exact Nat.le_max_left _ _
  · exact Nat.le_of_eq (now_after fun time same => passes ⟨time, same⟩).symm

theorem now_le_afterAll (a : Account) (moves : List Move) :
    a.service.now ≤ (a.afterAll moves).service.now := by
  induction moves generalizing a with
  | nil => exact Nat.le_refl _
  | cons m rest ih => exact Nat.le_trans (a.now_le_after m) (ih _)

/-- A deed begins or goes on at an instant: a service carries out what is left of it after its first
turns, as far as that gets. -/
structure Goes (a b : Account) (d : Deed) (first : List Turn) (s : Service)
    (x : Exchange (Interface × Answer)) : Prop where
  /-- A deed begins, or the latest one goes on, which has stopped after its first turns. -/
  deeds : first = [] ∧ b.deeds = d :: a.deeds ∨
    Paused first ∧ ∃ e earlier, a.deeds = e :: earlier ∧ b.deeds = d :: earlier ∧
      e.turns = first ∧ e.operation = d.operation ∧ e.found = d.found
  turns : d.turns = first ++ turnsTaken x s.world
  rest : d.rest = (proceed x s.world).2.rest
  service : b.service = s.perform d.purpose x
  idle : s.work = none
  found : d.found = a.service.interface
  interface : s.interface = a.service.interface
  now : s.now = a.service.now
  surroundings : s.world.surroundings = a.service.world.surroundings

/-- While there is work, the latest deed has stopped for an answer that can take time. -/
def Halts (a : Account) : Prop :=
  ∀ d earlier, a.deeds = d :: earlier → a.service.work ≠ none → Paused d.turns

namespace Goes

variable {d : Deed} {first : List Turn} {s : Service} {x : Exchange (Interface × Answer)}

theorem latest (goes : Goes a b d first s x) : ∃ earlier, b.deeds = d :: earlier := by
  rcases goes.deeds with ⟨-, begun⟩ | ⟨-, e, earlier, -, resumed, -⟩
  · exact ⟨_, begun⟩
  · exact ⟨earlier, resumed⟩

theorem halts (goes : Goes a b d first s x) : b.Halts := by
  intro e earlier deeds busy
  obtain ⟨before, latest⟩ := goes.latest
  obtain ⟨rfl, -⟩ := List.cons.inj (latest.symm.trans deeds)
  rw [goes.service, Service.perform] at busy
  rw [goes.turns]
  split at busy
  · rw [Service.work_finish] at busy
    exact absurd goes.idle busy
  next world time rest progress =>
    have waiting : (proceed x s.world).2 = .waiting time rest := by rw [progress]
    exact (paused_of_waiting waiting).after first

/-- A deed that has ended has left the interface. A deed that has not has left it as it was. -/
theorem ended (goes : Goes a b d first s x) (idle : b.service.work = none) :
    ∃ answer, d.rest = .done (b.service.interface, answer) := by
  rw [goes.rest, goes.service]
  rw [goes.service] at idle
  unfold Service.perform at idle ⊢
  split at idle
  next world result progress =>
    rw [progress, Service.interface_finish]
    exact ⟨result.2, rfl⟩
  next world time rest progress => cases idle

theorem interface_of_busy (goes : Goes a b d first s x) (busy : b.service.work ≠ none) :
    b.service.interface = a.service.interface := by
  rw [goes.service] at busy ⊢
  unfold Service.perform at busy ⊢
  split at busy
  · rw [Service.work_finish] at busy
    exact absurd goes.idle busy
  · exact goes.interface

/-- The clock is read at the instant at which a deed ends. -/
theorem clocked (goes : Goes a b d first s x) {now : Nat} (clocked : ClockedAt d.turns now) :
    now = a.service.now := by
  rw [goes.turns] at clocked
  have here : ClockedAt (turnsTaken x s.world) now := by
    rcases goes.deeds with ⟨rfl, -⟩ | ⟨paused, -⟩
    · exact clocked
    · exact clocked.of_paused paused
  obtain ⟨before, notes, turns⟩ := here
  have mem : .clock now ∈ turnsTaken x s.world := by simp [turns]
  exact ((told_of_mem_turnsTaken mem).1 now rfl).trans goes.now

end Goes

/-- Whatever is taken either leaves the deeds, the interface and the work as they are, or makes a
deed begin or go on. -/
theorem goes_of_take {occurrence : Service.Occurrence} {start : Interface}
    (tracks : a.Tracks start) (halts : a.Halts) (ready : occurrence ∈ a.service.ready) :
    (∃ s, a.after (.take occurrence) = { a with service := s } ∧
      a.service.work = none ∧ s.work = none ∧ s.interface = a.service.interface ∧
      a.service.prepare occurrence = (s, none)) ∨
    ∃ d first s x, Goes a (a.after (.take occurrence)) d first s x := by
  by_cases resume : occurrence = .resume
  · subst resume
    obtain ⟨work, busy⟩ := Service.busy_of_resume_mem_ready ready
    have leading := tracks.leading
    obtain ⟨service, sent, deeds⟩ := a
    dsimp only at busy leading
    rw [busy] at leading
    cases leading with
    | @busy d earlier time history found expected =>
      have paused : Paused d.turns := halts d earlier rfl (by simp [busy])
      refine .inr ⟨d.resume service.world, d.turns, { service with work := none }, d.rest, ?_⟩
      exact
        { deeds := .inr ⟨paused, d, earlier, rfl, rfl, rfl, rfl, rfl⟩
          turns := rfl
          rest := rfl
          service := by
            simp only [after, Service.take, busy]
            rfl
          idle := rfl
          found := found
          interface := rfl
          now := rfl
          surroundings := rfl }
  · have idle := Service.idle_of_mem_ready ready resume
    have begun := fun l mem => tracks.begun l mem _ a.service.holds_interface
    have comes : a.service.Prepared (a.service.prepare occurrence) := Service.prepared begun ready
    have now := a.service.now_prepare occurrence
    have surroundings := a.service.surroundings_prepare occurrence
    rcases prepared : a.service.prepare occurrence with ⟨s, job⟩
    rw [prepared] at comes now surroundings
    rw [after_take resume prepared]
    have untouched := comes.untouched
    cases job with
    | none => exact .inl ⟨s, rfl, idle, untouched.work.trans idle, untouched.interface, rfl⟩
    | some job =>
      refine .inr ⟨.begin job s, [], s, s.interface.carryOut job.operation, ?_⟩
      exact
        { deeds := .inl ⟨rfl, rfl⟩
          turns := rfl
          rest := rfl
          service := rfl
          idle := untouched.work.trans idle
          found := untouched.interface
          interface := untouched.interface
          now := now
          surroundings := surroundings }

theorem halts_of_after {m : Move} {start : Interface} (tracks : a.Tracks start) (halts : a.Halts)
    (allowed : a.Allows m) : (a.after m).Halts := by
  cases m with
  | send caller request =>
    intro d earlier deeds busy
    rw [after, Service.work_send] at busy
    exact halts d earlier deeds busy
  | take occurrence =>
    rcases goes_of_take tracks halts allowed with ⟨s, same, -, still, -⟩ | ⟨d, first, s, x, goes⟩
    · intro d earlier deeds busy
      rw [same] at busy
      exact absurd still busy
    · exact goes.halts
  | _ => exact halts

theorem Reachable.halts (reachable : Reachable config supported stage a) : a.Halts := by
  induction reachable using Reachable.induct with
  | fresh surroundings _ => exact fun d earlier none => absurd none.symm (List.cons_ne_nil _ _)
  | step reachable allowed ih => exact halts_of_after reachable.tracks ih allowed

/-- A move leaves the deeds, the interface and the work as they are, or makes a deed begin or go
on. -/
theorem Reachable.goes {m : Move} (reachable : Reachable config supported stage a)
    (allowed : a.Allows m) :
    ((a.after m).deeds = a.deeds ∧ (a.after m).service.interface = a.service.interface ∧
      (a.after m).service.work = a.service.work) ∨
    ∃ occurrence d first s x, m = .take occurrence ∧ Goes a (a.after m) d first s x := by
  cases m with
  | send caller request =>
    refine .inl ⟨rfl, ?_, a.service.work_send caller request⟩
    simp only [after, Service.send]
    split <;> rfl
  | take occurrence =>
    rcases goes_of_take reachable.tracks reachable.halts allowed with
      ⟨s, same, idle, still, interface, -⟩ | ⟨d, first, s, x, goes⟩
    · rw [same]
      exact .inl ⟨rfl, interface, still.trans idle.symm⟩
    · exact .inr ⟨occurrence, d, first, s, x, rfl, goes⟩
  | _ => exact .inl ⟨rfl, rfl, rfl⟩

end Account

end Modem.Session
