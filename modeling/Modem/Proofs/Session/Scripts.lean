import Modem.Proofs.Session.Account
import Modem.Session.Script

/-! # Scripts as runs

A script settles which of the things that are ready comes next. Whatever it does short of stopping
the service in the middle of its work, some run does the same, so what holds after every run holds
after every step of every script. -/

namespace Modem.Session

open Signal

namespace Account

/-- Whatever the service, some run does the same to it and sends nothing. -/
def Possible (change : Service → Service) : Prop :=
  ∀ a : Account, ∃ b, Run a b ∧ b.service = change a.service ∧ b.sent = a.sent

theorem possible_id : Possible id := fun a => ⟨a, .refl, rfl, rfl⟩

theorem possible_advance (enough : Service → Bool) (limit n : Nat) :
    Possible (Service.advance enough limit n) := by
  induction n with
  | zero => exact possible_id
  | succ n ih =>
    intro a
    unfold Service.advance
    split
    · exact possible_id a
    · split
      next occurrence _ ready =>
        have allowed : a.Allows (.take occurrence) := by
          change occurrence ∈ a.service.ready
          rw [ready]
          exact List.mem_cons_self
        obtain ⟨b, run, here, sent⟩ := ih (a.after (.take occurrence))
        exact ⟨b, (Run.refl.step allowed).trans run, here, sent⟩
      · split
        next time _ =>
          split
          · obtain ⟨b, run, here, sent⟩ := ih (a.after (.pass time))
            have first : Run a (a.after (.pass time)) := Run.refl.step trivial
            exact ⟨b, first.trans run, here, sent⟩
          · exact possible_id a
        · exact possible_id a

theorem possible_settle : Possible Service.settle := fun a => possible_advance _ _ _ a

theorem possible_sleep (duration : Nat) : Possible fun s => s.sleep duration := by
  intro a
  obtain ⟨b, run, here, sent⟩ := possible_advance (fun _ => false) (a.service.now + duration)
    (a.service.moves (a.service.now + duration)) a
  refine ⟨b.after (.pass (a.service.now + duration)), run.step trivial, ?_, sent⟩
  rw [Account.after, here]
  rfl

theorem possible_await (caller : Nat) : Possible fun s => s.await caller := by
  intro a
  obtain ⟨b, run, here, sent⟩ :=
    possible_advance (fun s => (s.answerTo? caller).isSome) a.service.horizon
      (a.service.moves a.service.horizon) a
  obtain ⟨c, further, there, more⟩ := possible_settle b
  exact ⟨c, run.trans further, by rw [there, here]; rfl, more.trans sent⟩

/-- The account is that of a session whose callers have been numbered in order. -/
def Follows (a : Account) (s : Session) : Prop :=
  a.service = s.service ∧ ∀ q ∈ a.sent, q.caller < s.callers

theorem Follows.of_possible {a : Account} {s t : Session} {change : Service → Service}
    (follows : a.Follows s) (possible : Possible change) (here : t.service = change s.service)
    (callers : t.callers = s.callers) : ∃ b, Run a b ∧ b.Follows t := by
  obtain ⟨b, run, there, sent⟩ := possible a
  refine ⟨b, run, ?_, by rw [sent, callers]; exact follows.2⟩
  rw [there, follows.1, here]

theorem Follows.send {a : Account} {s : Session} (follows : a.Follows s) (request : Request) :
    ∃ b, Run a b ∧ b.service = s.service.send s.callers request ∧
      ∀ q ∈ b.sent, q.caller < s.callers + 1 := by
  have allowed : a.Allows (.send s.callers request) := by
    intro mem
    obtain ⟨q, old, same⟩ := List.mem_map.1 mem
    have before := follows.2 q old
    omega
  refine ⟨_, Run.refl.step allowed, by rw [← follows.1]; rfl, ?_⟩
  intro q mem
  rcases List.mem_cons.1 mem with rfl | old
  · exact Nat.lt_succ_self _
  · exact Nat.lt_succ_of_lt (follows.2 q old)

theorem Follows.mapSurroundings {a : Account} {s : Session} (follows : a.Follows s)
    (change : Surroundings → Surroundings) :
    ∃ b, Run a b ∧ b.Follows (s.mapSurroundings change) := by
  refine ⟨a.after (.surround (change s.service.world.surroundings)), Run.refl.step trivial, ?_,
    follows.2⟩
  rw [Account.after, follows.1]
  rfl

theorem Follows.act {a : Account} {s : Session} (follows : a.Follows s) {step : Step}
    (whole : step ≠ .abort) : ∃ b, Run a b ∧ b.Follows (s.act step).1 := by
  cases step with
  | request request =>
    obtain ⟨b, run, here, callers⟩ := follows.send request
    obtain ⟨c, further, there, sent⟩ := possible_await s.callers b
    exact ⟨c, run.trans further, by rw [there, here]; rfl, by rwa [sent]⟩
  | background label request =>
    obtain ⟨b, run, here, callers⟩ := follows.send request
    exact ⟨b, run, here, callers⟩
  | sleep duration => exact follows.of_possible (possible_sleep duration) rfl rfl
  | modem state =>
    unfold Session.act
    dsimp only
    split
    · exact ⟨a, .refl, follows⟩
    · exact follows.mapSurroundings _
  | device response => exact follows.mapSurroundings _
  | authorizer verdict patience => exact follows.mapSurroundings _
  | bus delivery patience => exact follows.mapSurroundings _
  | close =>
    exact ⟨a.after .close, Run.refl.step trivial, by rw [Account.after, follows.1]; rfl,
      follows.2⟩
  | abort => exact absurd rfl whole
  | serve =>
    refine ⟨a.after .serve, Run.refl.step trivial, ?_, ?_⟩
    · rw [Account.after, follows.1]
      unfold Session.act
      by_cases direct : s.service.stage = .direct
      · simp [direct]
      · simp [direct]
    · unfold Session.act
      dsimp only
      split <;> exact follows.2

theorem Follows.step {a : Account} {s : Session} (follows : a.Follows s) {step : Step}
    (whole : step ≠ .abort) : ∃ b, Run a b ∧ b.Follows (s.step step).1 := by
  obtain ⟨b, run, acted⟩ := follows.act whole
  obtain ⟨c, further, settled⟩ := acted.of_possible (t := (s.step step).1) possible_settle rfl rfl
  exact ⟨c, run.trans further, settled⟩

end Account

/-- A session after the steps of a script. -/
def afterScript (s : Session) (script : List Step) : Session :=
  script.foldl (fun s step => (s.step step).1) s

theorem Account.Follows.afterScript {a : Account} {s : Session} {script : List Step}
    (follows : a.Follows s) (whole : ∀ step ∈ script, step ≠ .abort) :
    ∃ b, Account.Run a b ∧ b.Follows (afterScript s script) := by
  induction script generalizing a s with
  | nil => exact ⟨a, .refl, follows⟩
  | cons step rest ih =>
    rw [List.forall_mem_cons] at whole
    obtain ⟨b, run, stepped⟩ := follows.step whole.1
    obtain ⟨c, further, there⟩ := ih stepped whole.2
    exact ⟨c, run.trans further, there⟩

/-- After every script that stops nothing in the middle, the service is one that a run leads to. -/
theorem reachable_afterScript {config : Config} {supported : Bool} {stage : Stage}
    {surroundings : Surroundings} {s : Session} {script : List Step}
    (started : Service.start config supported stage surroundings = .ok s.service)
    (whole : ∀ step ∈ script, step ≠ .abort) :
    ∃ a, Account.Reachable config supported stage a ∧
      a.service = (afterScript s script).service := by
  have follows : Account.Follows { service := s.service } s := ⟨rfl, by simp⟩
  obtain ⟨a, run, here, -⟩ := follows.afterScript whole
  exact ⟨a, ⟨surroundings, s.service, started, run⟩, here⟩

end Modem.Session
