import Modem.Proofs.Session.Concord
import Modem.Proofs.Session.Deletion

/-! # Failures that are absorbed

A call on the object that fails is complained about in the log, and only the failure of an export
counts. Two runs that differ in what the other calls fail with differ in their complaints alone. -/

namespace Modem.Session

open Signal

/-! ## Worlds -/

/-- The surroundings answer alike, but for what the calls other than the export fail with. -/
structure Surroundings.Like (s t : Surroundings) : Prop where
  modem : t.modem = s.modem
  device : t.device = s.device
  authorizer : t.authorizer = s.authorizer
  delay : ∀ n c, (t.bus n c).delay = (s.bus n c).delay
  exports : ∀ n, (t.bus n .exportObject).fault = (s.bus n .exportObject).fault

theorem World.callsMade_recordLines (w : World) (lines : List Line) :
    (w.recordLines lines).callsMade = w.callsMade := by
  rw [recordLines_eq]

/-- The worlds are the same to everybody but the log, but for what the calls other than the export
have failed with and will fail with. -/
structure World.Like (w v : World) : Prop
    extends World.Agree Surroundings.Like Event.outward w v where
  callsMade : v.callsMade = w.callsMade

namespace World.Like

variable {w v : World}

theorem beginCall (like : w.Like v) (c : Call) :
    (w.beginCall c).1.Like (v.beginCall c).1 ∧
      (v.beginCall c).2.delay = (w.beginCall c).2.delay ∧
      (c = .exportObject → (v.beginCall c).2.fault = (w.beginCall c).2.fault) := by
  have delay := like.surroundings.delay w.callsMade c
  have exports := like.surroundings.exports w.callsMade
  have fault : c = .exportObject → (v.beginCall c).2.fault = (w.beginCall c).2.fault := by
    rintro rfl
    simp only [World.beginCall, like.callsMade]
    exact exports
  refine ⟨⟨like.toAgree.beginCall c (fun _ _ => rfl) fault, ?_⟩, ?_, fault⟩
  · exact congrArg (· + 1) like.callsMade
  · simp only [World.beginCall, like.callsMade]
    exact delay

theorem beginAuthorization (like : w.Like v) (who : Requester) :
    (w.beginAuthorization who).1.Like (v.beginAuthorization who).1 ∧
      (v.beginAuthorization who).2 = (w.beginAuthorization who).2 := by
  obtain ⟨agree, verdict⟩ :=
    like.toAgree.beginAuthorization (fun _ => rfl) like.surroundings.authorizer who
  refine ⟨⟨agree, ?_⟩, verdict⟩
  simp only [World.beginAuthorization, callsMade_recordLines]
  exact like.callsMade

theorem beginQuery (like : w.Like v) :
    w.beginQuery.1.Like v.beginQuery.1 ∧ v.beginQuery.2 = w.beginQuery.2 := by
  refine ⟨⟨like.toAgree.beginQuery fun _ => rfl, ?_⟩, ?_⟩
  · simp only [World.beginQuery, callsMade_recordLines]
    exact like.callsMade
  · simp only [World.beginQuery, like.queriesBegun, like.surroundings.device]

end World.Like

/-- Whatever the calls other than the export fail with, the worlds stay alike. -/
def absorbing : Concord False where
  worlds := World.Like
  ahead _ _ := True
  earlier _ _ _ := trivial
  now alike := alike.now
  modem alike := alike.surroundings.modem
  record alike _ := ⟨alike.toAgree.record _ _ rfl rfl, alike.callsMade⟩
  left alike _ := ⟨alike.toAgree.left rfl, alike.callsMade⟩
  right alike _ := ⟨alike.toAgree.right rfl, alike.callsMade⟩
  call alike c _ := alike.beginCall c
  authorize alike who := alike.beginAuthorization who
  query _ alike := alike.beginQuery
  answers := Surroundings.Like
  surround alike same := { alike with surroundings := same }
  pass alike _ := { alike with now := rfl }

namespace Account

variable {config : Config} {supported : Bool} {stage : Stage} {a b : Account}
  {first second : List Move}

/-! ## Runs -/

theorem Beside.prompt {m n : Move} (beside : a.Beside absorbing b)
    (like : m.Like Surroundings.Like n) (prompt : a.Prompt m) : b.Prompt n := by
  cases like with
  | surround => trivial
  | same m other =>
    cases m with
    | pass time =>
      rw [Prompt, beside.services.ready not_false, beside.services.wake?_eq not_false]
      exact prompt
    | _ => trivial

theorem Beside.run (beside : a.Beside absorbing b)
    (moves : List.Forall₂ (Move.Like Surroundings.Like) first second)
    (allowed : a.AllowsAll first) :
    b.AllowsAll second ∧ (a.Always Prompt first → b.Always Prompt second) ∧
      (a.afterAll first).Beside absorbing (b.afterAll second) := by
  induction moves generalizing a b with
  | nil => exact ⟨trivial, fun _ => trivial, beside⟩
  | cons like rest ih =>
    have here := beside.allows not_false like allowed.1
    have next := beside.after like (fun _ _ => not_false) trivial
    obtain ⟨possible, prompt, last⟩ := ih next allowed.2
    exact ⟨⟨here, possible⟩, fun before => ⟨beside.prompt like before.1, prompt before.2⟩, last⟩

/-- The accounts are the same to everybody but the log: the same has been said to everybody else and
replied at the same times, and the same can happen next. -/
structure Indistinct (a b : Account) : Prop where
  now : b.service.now = a.service.now
  interface : b.service.interface = a.service.interface
  stage : b.service.stage = a.service.stage
  replies : b.service.replies = a.service.replies
  said : b.service.world.said Event.outward = a.service.world.said Event.outward
  ready : b.service.ready = a.service.ready
  wake? : b.service.wake? = a.service.wake?

theorem Beside.indistinct (beside : a.Beside absorbing b) : Indistinct a b where
  now := beside.services.now
  interface := beside.services.interface_eq not_false
  stage := beside.services.stage
  replies := beside.services.replies
  said := beside.services.worlds.said
  ready := beside.services.ready not_false
  wake? := beside.services.wake?_eq not_false

/-- Two runs with the same moves, in surroundings that answer alike but for what the calls other
than the export fail with, are the same to everybody but the log: after each move all answers with
their times, everything that has been called with the times, every query, and the interface with its
status are the same. -/
theorem failures_leave_no_trace {s t : Surroundings} (like : s.Like t)
    (moves : List.Forall₂ (Move.Like Surroundings.Like) first second)
    (allowed : (fresh config supported stage s).AllowsAll first) :
    let a := fresh config supported stage s
    let b := fresh config supported stage t
    b.AllowsAll second ∧ (a.Always Prompt first → b.Always Prompt second) ∧
      ∀ n, Indistinct (a.afterAll (first.take n)) (b.afterAll (second.take n)) := by
  intro a b
  have worlds : World.Like { surroundings := s } { surroundings := t } :=
    ⟨⟨rfl, like, rfl, rfl, rfl⟩, rfl⟩
  have beside : a.Beside absorbing b :=
    ⟨.mk (R := absorbing) worlds (.refl False _) (.inr rfl) .none, rfl⟩
  obtain ⟨possible, prompt, -⟩ := beside.run moves allowed
  refine ⟨possible, prompt, fun n => ?_⟩
  have until_then : a.AllowsAll (first.take n) := by
    rw [← first.take_append_drop n] at allowed
    exact allowsAll_of_append allowed
  obtain ⟨-, -, here⟩ := beside.run (List.forall₂_take n moves) until_then
  exact here.indistinct

/-- Each call takes its time, and everything but the export fails in the second run: the rates, the
values and the withdrawal of the object. There are seven more complaints and no other difference. -/
theorem failures_from_bring_up_to_shut_down :
    let failing : Nat → Call → Option Fault := fun n c =>
      if c = .exportObject then none else some (.failed ("call " ++ toString n))
    let s : Surroundings := { obliging .registered {} with bus := fun _ _ => { delay := 20 } }
    let t : Surroundings :=
      { obliging .registered {} with bus := fun n c => { delay := 20, fault := failing n c } }
    let quicker : Surroundings := obliging .connected {}
    let failingToo : Surroundings := { quicker with bus := fun n c => { fault := failing n c } }
    let before : List Move := [.send 0 .bringUp, .take .request, .pass 20, .take .resume, .pass 40,
      .take .resume, .pass 60, .take .resume, .send 1 (.setup 1 ⟨":1.1"⟩), .take .request,
      .take (.check 1), .pass 80, .take .resume, .take (.load ⟨0, 0⟩), .pass 100, .take .resume]
    let after : List Move := [.pass 1080, .take .tick, .take (.load ⟨1, 0⟩), .send 2 .shutDown,
      .take .request]
    let first := before ++ .surround quicker :: after
    let second := before ++ .surround failingToo :: after
    let a := (fresh {} true .serving s).afterAll first
    let b := (fresh {} true .serving t).afterAll second
    let complaint : Event → Bool := fun event =>
      match event with
      | .line line => line.severity = .warn
      | _ => false
    Indistinct a b ∧ b.service.interface.status.lifecycle = .shutDown ∧
      (a.service.world.heard complaint).length = 0 ∧
      (b.service.world.heard complaint).length = 7 := by
  intro failing s t quicker failingToo before after first second a b complaint
  have like : s.Like t := ⟨rfl, rfl, rfl, fun _ _ => rfl, fun _ => rfl⟩
  have likeToo : quicker.Like failingToo := ⟨rfl, rfl, rfl, fun _ _ => rfl, fun _ => rfl⟩
  have moves : List.Forall₂ (Move.Like Surroundings.Like) first second :=
    List.rel_append (Move.like_self (by simp [before]))
      (.cons (.surround likeToo) (Move.like_self (by simp [after])))
  have allowed : (fresh {} true .serving s).AllowsAll first := by decide +kernel
  obtain ⟨-, -, same⟩ := failures_leave_no_trace like moves allowed
  exact ⟨same 22, by decide +kernel, by decide +kernel, by decide +kernel⟩

end Account

end Modem.Session
