import Modem.Proofs.Session.Journal
import Modem.Proofs.Session.Requests

/-! # Deeds that have ended

While there is work, the latest deed is under way; all others have ended. A move of an account ends
at most one deed and gives at most one reply: the one to the caller whose deed it ends, or the
refusal of a request that comes too late. -/

namespace Modem.Session

open Signal

/-- The callers to whom the end of a piece of work is told. -/
def Purpose.callers : Purpose → List Nat
  | answer caller => [caller]
  | refresh | close => []

namespace Account

variable {config : Config} {supported : Bool} {stage : Stage} {start : Interface} {a b : Account}

/-- The deeds that have ended, the latest first. -/
def ended (a : Account) : List Deed :=
  match a.service.work with
  | none => a.deeds
  | some _ => a.deeds.tail

theorem ended_of_idle (idle : a.service.work = none) : a.ended = a.deeds := by
  simp [ended, idle]

theorem ended_of_busy {work : Work} (busy : a.service.work = some work) :
    a.ended = a.deeds.tail := by
  simp [ended, busy]

theorem mem_deeds_of_ended {d : Deed} (mem : d ∈ a.ended) : d ∈ a.deeds := by
  unfold ended at mem
  split at mem
  · exact mem
  · exact List.mem_of_mem_tail mem

theorem Tracks.ended (tracks : a.Tracks start) :
    History start a.ended a.service.interface := by
  have leading := tracks.leading
  cases busy : a.service.work with
  | none =>
    rw [busy] at leading
    rw [ended_of_idle busy]
    exact leading.of_idle
  | some work =>
    rw [busy] at leading
    rw [ended_of_busy busy]
    generalize a.deeds = deeds at leading
    cases leading with
    | busy history found expected => exact found ▸ history

/-- The deeds that have ended lead to the interface. -/
theorem Reachable.ended (reachable : Reachable config supported stage a) :
    History (.fresh config supported) a.ended a.service.interface :=
  reachable.tracks.ended

/-! ## What a move ends -/

/-- What a move ends, and what it replies. -/
inductive Outcome (a b : Account) : Prop
  | nothing (interface : b.service.interface = a.service.interface) (ended : b.ended = a.ended)
      (replies : b.service.replies = a.service.replies)
  /-- A request is sent to a service that has stopped. -/
  | refused (caller time : Nat) (stopped : b.service.stage = .stopped)
      (interface : b.service.interface = a.service.interface) (ended : b.ended = a.ended)
      (replies : b.service.replies = ⟨caller, time, .error Service.gone⟩ :: a.service.replies)
  | ended (d : Deed) (time : Nat) (answer : Answer) (idle : b.service.work = none)
      (left : d.rest = .done (b.service.interface, answer)) (ended : b.ended = d :: a.ended)
      (replies : b.service.replies =
        d.purpose.callers.map (⟨·, time, answer⟩) ++ a.service.replies)

theorem Outcome.mem_ended {d : Deed} (outcome : Outcome a b) (mem : d ∈ a.ended) : d ∈ b.ended := by
  cases outcome with
  | nothing _ ended _ => rwa [ended]
  | refused _ _ _ _ ended _ => rwa [ended]
  | ended _ _ _ _ _ ended _ =>
    rw [ended]
    exact List.mem_cons_of_mem _ mem

theorem outcome_of_performed {s : Service} {d : Deed} {world : World}
    (performed : s.Performed d.purpose world d.rest b.service) (idle : s.work = none)
    (interface : s.interface = a.service.interface) (replies : s.replies = a.service.replies)
    (deeds : b.deeds = d :: a.ended) : Outcome a b := by
  generalize left : d.rest = rest at performed
  generalize whole : b.service = t at performed
  cases performed with
  | ended result =>
    have still : b.service.work = none := by
      rw [whole, Service.work_finish]
      exact idle
    refine .ended d world.now result.2 still ?_ ?_ ?_
    · rw [left, whole, Service.interface_finish]
    · rw [ended_of_idle still, deeds]
    · rw [whole, ← replies]
      cases d.purpose <;> rfl
  | waits time rest =>
    have busy : b.service.work = some ⟨d.purpose, time, rest⟩ := by rw [whole]
    refine .nothing ?_ ?_ ?_
    · rw [whole]
      exact interface
    · rw [ended_of_busy busy, deeds]
      rfl
    · rw [whole]
      exact replies

theorem Took.outcome (took : a.Took b) : Outcome a b := by
  cases took with
  | moved s idle prepared =>
    obtain ⟨interface, work, replies, -⟩ := prepared.untouched
    refine .nothing interface ?_ replies
    rw [ended_of_idle idle, ended_of_idle (work.trans idle)]
  | began s t job world idle prepared calls performed =>
    obtain ⟨interface, work, replies, -⟩ := prepared.untouched
    refine outcome_of_performed (d := .begin job s) performed (work.trans idle) interface replies ?_
    rw [ended_of_idle idle]
  | continued d earlier time t world w deeds busy calls performed =>
    refine outcome_of_performed (d := d.resume w) performed rfl rfl rfl ?_
    rw [ended_of_busy busy, deeds]
    rfl

theorem outcome_of_after {m : Move} (tracks : a.Tracks start) (allowed : a.Allows m) :
    Outcome a (a.after m) := by
  cases m with
  | send caller request =>
    simp only [after, Service.send]
    split
    next stopped => exact .refused caller _ stopped rfl rfl rfl
    · exact .nothing rfl rfl rfl
  | take occurrence => exact (tracks.takes allowed).outcome
  | _ => exact .nothing rfl rfl rfl

/-- A move that changes the interface or ends something ends one deed, which has found the interface
as it was and leaves it as it is. -/
theorem Reachable.ends {m : Move} (reachable : Reachable config supported stage a)
    (allowed : a.Allows m) :
    ((a.after m).service.interface = a.service.interface ∧ (a.after m).ended = a.ended) ∨
      ∃ d answer, (a.after m).ended = d :: a.ended ∧ d.found = a.service.interface ∧ d.Expected ∧
        d.rest = .done ((a.after m).service.interface, answer) := by
  cases outcome_of_after reachable.tracks allowed with
  | nothing interface ended => exact .inl ⟨interface, ended⟩
  | refused caller time stopped interface ended => exact .inl ⟨interface, ended⟩
  | ended d time answer idle left ended =>
    have whole := (reachable.run (Run.refl.step allowed)).ended
    rw [ended] at whole
    generalize (a.after m).service.interface = last at whole left
    cases whole with
    | cons before expected =>
      exact .inr ⟨d, answer, ended, before.unique reachable.ended, expected, left⟩

/-! ## What a run ends -/

/-- A run adds to what has ended. Each reply it gives is the answer of a deed that it ends, or the
refusal of a service that has stopped. -/
theorem Run.ended (run : Run a b) (tracks : a.Tracks start) :
    ∃ later replies,
      b.ended = later ++ a.ended ∧ b.service.replies = replies ++ a.service.replies ∧
      ∀ reply ∈ replies,
        b.service.stage = .stopped ∧ reply.answer = .error Service.gone ∨
        ∃ d left, d ∈ later ∧ d.purpose = .answer reply.caller ∧
          d.rest = .done (left, reply.answer) := by
  induction run with
  | refl => exact ⟨[], [], rfl, rfl, nofun⟩
  | @step b m run allowed ih =>
    obtain ⟨later, replies, ended, told, given⟩ := ih
    have onward : ∀ reply ∈ replies,
        (b.after m).service.stage = .stopped ∧ reply.answer = .error Service.gone ∨
        ∃ d left, d ∈ later ∧ d.purpose = .answer reply.caller ∧
          d.rest = .done (left, reply.answer) := by
      intro reply mem
      refine (given reply mem).imp_left ?_
      rintro ⟨stopped, refusal⟩
      exact ⟨(Run.refl.step allowed).stopped stopped, refusal⟩
    cases outcome_of_after (run.tracks tracks) allowed with
    | nothing _ same still =>
      exact ⟨later, replies, same.trans ended, still.trans told, onward⟩
    | refused caller time stopped _ same more =>
      refine ⟨later, _ :: replies, same.trans ended, by rw [more, told]; rfl, ?_⟩
      exact List.forall_mem_cons.2 ⟨.inl ⟨stopped, rfl⟩, onward⟩
    | ended d time answer idle left more answered =>
      refine ⟨d :: later, d.purpose.callers.map (⟨·, time, answer⟩) ++ replies, ?_, ?_, ?_⟩
      · rw [more, ended]
        rfl
      · rw [answered, told, List.append_assoc]
      · intro reply mem
        rcases List.mem_append.1 mem with new | old
        · obtain ⟨caller, here, rfl⟩ := List.mem_map.1 new
          have purpose : d.purpose = .answer caller := by
            cases whose : d.purpose <;> simp_all [Purpose.callers]
          exact .inr ⟨d, _, List.mem_cons_self, purpose, left⟩
        · refine (onward reply old).imp_right ?_
          rintro ⟨e, rest, mem, told⟩
          exact ⟨e, rest, List.mem_cons_of_mem _ mem, told⟩

/-- Each reply is the answer of a deed that has ended, or the refusal of a service that has
stopped. -/
theorem Reachable.replied (reachable : Reachable config supported stage a) :
    ∀ reply ∈ a.service.replies,
      a.service.stage = .stopped ∧ reply.answer = .error Service.gone ∨
      ∃ d left, d ∈ a.ended ∧ d.purpose = .answer reply.caller ∧
        d.rest = .done (left, reply.answer) := by
  obtain ⟨surroundings, service, started, run⟩ := reachable
  obtain rfl := service_of_start started
  obtain ⟨later, replies, ended, told, given⟩ := run.ended (.initial rfl rfl rfl rfl)
  have all : a.service.replies = replies := told.trans (List.append_nil replies)
  have whole : a.ended = later := ended.trans (List.append_nil later)
  rwa [all, whole]

/-- What a run ends leads from where it begins to where it ends. -/
theorem Run.history_ended {later : List Deed} (run : Run a b) (tracks : a.Tracks start)
    (ended : b.ended = later ++ a.ended) :
    History a.service.interface later b.service.interface := by
  have whole := (run.tracks tracks).ended
  rw [ended] at whole
  obtain ⟨middle, here, onward⟩ := whole.split
  obtain rfl := here.unique tracks.ended
  exact onward

end Account

end Modem.Session
