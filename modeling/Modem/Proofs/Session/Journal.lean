import Modem.Proofs.Session.Scripts

/-! # Journals and stops

Nothing that has been written down is changed or taken back, and a service that has stopped does not
start again. -/

namespace Modem.Session

open Signal

/-! ## Journals -/

namespace World

theorem journal_record (w : World) (event : Event) : w.journal <:+ (w.record event).journal :=
  List.suffix_cons _ _

theorem journal_recordLines (w : World) (lines : List Line) :
    w.journal <:+ (w.recordLines lines).journal := by
  induction lines generalizing w with
  | nil => exact List.suffix_rfl
  | cons line rest ih => exact (w.journal_record _).trans (ih _)

theorem journal_beginCall (w : World) (c : Call) : w.journal <:+ (w.beginCall c).1.journal :=
  journal_record _ _

theorem journal_beginAuthorization (w : World) (who : Requester) :
    w.journal <:+ (w.beginAuthorization who).1.journal := by
  let begun : World := { w with authorizationsBegun := w.authorizationsBegun + 1 }
  have asked : w.journal <:+ (begun.record (.authorize who)).journal := journal_record begun _
  exact asked.trans (journal_recordLines (begun.record (.authorize who)) _)

theorem journal_beginQuery (w : World) : w.journal <:+ w.beginQuery.1.journal := by
  let begun : World := { w with queriesBegun := w.queriesBegun + 1 }
  have asked : w.journal <:+ (begun.record (.query begun.queriesBegun)).journal :=
    journal_record begun _
  exact asked.trans (journal_recordLines (begun.record (.query begun.queriesBegun)) _)

/-- What a world can come to while nothing is carried out: something is noted or somebody asked. -/
inductive Asked (w : World) : World → Prop
  | nothing : Asked w w
  | line (line : Line) : Asked w (w.record (.line line))
  | authorization (who : Requester) : Asked w (w.beginAuthorization who).1
  | query : Asked w w.beginQuery.1

theorem Asked.journal {w v : World} (asked : w.Asked v) : w.journal <:+ v.journal := by
  cases asked with
  | nothing => exact List.suffix_rfl
  | line line => exact w.journal_record _
  | authorization who => exact w.journal_beginAuthorization who
  | query => exact w.journal_beginQuery

end World

theorem journal_proceed {α : Type} (x : Exchange α) (w : World) :
    w.journal <:+ (proceed x w).1.journal := by
  induction x generalizing w with
  | done result => exact List.suffix_rfl
  | note n rest ih => exact (w.journal_record _).trans (ih _)
  | call c rest ih =>
    have begun := w.journal_beginCall c
    simp only [proceed]
    split
    · exact begun.trans (ih _ _)
    · exact begun
  | authorize who rest ih =>
    have begun := w.journal_beginAuthorization who
    simp only [proceed]
    split
    · exact begun.trans (ih _ _)
    · exact begun
  | modem rest ih => exact ih _ w
  | clock rest ih => exact ih _ w

namespace Service

/-- Before anything is carried out, an occurrence moves things between the queue, the authorizations
and the queries, and touches nothing else of the service. -/
theorem prepare_eq (s : Service) (occurrence : Occurrence) :
    ∃ world queue checks loads, s.world.Asked world ∧
      (s.prepare occurrence).1 = { s with world, queue, checks, loads } := by
  cases occurrence with
  | resume => exact ⟨_, _, _, _, .nothing, rfl⟩
  | request =>
    simp only [prepare]
    split
    · unfold dispatch
      split
      · exact ⟨_, _, _, _, .line _, rfl⟩
      · exact ⟨_, _, _, _, .nothing, rfl⟩
    · exact ⟨_, _, _, _, .nothing, rfl⟩
  | check caller =>
    simp only [prepare]
    split
    next c _ =>
      split
      · exact ⟨_, _, _, _, .nothing, rfl⟩
      · unfold beginCheck
        dsimp only
        split
        · exact ⟨_, _, _, _, .authorization c.who, rfl⟩
        · exact ⟨_, _, _, _, .authorization c.who, rfl⟩
    · exact ⟨_, _, _, _, .nothing, rfl⟩
  | tick => exact ⟨_, _, _, _, .nothing, rfl⟩
  | load query =>
    simp only [prepare]
    split
    · exact ⟨_, _, _, _, .nothing, rfl⟩
    · unfold beginLoad
      dsimp only
      split
      · exact ⟨_, _, _, _, .query, rfl⟩
      · exact ⟨_, _, _, _, .query, rfl⟩
  | close => exact ⟨_, _, _, _, .line _, rfl⟩

/-- What preparing an occurrence and carrying out an exchange keep, taking the occurrence keeps. -/
theorem take_kept {P : Service → Prop} {s : Service} {occurrence : Occurrence}
    (prepared : P (s.prepare occurrence).1) (rested : P s → P { s with work := none })
    (performed : ∀ t purpose x, P t → P (t.perform purpose x)) : P (s.take occurrence) := by
  cases occurrence with
  | resume =>
    simp only [take]
    split
    · exact performed _ _ _ (rested prepared)
    · exact prepared
  | _ =>
    simp only [take]
    split
    next t job result =>
      rw [result] at prepared
      exact performed _ _ _ prepared
    next t result =>
      rw [result] at prepared
      exact prepared

theorem journal_perform (s : Service) (purpose : Purpose) (x : Exchange (Interface × Answer)) :
    s.world.journal <:+ (s.perform purpose x).world.journal := by
  rw [(s.performed purpose x).world_eq]
  exact journal_proceed x s.world

theorem journal_prepare (s : Service) (occurrence : Occurrence) :
    s.world.journal <:+ (s.prepare occurrence).1.world.journal := by
  obtain ⟨world, queue, checks, loads, asked, same⟩ := s.prepare_eq occurrence
  rw [same]
  exact asked.journal

theorem journal_take (s : Service) (occurrence : Occurrence) :
    s.world.journal <:+ (s.take occurrence).world.journal :=
  take_kept (P := fun t => s.world.journal <:+ t.world.journal) (s.journal_prepare occurrence) id
    fun t purpose x kept => kept.trans (t.journal_perform purpose x)

/-! ## Stops -/

theorem stage_prepare (s : Service) (occurrence : Occurrence) :
    (s.prepare occurrence).1.stage = s.stage := by
  obtain ⟨world, queue, checks, loads, asked, same⟩ := s.prepare_eq occurrence
  rw [same]

theorem stopped_perform {s : Service} (stopped : s.stage = .stopped) (purpose : Purpose)
    (x : Exchange (Interface × Answer)) : (s.perform purpose x).stage = .stopped := by
  unfold perform
  split
  · cases purpose with
    | close => rfl
    | _ => exact stopped
  · exact stopped

theorem stopped_take {s : Service} (stopped : s.stage = .stopped) (occurrence : Occurrence) :
    (s.take occurrence).stage = .stopped :=
  take_kept (P := fun t => t.stage = .stopped) ((s.stage_prepare occurrence).trans stopped) id
    fun _ purpose x kept => stopped_perform kept purpose x

end Service

namespace Account

variable {a b : Account}

theorem journal_after (a : Account) (m : Move) :
    a.service.world.journal <:+ (a.after m).service.world.journal := by
  cases m with
  | send caller request =>
    simp only [after, Service.send]
    split
    · exact List.suffix_rfl
    · exact List.suffix_rfl
  | take occurrence => exact a.service.journal_take occurrence
  | _ => exact List.suffix_rfl

theorem journal_afterAll (a : Account) (moves : List Move) :
    a.service.world.journal <:+ (a.afterAll moves).service.world.journal := by
  induction moves generalizing a with
  | nil => exact List.suffix_rfl
  | cons m rest ih => exact (a.journal_after m).trans (ih (a.after m))

theorem Run.journal (run : Run a b) : a.service.world.journal <:+ b.service.world.journal := by
  induction run with
  | refl => exact List.suffix_rfl
  | @step b m run allowed ih => exact ih.trans (b.journal_after m)

theorem Run.stopped (run : Run a b) (stopped : a.service.stage = .stopped) :
    b.service.stage = .stopped := by
  induction run with
  | refl => exact stopped
  | @step b m run allowed ih =>
    cases m with
    | send caller request =>
      simp only [Account.after, Service.send, ih]
      exact ih
    | serve => simp [Account.after, ih]
    | take occurrence => exact Service.stopped_take ih occurrence
    | _ => exact ih

theorem stopped_of_possible {change : Service → Service} (possible : Possible change) {s : Service}
    (stopped : s.stage = .stopped) : (change s).stage = .stopped := by
  obtain ⟨b, run, here, -⟩ := possible { service := s }
  rw [← here]
  exact run.stopped stopped

end Account

/-! ## Sessions -/

theorem Service.abort_of_direct {s : Service} (direct : s.stage = .direct) : s.abort = s := by
  rw [abort, if_pos direct]

theorem Service.stopped_abort {s : Service} (served : s.stage ≠ .direct) :
    s.abort.stage = .stopped := by
  rw [abort, if_neg served]

/-- A step does what some run does, unless it stops the service. -/
theorem Account.Follows.step_or_stopped {a : Account} {s : Session} (follows : a.Follows s)
    (step : Step) :
    (∃ b, Run a b ∧ b.Follows (s.step step).1) ∨ (s.step step).1.service.stage = .stopped := by
  by_cases abort : step = .abort
  · subst abort
    by_cases direct : s.service.stage = .direct
    · refine .inl (follows.of_possible possible_settle ?_ rfl)
      change s.service.abort.settle = s.service.settle
      rw [Service.abort_of_direct direct]
    · exact .inr (stopped_of_possible possible_settle (Service.stopped_abort direct))
  · exact .inl (follows.step abort)

theorem stopped_step {s : Session} (stopped : s.service.stage = .stopped) (step : Step) :
    (s.step step).1.service.stage = .stopped := by
  have follows : Account.Follows { service := s.service } s := ⟨rfl, by simp⟩
  rcases follows.step_or_stopped step with ⟨b, run, here, -⟩ | done
  · rw [← here]
    exact run.stopped stopped
  · exact done

/-- A step reports the entries that it has added to the journal. -/
theorem entries_step {s : Session} {step : Step} {added : List Entry}
    (grown : (s.step step).1.service.world.journal = added ++ s.service.world.journal) :
    (s.step step).2.entries = added.reverse := by
  have entries : (s.step step).2.entries =
      ((s.step step).1.service.world.journal.take
        ((s.step step).1.service.world.journal.length -
          s.service.world.journal.length)).reverse := rfl
  rw [entries, grown]
  simp

end Modem.Session
