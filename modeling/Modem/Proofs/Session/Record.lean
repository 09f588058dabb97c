import Modem.Proofs.Session.Journal

/-! # What the journal says of the deeds

Deeds are recorded turn by turn. Whatever is read off the journal about the object, its creation and
the calls on it, can be read off the turns of the deeds in the same order. -/

namespace Modem.Session

open Signal

/-- A way to read events, of which only those about the object count. -/
structure Reader (β : Type) where
  read : Event → Option β
  line : ∀ line, read (.line line) = none
  authorize : ∀ who, read (.authorize who) = none
  query : ∀ number, read (.query number) = none

namespace Reader

variable {α β : Type} (reader : Reader β)

/-- What a turn leaves to be read. -/
def turn? : Turn → Option β
  | .note n => reader.read (eventOf n)
  | .call c fault => reader.read (.call c fault)
  | .authorize _ _ | .modem _ | .clock _ => none

/-- What can be read off some turns, in order. -/
def turns (turns : List Turn) : List β := turns.filterMap reader.turn?

/-- What can be read off the journal, the latest first. -/
def world (w : World) : List β := w.journal.filterMap fun entry => reader.read entry.event

/-! ## Worlds -/

theorem world_record (w : World) (event : Event) :
    reader.world (w.record event) = (reader.read event).toList ++ reader.world w := by
  rw [world, World.record, List.filterMap_cons]
  cases reader.read event <;> rfl

theorem world_recordLines (w : World) (lines : List Line) :
    reader.world (w.recordLines lines) = reader.world w := by
  induction lines generalizing w with
  | nil => rfl
  | cons line rest ih =>
    have one := reader.world_record w (.line line)
    rw [reader.line] at one
    exact (ih _).trans one

theorem world_beginCall (w : World) (c : Call) :
    reader.world (w.beginCall c).1 =
      (reader.read (.call c (w.beginCall c).2.fault)).toList ++ reader.world w :=
  reader.world_record { w with callsMade := w.callsMade + 1 } _

theorem world_beginAuthorization (w : World) (who : Requester) :
    reader.world (w.beginAuthorization who).1 = reader.world w := by
  have asked := reader.world_record
    { w with authorizationsBegun := w.authorizationsBegun + 1 } (.authorize who)
  rw [reader.authorize] at asked
  exact (reader.world_recordLines _ _).trans asked

theorem world_beginQuery (w : World) : reader.world w.beginQuery.1 = reader.world w := by
  have asked := reader.world_record { w with queriesBegun := w.queriesBegun + 1 }
    (.query (w.queriesBegun + 1))
  rw [reader.query] at asked
  exact (reader.world_recordLines _ _).trans asked

theorem world_asked {w v : World} (asked : w.Asked v) : reader.world v = reader.world w := by
  cases asked with
  | nothing => rfl
  | line line => exact reader.world_recordLines w [line]
  | authorization who => exact reader.world_beginAuthorization w who
  | query => exact reader.world_beginQuery w

/-- An exchange is recorded turn by turn. -/
theorem world_proceed (x : Exchange α) (w : World) :
    reader.world (proceed x w).1 = (reader.turns (turnsTaken x w)).reverse ++ reader.world w := by
  have cons (turn : Turn) (turns : List Turn) :
      (reader.turns (turn :: turns)).reverse =
        (reader.turns turns).reverse ++ (reader.turn? turn).toList := by
    rw [Reader.turns, List.filterMap_cons]
    cases reader.turn? turn with
    | none => simp [Reader.turns]
    | some reading => simp [Reader.turns]
  induction x generalizing w with
  | done result => rfl
  | note n rest ih =>
    rw [proceed, turnsTaken, ih, cons, world_record, List.append_assoc]
    rfl
  | call c rest ih =>
    simp only [turnsTaken, proceed]
    rw [cons]
    split
    · rw [ih, world_beginCall, List.append_assoc]
      rfl
    · rw [world_beginCall]
      rfl
  | authorize who rest ih =>
    simp only [turnsTaken, proceed]
    rw [cons]
    split
    · rw [ih, world_beginAuthorization]
      simp [turn?]
    · rw [world_beginAuthorization]
      rfl
  | modem rest ih =>
    rw [proceed, turnsTaken, ih, cons]
    simp [turn?]
  | clock rest ih =>
    rw [proceed, turnsTaken, ih, cons]
    simp [turn?]

/-! ## Accounts -/

/-- What can be read off some deeds, the latest first. -/
def deeds (deeds : List Deed) : List β := deeds.flatMap fun d => (reader.turns d.turns).reverse

theorem world_prepare (s : Service) (occurrence : Service.Occurrence) :
    reader.world (s.prepare occurrence).1.world = reader.world s.world := by
  obtain ⟨world, queue, checks, loads, asked, same⟩ := s.prepare_eq occurrence
  rw [same]
  exact reader.world_asked asked

theorem world_perform (s : Service) (purpose : Purpose) (x : Exchange (Interface × Answer)) :
    reader.world (s.perform purpose x).world =
      (reader.turns (turnsTaken x s.world)).reverse ++ reader.world s.world := by
  rw [(s.performed purpose x).world_eq, world_proceed]

theorem world_after {start : Interface} {a : Account} {m : Move} (tracks : a.Tracks start)
    (recorded : reader.world a.service.world = reader.deeds a.deeds) (allowed : a.Allows m) :
    reader.world (a.after m).service.world = reader.deeds (a.after m).deeds := by
  cases m with
  | send caller request =>
    simp only [Account.after, Service.send]
    split
    · exact recorded
    · exact recorded
  | take occurrence =>
    by_cases resume : occurrence = .resume
    · subst resume
      obtain ⟨work, busy⟩ := Service.busy_of_resume_mem_ready allowed
      have leading := tracks.leading
      obtain ⟨s, sent, deeds⟩ := a
      dsimp only at busy leading recorded ⊢
      rw [busy] at leading
      cases leading with
      | @busy d earlier time history found expected =>
        simp only [Account.after, Account.deedsAfter, Service.take, busy, world_perform, recorded]
        simp [Reader.deeds, Deed.resume, Reader.turns]
    · have kept := reader.world_prepare a.service occurrence
      rcases result : a.service.prepare occurrence with ⟨s, job⟩
      rw [result] at kept
      rw [Account.after_take resume result]
      cases job with
      | none => exact kept.trans recorded
      | some job =>
        dsimp only at kept ⊢
        rw [Service.carryOut, world_perform, kept, recorded]
        rfl
  | _ => exact recorded

/-- At every moment, what can be read off the journal can be read off the deeds. -/
theorem world_eq {config : Config} {supported : Bool} {stage : Stage} {a : Account}
    (reachable : Account.Reachable config supported stage a) :
    reader.world a.service.world = reader.deeds a.deeds := by
  induction reachable using Account.Reachable.induct with
  | fresh surroundings _ => rfl
  | step reachable allowed ih => exact reader.world_after reachable.tracks ih allowed

end Reader

end Modem.Session
