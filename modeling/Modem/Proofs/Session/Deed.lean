import Modem.Proofs.Signal.Written
import Modem.Session.Service

/-! # Deeds of a service

A deed is one operation that a service carries out: the interface it finds, the turns it has taken
so far, and what is left to do. A deed that waits for the answer to a call goes on later. -/

namespace Modem.Session

open Signal

/-! ## Turns that need no time -/

/-- What is left of an exchange. -/
def Progress.rest {α : Type} : Progress α → Exchange α
  | .finished result => .done result
  | .waiting _ rest => rest

/-- The turns that an exchange takes without the clock moving. -/
def turnsTaken {α : Type} : Exchange α → World → List Turn
  | .done _, _ => []
  | .note n rest, w => .note n :: turnsTaken rest (w.record (eventOf n))
  | .call c rest, w =>
    let (w, delivery) := w.beginCall c
    .call c delivery.fault ::
      if delivery.delay = 0 then turnsTaken (rest delivery.fault) w else []
  | .authorize who rest, w =>
    let (w, verdict) := w.beginAuthorization who
    .authorize who verdict.refusal ::
      if verdict.delay = 0 then turnsTaken (rest verdict.refusal) w else []
  | .modem rest, w => .modem w.surroundings.modem :: turnsTaken (rest w.surroundings.modem) w
  | .clock rest, w => .clock w.now :: turnsTaken (rest w.now) w

theorem leads_proceed {α : Type} (x : Exchange α) (w : World) :
    x.Leads (turnsTaken x w) (proceed x w).2.rest := by
  induction x generalizing w with
  | done result => exact .refl _
  | note n rest ih => exact .note (ih _)
  | call c rest ih =>
    simp only [turnsTaken, proceed]
    split
    · exact .call _ (ih _ _)
    · exact .call _ (.refl _)
  | authorize who rest ih =>
    simp only [turnsTaken, proceed]
    split
    · exact .authorize _ (ih _ _)
    · exact .authorize _ (.refl _)
  | modem rest ih => exact .modem _ (ih _ _)
  | clock rest ih => exact .clock _ (ih _ _)

/-! ## Calls in the journal -/

def Entry.call? (entry : Entry) : Option Call :=
  match entry.event with
  | .call c _ => some c
  | _ => none

namespace World

/-- The calls made so far, the latest first. -/
def calls (w : World) : List Call := w.journal.filterMap Entry.call?

@[simp]
theorem calls_record_line (w : World) (line : Line) :
    (w.record (.line line)).calls = w.calls := rfl

@[simp]
theorem calls_record_eventOf (w : World) (n : Note) :
    (w.record (eventOf n)).calls = w.calls := by
  cases n <;> rfl

@[simp]
theorem calls_recordLines (w : World) (lines : List Line) :
    (w.recordLines lines).calls = w.calls := by
  induction lines generalizing w with
  | nil => rfl
  | cons line rest ih => exact (ih _).trans (calls_record_line w line)

@[simp]
theorem calls_beginCall (w : World) (c : Call) : (w.beginCall c).1.calls = c :: w.calls := rfl

@[simp]
theorem calls_beginAuthorization (w : World) (who : Requester) :
    (w.beginAuthorization who).1.calls = w.calls :=
  calls_recordLines _ _

@[simp]
theorem calls_beginQuery (w : World) : w.beginQuery.1.calls = w.calls :=
  calls_recordLines _ _

end World

/-- An exchange writes down the calls of its turns and no others. -/
theorem calls_proceed {α : Type} (x : Exchange α) (w : World) :
    (proceed x w).1.calls = (Signal.calls (turnsTaken x w)).reverse ++ w.calls := by
  induction x generalizing w with
  | done result => rfl
  | note n rest ih => simp [proceed, turnsTaken, ih]
  | call c rest ih =>
    simp only [turnsTaken, proceed]
    split
    · simp [ih]
    · simp
  | authorize who rest ih =>
    simp only [turnsTaken, proceed]
    split
    · simp [ih]
    · simp
  | modem rest ih => simp [proceed, turnsTaken, ih]
  | clock rest ih => simp [proceed, turnsTaken, ih]

/-! ## Deeds -/

/-- An operation of a service, as far as it has got. -/
structure Deed where
  purpose : Purpose
  operation : Operation
  /-- The interface that the operation finds. -/
  found : Interface
  turns : List Turn
  /-- What is left to do. -/
  rest : Exchange (Interface × Answer)
  leads : (found.carryOut operation).Leads turns rest

namespace Deed

/-- A job as far as it gets at once. -/
def begin (job : Job) (s : Service) : Deed where
  purpose := job.purpose
  operation := job.operation
  found := s.interface
  turns := turnsTaken (s.interface.carryOut job.operation) s.world
  rest := (proceed (s.interface.carryOut job.operation) s.world).2.rest
  leads := leads_proceed _ _

/-- The deed when it has gone on. -/
def resume (d : Deed) (w : World) : Deed :=
  { d with
    turns := d.turns ++ turnsTaken d.rest w
    rest := (proceed d.rest w).2.rest
    leads := d.leads.trans (leads_proceed _ _) }

/-- The deed can leave the interface, or has left it. -/
def Leaves (d : Deed) (i : Interface) : Prop := ∃ more answer, d.rest.Ends more (i, answer)

/-- The deed once it has ended in one of the ways it still can. -/
def endedBy (d : Deed) {more : List Turn} {result : Interface × Answer}
    (ends : d.rest.Ends more result) : Deed :=
  { d with
    turns := d.turns ++ more
    rest := .done result
    leads := d.leads.trans ends }

/-- The interface that the deed has left when it has ended. -/
def left? (d : Deed) : Option Interface :=
  match d.rest with
  | .done (i, _) => some i
  | _ => none

/-- The rate that the deed stores. -/
def stored? (d : Deed) : Option UInt32 := d.found.storedBy d.turns d.operation

/-- A query is answered only if it is under way. -/
def Expected (d : Deed) : Prop :=
  ∀ query, d.operation.answered? = some query → query ∈ d.found.reporting.inFlight

theorem Expected.pending {d : Deed} (expected : d.Expected) {query : Query}
    {result : Except Fault Snapshot} (loaded : d.operation = .loaded query result) :
    query ∈ d.found.reporting.inFlight := by
  have answered : d.operation.answered? = some query := by
    rw [loaded]
    rfl
  exact expected query answered

theorem effect_of_ends {d : Deed} {more : List Turn} {result : Interface × Answer}
    (ends : d.rest.Ends more result) :
    Effect d.found (d.turns ++ more) d.operation result ∧
      Signal.calls (d.turns ++ more) = d.found.callsOf (d.turns ++ more) d.operation :=
  d.found.always_carryOut d.operation _ _ (d.leads.trans ends)

theorem effect {d : Deed} {result : Interface × Answer} (ended : d.rest = .done result) :
    Effect d.found d.turns d.operation result ∧
      Signal.calls d.turns = d.found.callsOf d.turns d.operation := by
  have ends : d.rest.Ends [] result := by
    rw [ended]
    exact .refl _
  simpa using effect_of_ends ends

theorem becomes_of_leaves {d : Deed} {i : Interface} (leaves : d.Leaves i)
    (expected : d.Expected) : d.found.reporting.Becomes d.operation.answered? i.reporting := by
  obtain ⟨more, answer, ends⟩ := leaves
  exact Reporting.becomes_of_effect (effect_of_ends ends).1 expected

theorem leaves_of_ended {d : Deed} {i : Interface} {answer : Answer}
    (ended : d.rest = .done (i, answer)) : d.Leaves i :=
  ⟨[], answer, by rw [ended]; exact .refl _⟩

theorem becomes {d : Deed} {i : Interface} {answer : Answer} (ended : d.rest = .done (i, answer))
    (expected : d.Expected) : d.found.reporting.Becomes d.operation.answered? i.reporting :=
  becomes_of_leaves (leaves_of_ended ended) expected

/-- Whoever asks the authorizer asks it first. -/
theorem hasAsked {d : Deed} (begun : d.turns ≠ []) : d.operation.HasAsked d.turns := by
  intro rate who operation
  have leads := d.leads
  rw [operation] at leads
  exact Exchange.Leads.verdict? leads begun

/-- Whether a Setup request is granted is settled by its first turn. -/
theorem granted?_append {d : Deed} (begun : d.turns ≠ []) (more : List Turn) :
    d.operation.granted? (d.turns ++ more) = d.operation.granted? d.turns :=
  (hasAsked begun).granted?_append more

/-- A deed that has not ended has made the first of the calls that are its to make. -/
theorem calls_begin_callsOf (d : Deed) :
    Signal.calls d.turns <+: d.found.callsOf d.turns d.operation := by
  by_cases begun : d.turns = []
  · rw [begun]
    exact List.nil_prefix
  · obtain ⟨more, result, ends⟩ := d.rest.exists_ends
    have called := (effect_of_ends ends).2
    rw [Interface.callsOf_congr (granted?_append begun more), calls_append] at called
    exact ⟨Signal.calls more, called⟩

theorem left?_of_ended {d : Deed} {i : Interface} {answer : Answer}
    (ended : d.rest = .done (i, answer)) : d.left? = some i := by
  simp [left?, ended]

end Deed

/-! ## Histories -/

/-- One deed after the other, the latest first: each finds what the one before it has left. -/
inductive History (start : Interface) : List Deed → Interface → Prop
  | nil : History start [] start
  | cons {earlier : List Deed} {d : Deed} {i : Interface} {answer : Answer}
      (before : History start earlier d.found) (expected : d.Expected)
      (ended : d.rest = .done (i, answer)) : History start (d :: earlier) i

namespace History

/-- What every operation keeps, a history keeps. -/
theorem invariant {start last : Interface} {deeds : List Deed}
    (history : History start deeds last) (property : Reporting → Prop)
    (initial : property start.reporting)
    (step : ∀ {r s answered}, property r → r.Becomes answered s → property s) :
    property last.reporting := by
  induction history with
  | nil => exact initial
  | cons before expected ended ih => exact step ih (Deed.becomes ended expected)

theorem sound {config : Config} {supported : Bool} {deeds : List Deed} {last : Interface}
    (history : History (.fresh config supported) deeds last) : last.reporting.Sound :=
  history.invariant Reporting.Sound (Reporting.sound_initial _ _)
    fun sound becomes => sound.becomes becomes

/-- The deeds fix the interface that they lead to. -/
theorem unique {start first second : Interface} {deeds : List Deed}
    (one : History start deeds first) (other : History start deeds second) : first = second := by
  cases one with
  | nil =>
    cases other
    rfl
  | cons _ _ ended =>
    cases other with
    | cons _ _ same =>
      rw [ended] at same
      injection same with same
      exact (Prod.mk.inj same).1

/-- A history goes on from wherever its first deeds lead. -/
theorem split {start last : Interface} {later earlier : List Deed}
    (history : History start (later ++ earlier) last) :
    ∃ middle, History start earlier middle ∧ History middle later last := by
  induction later generalizing last with
  | nil => exact ⟨last, history, .nil⟩
  | cons d later ih =>
    cases history with
    | cons before expected ended =>
      obtain ⟨middle, first, second⟩ := ih before
      exact ⟨middle, first, .cons second expected ended⟩

/-- Where some deed stands in a history, it was begun on what the deeds before it led to. -/
theorem at_deed {start last : Interface} {later earlier : List Deed} {d : Deed}
    (history : History start (later ++ d :: earlier) last) :
    ∃ left answer, History start earlier d.found ∧ d.Expected ∧ d.rest = .done (left, answer) ∧
      History left later last := by
  obtain ⟨middle, first, second⟩ := history.split
  cases first with
  | cons before expected ended => exact ⟨middle, _, before, expected, ended, second⟩

end History

end Modem.Session
