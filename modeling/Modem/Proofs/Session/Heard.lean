import Modem.Proofs.Session.Journal

/-! # Worlds apart

Two worlds can differ by what has been written down for one request, and by the number of
authorizations. Whoever listens to some kinds of events and hears nothing of that number goes on
hearing the same in both of them. -/

namespace Modem.Session

open Signal

/-! ## Interleaved lists -/

/-- The third list consists of the first two, each in its order. -/
inductive Interleaved {α : Type} : List α → List α → List α → Prop
  | nil : Interleaved [] [] []
  | first {a : α} {xs ys zs : List α} (rest : Interleaved xs ys zs) :
      Interleaved (a :: xs) ys (a :: zs)
  | second {a : α} {xs ys zs : List α} (rest : Interleaved xs ys zs) :
      Interleaved xs (a :: ys) (a :: zs)

namespace Interleaved

variable {α : Type} {xs ys zs : List α}

theorem nothing (ys : List α) : Interleaved [] ys ys := by
  induction ys with
  | nil => exact .nil
  | cons a ys ih => exact .second ih

theorem append (rest : Interleaved xs ys zs) (common : List α) :
    Interleaved xs (common ++ ys) (common ++ zs) := by
  induction common with
  | nil => exact rest
  | cons a common ih => exact .second ih

end Interleaved

/-! ## Authorizers -/

/-- The two verdicts have the same delay and the same refusal, and sound the same. -/
structure Verdict.Agrees (audible : Event → Bool) (v w : Verdict) : Prop where
  delay : v.delay = w.delay
  refusal : v.refusal = w.refusal
  lines : (v.lines.map Event.line).filter audible = (w.lines.map Event.line).filter audible

/-- Everything but the lines of the log. -/
def Event.outward : Event → Bool
  | .line _ => false
  | _ => true

/-- To whom the log is inaudible, verdicts agree by their delays and refusals. -/
theorem Verdict.agrees_outward {v w : Verdict} (delay : v.delay = w.delay)
    (refusal : v.refusal = w.refusal) : v.Agrees Event.outward w := by
  have silent (lines : List Line) : (lines.map Event.line).filter Event.outward = [] := by
    simp [List.filter_map, Event.outward]
  exact ⟨delay, refusal, (silent v.lines).trans (silent w.lines).symm⟩

/-- As far as one hears, the authorizer answers by the requester alone. -/
def Surroundings.Steady (audible : Event → Bool) (verdict : Requester → Verdict)
    (s : Surroundings) : Prop :=
  ∀ n who, (s.authorizer n who).Agrees audible (verdict who)

theorem Surroundings.Steady.agrees {audible : Event → Bool} {verdict : Requester → Verdict}
    {s : Surroundings} (steady : s.Steady audible verdict) (m n : Nat) (who : Requester) :
    (s.authorizer m who).Agrees audible (s.authorizer n who) where
  delay := (steady m who).delay.trans (steady n who).delay.symm
  refusal := (steady m who).refusal.trans (steady n who).refusal.symm
  lines := (steady m who).lines.trans (steady n who).lines.symm

/-! ## Worlds -/

namespace World

/-- What one hears of the journal. -/
def heard (w : World) (audible : Event → Bool) : List Entry :=
  w.journal.filter fun entry => audible entry.event

variable {audible : Event → Bool} {trace : List Event} {w v : World}
  {verdict : Requester → Verdict}

theorem heard_record (w : World) (event : Event) :
    (w.record event).heard audible =
      if audible event then ⟨w.now, event⟩ :: w.heard audible else w.heard audible :=
  List.filter_cons

theorem recordLines_eq (w : World) (lines : List Line) :
    w.recordLines lines =
      { w with
        journal := (lines.map fun line => ⟨w.now, .line line⟩).reverse ++ w.journal } := by
  induction lines generalizing w with
  | nil => rfl
  | cons line rest ih =>
    have later : w.recordLines (line :: rest) = (w.record (.line line)).recordLines rest := rfl
    rw [later, ih]
    simp [record]

theorem filter_lines (now : Nat) (lines : List Line) (journal : List Entry) :
    ((lines.map fun line => ⟨now, .line line⟩).reverse ++ journal : List Entry).filter
        (fun entry => audible entry.event) =
      (((lines.map Event.line).filter audible).map (Entry.mk now)).reverse ++
        journal.filter fun entry => audible entry.event := by
  simp [List.filter_append, List.filter_map, Function.comp_def]

/-- In the second world one hears what one hears in the first, but for some events. The
authorizations are not counted. -/
inductive Apart (audible : Event → Bool) (trace : List Event) (w : World) : World → Prop
  | mk (authorizationsBegun : Nat) {journal own : List Entry}
      (said : own.map Entry.event = trace.filter audible)
      (rest : Interleaved own (journal.filter fun entry => audible entry.event)
        (w.heard audible)) :
      Apart audible trace w { w with authorizationsBegun, journal }

theorem Apart.same (w : World) : w.Apart audible [] w :=
  .mk w.authorizationsBegun rfl (.nothing _)

theorem Apart.congr (apart : w.Apart audible trace v) {events : List Event}
    (same : trace.filter audible = events.filter audible) : w.Apart audible events v := by
  obtain ⟨n, said, rest⟩ := apart
  exact .mk n (said.trans same) rest

theorem Apart.now (apart : w.Apart audible trace v) : v.now = w.now := by
  obtain ⟨n, said, rest⟩ := apart
  rfl

theorem Apart.surroundings (apart : w.Apart audible trace v) :
    v.surroundings = w.surroundings := by
  obtain ⟨n, said, rest⟩ := apart
  rfl

theorem Apart.record (apart : w.Apart audible trace v) (event : Event) :
    (w.record event).Apart audible trace (v.record event) := by
  obtain ⟨n, said, rest⟩ := apart
  refine .mk n said ?_
  rw [heard_record, List.filter_cons]
  split
  · exact rest.second
  · exact rest

/-- Lines are recorded that sound the same. -/
theorem Apart.recordLines (apart : w.Apart audible trace v) {lines others : List Line}
    (same : (others.map Event.line).filter audible = (lines.map Event.line).filter audible) :
    (w.recordLines lines).Apart audible trace (v.recordLines others) := by
  obtain ⟨n, said, rest⟩ := apart
  rw [recordLines_eq, recordLines_eq]
  refine .mk (w := { w with journal := _ }) n said ?_
  rw [heard, filter_lines, filter_lines, same]
  exact rest.append _

/-- What is recorded in the first world alone is one of the events that are missing. -/
theorem Apart.recordOwn (apart : w.Apart audible trace v) (event : Event) :
    (w.record event).Apart audible (event :: trace) v := by
  obtain @⟨n, journal, own, said, rest⟩ := apart
  cases hear : audible event with
  | true =>
    have missing : (⟨w.now, event⟩ :: own : List Entry).map Entry.event =
        (event :: trace).filter audible := by
      rw [List.filter_cons_of_pos hear, ← said, List.map_cons]
    refine .mk (w := w.record event) n missing ?_
    rw [heard_record, if_pos hear]
    exact rest.first
  | false =>
    have missing : (event :: trace).filter audible = trace.filter audible :=
      List.filter_cons_of_neg (by simp [hear])
    refine .mk (w := w.record event) n (said.trans missing.symm) ?_
    rw [heard_record, if_neg (by simp [hear])]
    exact rest

theorem Apart.recordLinesOwn (apart : w.Apart audible trace v) (lines : List Line) :
    (w.recordLines lines).Apart audible ((lines.map Event.line).reverse ++ trace) v := by
  induction lines generalizing w trace with
  | nil => exact apart
  | cons line rest ih =>
    have more := ih (apart.recordOwn (.line line))
    rwa [List.map_cons, List.reverse_cons, List.append_assoc]

theorem Apart.beginCall (apart : w.Apart audible trace v) (c : Call) :
    (w.beginCall c).1.Apart audible trace (v.beginCall c).1 ∧
      (v.beginCall c).2 = (w.beginCall c).2 := by
  obtain ⟨n, said, rest⟩ := apart
  have begun : World.Apart audible trace { w with callsMade := w.callsMade + 1 }
      { w with callsMade := w.callsMade + 1, authorizationsBegun := n, journal := _ } :=
    .mk n said rest
  exact ⟨begun.record _, rfl⟩

theorem Apart.beginQuery (apart : w.Apart audible trace v) :
    w.beginQuery.1.Apart audible trace v.beginQuery.1 ∧ v.beginQuery.2 = w.beginQuery.2 := by
  obtain ⟨n, said, rest⟩ := apart
  have begun : World.Apart audible trace { w with queriesBegun := w.queriesBegun + 1 }
      { w with queriesBegun := w.queriesBegun + 1, authorizationsBegun := n, journal := _ } :=
    .mk n said rest
  exact ⟨(begun.record _).recordLines rfl, rfl⟩

theorem Apart.beginAuthorization (apart : w.Apart audible trace v)
    (steady : w.surroundings.Steady audible verdict) (who : Requester) :
    (w.beginAuthorization who).1.Apart audible trace (v.beginAuthorization who).1 ∧
      (v.beginAuthorization who).2.Agrees audible (w.beginAuthorization who).2 := by
  obtain ⟨n, said, rest⟩ := apart
  have begun : World.Apart audible trace
      { w with authorizationsBegun := w.authorizationsBegun + 1 }
      { w with authorizationsBegun := n + 1, journal := _ } :=
    .mk (n + 1) said rest
  have agrees := steady.agrees n w.authorizationsBegun who
  exact ⟨(begun.record (.authorize who)).recordLines agrees.lines, agrees⟩

@[simp]
theorem surroundings_recordLines (w : World) (lines : List Line) :
    (w.recordLines lines).surroundings = w.surroundings := by
  rw [recordLines_eq]

@[simp]
theorem surroundings_beginAuthorization (w : World) (who : Requester) :
    (w.beginAuthorization who).1.surroundings = w.surroundings :=
  surroundings_recordLines _ _

@[simp]
theorem surroundings_beginQuery (w : World) : w.beginQuery.1.surroundings = w.surroundings :=
  surroundings_recordLines _ _

theorem Asked.surroundings {w v : World} (asked : w.Asked v) :
    v.surroundings = w.surroundings := by
  cases asked with
  | nothing => rfl
  | line line => rfl
  | authorization who => exact w.surroundings_beginAuthorization who
  | query => exact w.surroundings_beginQuery

end World

/-! ## Exchanges -/

theorem surroundings_proceed {α : Type} (x : Exchange α) (w : World) :
    (proceed x w).1.surroundings = w.surroundings := by
  induction x generalizing w with
  | done result => rfl
  | note n rest ih => exact ih _
  | call c rest ih =>
    simp only [proceed]
    split
    · exact ih _ _
    · rfl
  | authorize who rest ih =>
    simp only [proceed]
    split
    · exact (ih _ _).trans (World.surroundings_beginAuthorization w who)
    · exact World.surroundings_beginAuthorization w who
  | modem rest ih => exact ih _ w
  | clock rest ih => exact ih _ w

/-- An exchange gets as far in both worlds, and one hears the same of it. -/
theorem World.Apart.proceed {α : Type} {audible : Event → Bool} {trace : List Event}
    {w v : World} {verdict : Requester → Verdict} (apart : w.Apart audible trace v)
    (steady : w.surroundings.Steady audible verdict) (x : Exchange α) :
    (proceed x w).1.Apart audible trace (proceed x v).1 ∧ (proceed x v).2 = (proceed x w).2 := by
  induction x generalizing w v with
  | done result => exact ⟨apart, rfl⟩
  | note n rest ih => exact ih (apart.record _) steady
  | call c rest ih =>
    obtain ⟨begun, same⟩ := apart.beginCall c
    simp only [Session.proceed, same, begun.now]
    split
    · exact ih _ begun steady
    · exact ⟨begun, rfl⟩
  | authorize who rest ih =>
    obtain ⟨begun, agrees⟩ := apart.beginAuthorization steady who
    simp only [Session.proceed, agrees.delay, agrees.refusal, begun.now]
    split
    · exact ih _ begun (by rwa [surroundings_beginAuthorization])
    · exact ⟨begun, rfl⟩
  | modem rest ih =>
    simp only [Session.proceed, apart.surroundings]
    exact ih _ apart steady
  | clock rest ih =>
    simp only [Session.proceed, apart.now]
    exact ih _ apart steady

end Modem.Session
