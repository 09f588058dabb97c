import Modem.Proofs.Session.Moves
import Modem.Proofs.Signal.Brevity

/-! # Services at rest

While nobody waits for an answer, a service does nothing but refresh. As long as each call is over
within the patience of the surroundings, each refresh is over soon, and a script can let any time
pass. -/

namespace Modem.Session

open Signal

/-- No call and no authorization takes longer than the patience. -/
structure Surroundings.Patient (s : Surroundings) : Prop where
  bus : ∀ n c, (s.bus n c).delay ≤ s.patience
  authorizer : ∀ n who, (s.authorizer n who).delay ≤ s.patience

/-! ## Brief exchanges -/

theorem World.authorizationsBegun_beginQuery (w : World) :
    w.beginQuery.1.authorizationsBegun = w.authorizationsBegun := by
  rw [beginQuery, recordLines_eq]
  rfl

/-- A brief exchange comes to its end, or waits for the answer to one of its calls. -/
theorem proceed_of_brief {α : Type} {n : Nat} {x : Exchange α} (brief : x.Brief n) {w : World}
    (patient : w.surroundings.Patient) :
    (proceed x w).1.authorizationsBegun = w.authorizationsBegun ∧
      ((∃ result, (proceed x w).2 = .finished result) ∨
        ∃ m time rest, n = m + 1 ∧ (proceed x w).2 = .waiting time rest ∧ rest.Brief m ∧
          time ≤ w.now + w.surroundings.patience) := by
  induction brief generalizing w with
  | done n result => exact ⟨rfl, .inl ⟨result, rfl⟩⟩
  | note l tail ih => exact ih (w := w.record (eventOf l)) patient
  | @call n rest c tails ih =>
    simp only [proceed]
    split
    · obtain ⟨begun, finished | ⟨m, time, rest, rfl, waiting, brief, soon⟩⟩ :=
        ih (w.beginCall c).2.fault (w := (w.beginCall c).1) patient
      · exact ⟨begun, .inl finished⟩
      · exact ⟨begun, .inr ⟨m + 1, time, rest, rfl, waiting, brief.mono (Nat.le_succ m), soon⟩⟩
    · exact ⟨rfl, .inr ⟨n, _, _, rfl, rfl, tails _, Nat.add_le_add_left (patient.bus _ _) _⟩⟩
  | modem tails ih => exact ih _ patient
  | clock tails ih => exact ih _ patient

namespace Service

variable {s t u : Service} {occurrence : Occurrence}

/-- What concerns those who wait is as it was. -/
structure Spares (s t : Service) : Prop where
  replies : t.replies = s.replies
  queue : t.queue = s.queue
  checks : t.checks = s.checks
  stage : t.stage = s.stage
  isOpen : t.isOpen = s.isOpen
  surroundings : t.world.surroundings = s.world.surroundings
  begun : t.world.authorizationsBegun = s.world.authorizationsBegun
  now : t.now = s.now

theorem Spares.trans (first : s.Spares t) (second : t.Spares u) : s.Spares u where
  replies := second.replies.trans first.replies
  queue := second.queue.trans first.queue
  checks := second.checks.trans first.checks
  stage := second.stage.trans first.stage
  isOpen := second.isOpen.trans first.isOpen
  surroundings := second.surroundings.trans first.surroundings
  begun := second.begun.trans first.begun
  now := second.now.trans first.now

/-- The work under way is a refresh that waits for its last answer. -/
def Refreshes (s : Service) : Prop :=
  ∀ work, s.work = some work → work.purpose = .refresh ∧ work.rest.Brief 0

/-- Nobody waits, and the work under way is a refresh. -/
structure Rests (s : Service) : Prop where
  queue : s.queue = []
  checks : s.checks = []
  refreshes : s.Refreshes

theorem refreshes_of_idle (idle : s.work = none) : s.Refreshes :=
  fun work busy => by cases idle.symm.trans busy

/-- The service runs, nobody waits, and whatever is asked is answered within the patience. -/
structure Available (s : Service) : Prop where
  serving : s.stage = .serving
  isOpen : s.isOpen = true
  patient : s.world.surroundings.Patient
  rests : s.Rests

theorem Available.passes (available : s.Available) (time : Nat) : (s.moveTo time).Available :=
  ⟨available.serving, available.isOpen, available.patient, available.rests.queue,
    available.rests.checks, available.rests.refreshes⟩

theorem Available.surround (available : s.Available) {surroundings : Surroundings}
    (patient : surroundings.Patient) :
    ({ s with world := { s.world with surroundings } } : Service).Available :=
  ⟨available.serving, available.isOpen, patient, available.rests.queue, available.rests.checks,
    available.rests.refreshes⟩

theorem ne_request_of_mem_ready (queue : s.queue = []) (ready : occurrence ∈ s.ready) :
    occurrence ≠ .request := by
  rintro rfl
  cases ready_of_mem ready with
  | request idle going waiting => exact waiting queue

theorem mem_checks_of_mem_ready {asking : Nat} (ready : .check asking ∈ s.ready) :
    ∃ c ∈ s.checks, c.caller = asking := by
  cases ready_of_mem ready with
  | check _ idle serving mem => exact mem_checks_of_ready mem

/-- What is brief ends at once, or waits no longer than the patience. -/
theorem perform_of_brief (patient : s.world.surroundings.Patient) (purpose : Purpose) {n : Nat}
    {x : Exchange (Interface × Answer)} (brief : x.Brief n) :
    let world := (proceed x s.world).1
    (∃ result, s.perform purpose x = { s with world }.finish purpose result ∧
        (proceed x s.world).2.rest = .done result) ∨
      ∃ m time rest, n = m + 1 ∧
        s.perform purpose x = { s with world, work := some ⟨purpose, time, rest⟩ } ∧
        (proceed x s.world).2.rest = rest ∧ rest.Brief m ∧
        time ≤ s.now + s.world.surroundings.patience := by
  obtain ⟨-, ends⟩ := proceed_of_brief brief patient
  unfold perform
  split
  next world result progress =>
    simp only [progress]
    exact .inl ⟨result, rfl, rfl⟩
  next world time rest progress =>
    rw [progress] at ends ⊢
    obtain ⟨result, finished⟩ | ⟨m, later, left, rfl, waiting, brief, soon⟩ := ends
    · cases finished
    · injection waiting with time rest
      subst time rest
      exact .inr ⟨m, _, _, rfl, rfl, rfl, brief, soon⟩

theorem spares_perform (patient : s.world.surroundings.Patient) {n : Nat}
    {x : Exchange (Interface × Answer)} (brief : x.Brief n) :
    s.Spares (s.perform .refresh x) := by
  have begun := (proceed_of_brief brief patient).1
  have now := now_proceed x s.world
  have surroundings : (proceed x s.world).1.surroundings = s.world.surroundings :=
    surroundings_proceed x s.world
  rcases perform_of_brief patient .refresh brief with
    ⟨result, same, -⟩ | ⟨m, time, rest, -, same, -⟩
  · rw [same]
    exact ⟨rfl, rfl, rfl, rfl, rfl, surroundings, begun, now⟩
  · rw [same]
    exact ⟨rfl, rfl, rfl, rfl, rfl, surroundings, begun, now⟩

end Service

namespace Account

variable {config : Config} {supported : Bool} {stage : Stage} {o a b : Account}
  {occurrence : Service.Occurrence}

/-! ## Refreshes -/

/-- A refresh begins or ends, or something moves that nobody waits for. -/
structure Refreshed (a b : Account) : Prop where
  spares : a.service.Spares b.service
  refreshes : b.service.Refreshes
  ended : b.ended = a.ended ∨ ∃ d : Deed, d.purpose = .refresh ∧ b.ended = d :: a.ended
  soon : b.service.work = none ∨ a.service.work = none ∧
    ∀ work, b.service.work = some work →
      work.time ≤ a.service.now + a.service.world.surroundings.patience

/-- What ends a refresh, or leaves it waiting for its last answer. -/
theorem refreshed_of_performed {s : Service} {d : Deed} {x : Exchange (Interface × Answer)}
    {n : Nat} (spares : a.service.Spares s) (idle : s.work = none)
    (patient : s.world.surroundings.Patient) (brief : x.Brief n) (few : n ≤ 1)
    (free : n = 1 → a.service.work = none) (goes : b.service = s.perform .refresh x)
    (deeds : b.deeds = d :: a.ended) (purpose : d.purpose = .refresh) : Refreshed a b := by
  have performed := Service.spares_perform patient brief
  rw [← goes] at performed
  have now := spares.now
  have surroundings := spares.surroundings
  have ended : b.ended = a.ended ∨ ∃ d : Deed, d.purpose = .refresh ∧ b.ended = d :: a.ended := by
    cases busy : b.service.work with
    | none => exact .inr ⟨d, purpose, by rw [ended_of_idle busy, deeds]⟩
    | some work =>
      refine .inl ?_
      rw [ended_of_busy busy, deeds]
      rfl
  rcases Service.perform_of_brief patient .refresh brief with
    ⟨result, same, -⟩ | ⟨m, time, rest, rfl, same, -, left, soon⟩
  · have still : b.service.work = none := by
      rw [goes, same, Service.work_finish]
      exact idle
    exact ⟨spares.trans performed, Service.refreshes_of_idle still, ended, .inl still⟩
  · obtain rfl : m = 0 := by omega
    have busy : b.service.work = some ⟨.refresh, time, rest⟩ := by rw [goes, same]
    refine ⟨spares.trans performed, fun work here => ?_, ended,
      .inr ⟨free rfl, fun work here => ?_⟩⟩
    · obtain rfl := Option.some.inj (busy.symm.trans here)
      exact ⟨rfl, left⟩
    · obtain rfl := Option.some.inj (busy.symm.trans here)
      rwa [now, surroundings] at soon

/-- Whatever is neither a request nor an authorization is a refresh. -/
theorem Reachable.refreshed (reachable : Reachable config supported stage a)
    (attends : a.service.Attends) (refreshes : a.service.Refreshes)
    (patient : a.service.world.surroundings.Patient) (ready : occurrence ∈ a.service.ready)
    (plain : occurrence ≠ .request) (unasked : ∀ caller, occurrence ≠ .check caller) :
    Refreshed a (a.after (.take occurrence)) := by
  by_cases resume : occurrence = .resume
  · subst resume
    obtain ⟨work, busy⟩ := Service.busy_of_resume_mem_ready ready
    obtain ⟨purpose, brief⟩ := refreshes work busy
    have leading := reachable.tracks.leading
    rw [busy] at leading
    rcases began : a.deeds with _ | ⟨d, earlier⟩
    · rw [began] at leading
      cases leading
    · have ended : a.ended = earlier := by rw [ended_of_busy busy, began, List.tail_cons]
      rw [began] at leading
      have whose : d.purpose = work.purpose := by
        cases leading with
        | busy => rfl
      refine refreshed_of_performed (s := { a.service with work := none })
        (d := d.resume a.service.world) (x := work.rest)
        ⟨rfl, rfl, rfl, rfl, rfl, rfl, rfl, rfl⟩ rfl patient brief (by decide) nofun ?_ ?_
        (whose.trans purpose)
      · simp only [after, Service.take, busy, purpose]
      · simp only [after, deedsAfter, began, ended]
  · have idle := Service.idle_of_mem_ready ready resume
    have prepares := attends.prepares ready resume
    rcases prepared : a.service.prepare occurrence with ⟨t, job⟩
    rw [prepared] at prepares
    rw [after_take resume prepared]
    have begins {s : Service} {operation : Operation} (spares : a.service.Spares s)
        (still : s.work = none) (brief : (s.interface.carryOut operation).Brief 1) :
        Refreshed a ⟨s.carryOut ⟨.refresh, operation⟩, a.sent,
          .begin ⟨.refresh, operation⟩ s :: a.deeds⟩ :=
      refreshed_of_performed (d := .begin ⟨.refresh, operation⟩ s) spares still
        (spares.surroundings ▸ patient) brief (Nat.le_refl 1) (fun _ => idle) rfl
        (by rw [ended_of_idle idle]) rfl
    have asked : a.service.Spares { a.service with world := a.service.world.beginQuery.1 } :=
      ⟨rfl, rfl, rfl, rfl, rfl, World.surroundings_beginQuery _,
        World.authorizationsBegun_beginQuery _, World.now_beginQuery _⟩
    cases prepares with
    | setAside | serve => exact absurd rfl plain
    | arrived c | prompt c | asked c => exact absurd rfl (unasked c.caller)
    | tick => exact begins ⟨rfl, rfl, rfl, rfl, rfl, rfl, rfl, rfl⟩ idle (Interface.brief_tick _)
    | answered l mem =>
      exact begins ⟨rfl, rfl, rfl, rfl, rfl, rfl, rfl, rfl⟩ idle (Interface.brief_loaded _ _ _)
    | loaded query waits =>
      exact begins (asked.trans ⟨rfl, rfl, rfl, rfl, rfl, rfl, rfl, rfl⟩) idle
        (Interface.brief_loaded _ _ _)
    | reached query waits arrival =>
      exact ⟨asked.trans ⟨rfl, rfl, rfl, rfl, rfl, rfl, rfl, rfl⟩,
        Service.refreshes_of_idle idle,
        .inl ((ended_of_idle (a := { a with service := _ }) idle).trans (ended_of_idle idle).symm),
        .inl idle⟩

/-! ## Since a request was sent -/

/-- Nothing but refreshes has ended since an account, and nobody has been answered. -/
structure Since (o a : Account) : Prop where
  run : Run o a
  serving : a.service.stage = .serving
  isOpen : a.service.isOpen = true
  surroundings : a.service.world.surroundings = o.service.world.surroundings
  replies : a.service.replies = o.service.replies
  ended : ∃ later : List Deed, (∀ d ∈ later, d.purpose = .refresh) ∧ a.ended = later ++ o.ended

theorem Since.refl (serving : o.service.stage = .serving) (isOpen : o.service.isOpen = true) :
    Since o o :=
  ⟨.refl, serving, isOpen, rfl, rfl, [], fun _ mem => absurd mem List.not_mem_nil, rfl⟩

theorem Since.attends (since : Since o a) : a.service.Attends :=
  ⟨since.serving, since.isOpen⟩

theorem Since.patient (since : Since o a) (patient : o.service.world.surroundings.Patient) :
    a.service.world.surroundings.Patient :=
  since.surroundings ▸ patient

theorem Since.kept (since : Since o a) (run : Run o b) (ended : b.ended = a.ended)
    (serving : b.service.stage = a.service.stage) (isOpen : b.service.isOpen = a.service.isOpen)
    (surroundings : b.service.world.surroundings = a.service.world.surroundings)
    (replies : b.service.replies = a.service.replies) : Since o b :=
  ⟨run, serving.trans since.serving, isOpen.trans since.isOpen,
    surroundings.trans since.surroundings, replies.trans since.replies, ended ▸ since.ended⟩

theorem Since.passes (since : Since o a) (time : Nat) : Since o (a.after (.pass time)) :=
  since.kept (since.run.step trivial) rfl rfl rfl rfl rfl

theorem Since.refreshed (since : Since o a) (allowed : a.Allows (.take occurrence))
    (refreshed : Refreshed a (a.after (.take occurrence))) :
    Since o (a.after (.take occurrence)) := by
  obtain ⟨run, serving, isOpen, surroundings, replies, later, refreshes, ended⟩ := since
  have spares := refreshed.spares
  refine ⟨run.step allowed, spares.stage.trans serving, spares.isOpen.trans isOpen,
    spares.surroundings.trans surroundings, spares.replies.trans replies, ?_⟩
  rcases refreshed.ended with same | ⟨d, refresh, more⟩
  · exact ⟨later, refreshes, same.trans ended⟩
  · exact ⟨d :: later, List.forall_mem_cons.2 ⟨refresh, refreshes⟩, by rw [more, ended]; rfl⟩

/-! ## While nobody waits -/

/-- Nobody waits, so whatever is taken up is a refresh. -/
theorem Since.rests (since : Since o a) (reachable : Reachable config supported stage o)
    (available : a.service.Available) (ready : occurrence ∈ a.service.ready) :
    Since o (a.after (.take occurrence)) ∧ (a.after (.take occurrence)).service.Available := by
  have rests := available.rests
  have unasked (asking : Nat) : occurrence ≠ .check asking := by
    rintro rfl
    obtain ⟨c, pending, -⟩ := Service.mem_checks_of_mem_ready ready
    rw [rests.checks] at pending
    cases pending
  have refreshed := (reachable.run since.run).refreshed since.attends rests.refreshes
    available.patient ready (Service.ne_request_of_mem_ready rests.queue ready) unasked
  have spares := refreshed.spares
  exact ⟨since.refreshed ready refreshed, spares.stage.trans available.serving,
    spares.isOpen.trans available.isOpen, spares.surroundings ▸ available.patient,
    spares.queue.trans rests.queue, spares.checks.trans rests.checks, refreshed.refreshes⟩

/-- While nobody waits, only refreshes end. -/
theorem Reachable.rests (reachable : Reachable config supported stage o)
    (available : o.service.Available) (limit : Nat) :
    ∃ b, Run o b ∧ b.sent = o.sent ∧
      b.service = o.service.advance (fun _ => false) limit (o.service.moves limit) ∧
      Since o b ∧ b.service.Available := by
  obtain ⟨b, run, here, sent, ⟨since, rests⟩, -⟩ :=
    goes_on (P := fun a => Since o a ∧ a.service.Available) (fun _ => false) limit
      (fun ⟨since, _⟩ => ⟨reachable.run since.run, since.attends⟩)
      (fun {a occurrence rest} ⟨since, available⟩ _ ready =>
        since.rests reachable available (by rw [ready]; exact List.mem_cons_self))
      (fun ⟨since, available⟩ _ _ _ _ => ⟨since.passes _, available.passes _⟩)
      ⟨.refl available.serving available.isOpen, available⟩ (Service.effort_le_moves _ _)
  exact ⟨b, run, sent, here, since, rests⟩

theorem Reachable.settles (reachable : Reachable config supported stage o)
    (available : o.service.Available) :
    ∃ b, Run o b ∧ b.sent = o.sent ∧ b.service = o.service.settle ∧ Since o b ∧
      b.service.Available :=
  reachable.rests available o.service.now

theorem Reachable.sleeps (reachable : Reachable config supported stage o)
    (available : o.service.Available) (duration : Nat) :
    ∃ b, Run o b ∧ b.sent = o.sent ∧ b.service = o.service.sleep duration ∧ Since o b ∧
      b.service.Available := by
  obtain ⟨b, run, sent, here, since, rests⟩ :=
    reachable.rests available (o.service.now + duration)
  refine ⟨_, run.step (m := .pass (o.service.now + duration)) trivial, sent, ?_, since.passes _,
    rests.passes _⟩
  rw [after, here]
  rfl

end Account

end Modem.Session
