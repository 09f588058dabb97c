import Modem.Proofs.Session.Conservation
import Modem.Proofs.Session.Refusals

/-! # Runs without a refused request

What is left of a run when a refused request is deleted is a run. After each step of it the service
is the one after the same step of the whole run, but for what belongs to the caller. If the whole
run never waits while there is something to do, neither does what is left, as long as it is not the
caller alone who keeps the service running. -/

namespace Modem.Session.Account

open Signal

variable {config : Config} {supported : Bool} {stage : Stage} {a b : Account} {moves : List Move}
  {audible : Event → Bool} {p : Petition} {verdict : Requester → Verdict}

/-! ## Deleting moves -/

/-- The moves that do not belong to the request of a caller. -/
def without (caller : Nat) (a : Account) : List Move → List Move
  | [] => []
  | m :: rest =>
    if a.concerns caller m then (a.after m).without caller rest
    else m :: (a.after m).without caller rest

theorem without_append (caller : Nat) (a : Account) (first later : List Move) :
    a.without caller (first ++ later) =
      a.without caller first ++ (a.afterAll first).without caller later := by
  induction first generalizing a with
  | nil => rfl
  | cons m rest ih =>
    simp only [List.cons_append, without, ih]
    split
    · rfl
    · rfl

theorem allowsAll_of_append {first later : List Move} (allowed : a.AllowsAll (first ++ later)) :
    a.AllowsAll first :=
  (allowsAll_append.1 allowed).1

/-! ## Runs that do not wait -/

/-- Time passes only when there is nothing to do, and no further than to the next time at which
there can be. -/
def Prompt (a : Account) : Move → Prop
  | .pass time => a.service.ready = [] ∧ ∀ wake ∈ a.service.wake?, time ≤ wake
  | _ => True

instance (a : Account) (m : Move) : Decidable (a.Prompt m) :=
  match m with
  | .pass time =>
    inferInstanceAs (Decidable (a.service.ready = [] ∧ ∀ wake ∈ a.service.wake?, time ≤ wake))
  | .send .. | .surround _ | .close | .leave _ | .serve | .take _ =>
    inferInstanceAs (Decidable True)

/-- Something is so of each of the moves when its turn comes. -/
def Always (P : Account → Move → Prop) (a : Account) : List Move → Prop
  | [] => True
  | m :: rest => P a m ∧ (a.after m).Always P rest

instance decidableAlways (P : Account → Move → Prop) [∀ a m, Decidable (P a m)] (a : Account) :
    (moves : List Move) → Decidable (a.Always P moves)
  | [] => inferInstanceAs (Decidable True)
  | m :: rest =>
    have := decidableAlways P (a.after m) rest
    inferInstanceAs (Decidable (P a m ∧ (a.after m).Always P rest))

theorem always_append {P : Account → Move → Prop} {first later : List Move} :
    a.Always P (first ++ later) ↔ a.Always P first ∧ (a.afterAll first).Always P later := by
  induction first generalizing a with
  | nil => exact iff_of_eq (true_and _).symm
  | cons m rest ih => exact (and_congr_right fun _ => ih).trans and_assoc.symm

/-! ## Requests are sent once -/

theorem not_resent {caller : Nat} (allowed : a.AllowsAll moves)
    (old : caller ∈ a.sent.map Queued.caller) (request : Request) :
    .send caller request ∉ moves := by
  induction moves generalizing a with
  | nil => exact List.not_mem_nil
  | cons m rest ih =>
    rw [List.mem_cons, not_or]
    constructor
    · rintro rfl
      exact allowed.1 old
    · refine ih allowed.2 ?_
      cases m with
      | send sender request => exact List.mem_cons_of_mem _ old
      | _ => exact old

theorem sent_once {caller : Nat} {first second : Request} (allowed : a.AllowsAll moves)
    (one : .send caller first ∈ moves) (other : .send caller second ∈ moves) :
    first = second := by
  induction moves generalizing a with
  | nil => cases one
  | cons m rest ih =>
    have again : ∀ request, .send caller request = m → ∀ more, .send caller more ∉ rest := by
      rintro request rfl
      exact not_resent allowed.2 (by simp [Account.after])
    rcases List.mem_cons.1 one with here | one
    · rcases List.mem_cons.1 other with there | other
      · exact (Move.send.inj (here.trans there.symm)).2
      · exact absurd other (again first here second)
    · rcases List.mem_cons.1 other with there | other
      · exact absurd one (again second there first)
      · exact ih allowed.2 one other

/-! ## Before the request -/

/-- Nobody is answered who has not sent anything. -/
theorem Reachable.heard (reachable : Reachable config supported stage a) :
    ∀ r ∈ a.service.replies, r.caller ∈ a.sent.map Queued.caller := by
  obtain ⟨accepted, told, ledger⟩ := reachable.ledger
  intro r mem
  exact ledger.sent.mem_iff.1 (List.mem_append_right _ (List.mem_map_of_mem mem))

/-- A request that has not been sent yet has left no trace. -/
theorem Reachable.shadows (reachable : Reachable config supported stage a)
    (served : a.service.stage ≠ .direct) (new : p.caller ∉ a.sent.map Queued.caller)
    (steady : a.service.world.surroundings.Steady audible verdict) :
    Shadows audible p verdict [] a a := by
  have unsent : ∀ q ∈ a.sent, q.caller ≠ p.caller :=
    fun q mem same => new (List.mem_map.2 ⟨q, mem, same⟩)
  have undone : ∀ d ∈ a.deeds, d.purpose ≠ .answer p.caller := by
    intro d mem told
    have owed := reachable.requested.owed d mem
    rw [told] at owed
    exact new owed.caller_mem
  have queue : ∀ q ∈ a.service.queue, q.caller ≠ p.caller :=
    fun q mem => unsent q (reachable.requested.queued q mem)
  have checks : ∀ c ∈ a.service.checks, c.caller ≠ p.caller :=
    fun c mem => unsent _ (reachable.requested.pending c mem)
  have replies : ∀ r ∈ a.service.replies, r.caller ≠ p.caller :=
    fun r mem same => new (same ▸ reachable.heard r mem)
  refine ⟨?_, .unsent new ?_, ?_, ?_, served, steady, ?_⟩
  · refine Service.apart_of_eq (.same _) ?_
    have queue := List.filter_eq_self.2 fun q mem => decide_eq_true (queue q mem)
    have checks := List.filter_eq_self.2 fun c mem => decide_eq_true (checks c mem)
    have replies := List.filter_eq_self.2 fun r mem => decide_eq_true (replies r mem)
    rw [Service.without, queue, checks, replies]
  · have queue := List.filter_eq_nil_iff.2 fun q mem same => queue q mem (of_decide_eq_true same)
    have checks := List.filter_eq_nil_iff.2 fun c mem same => checks c mem (of_decide_eq_true same)
    have replies :=
      List.filter_eq_nil_iff.2 fun r mem same => replies r mem (of_decide_eq_true same)
    rw [Service.share, queue, checks, replies]
  · rintro ⟨d, mem, told⟩
    exact absurd told (undone d mem)
  · intro work busy
    have leading := reachable.tracks.leading
    rw [busy] at leading
    generalize deeds : a.deeds = all at leading
    cases leading with
    | @busy d earlier time history found expected => exact undone d (by simp [deeds])
  · exact (List.filter_eq_self.2 fun q mem => decide_eq_true (unsent q mem)).symm

/-! ## What others notice -/

/-- The second account is the first one without a petition, and nobody but its caller can tell. The
interface is the same, and so are all the other answers and the times at which they have been given.
Nobody misses anything but what has been written down for the petition. -/
structure Unnoticed (audible : Event → Bool) (p : Petition) (a b : Account) : Prop where
  interface : b.service.interface = a.service.interface
  replies : b.service.replies = a.service.replies.filter fun r => r.caller ≠ p.caller
  heard : ∃ own,
    Interleaved own (b.service.world.heard audible) (a.service.world.heard audible) ∧
      own.map Entry.event <:+ p.rejected.filter audible
  /-- Once the refusal has been handled, the caller has been told of it. -/
  handled : (∃ d ∈ a.deeds, d.purpose = .answer p.caller) →
    ∃ time, (a.service.replies.filter fun r => r.caller = p.caller) =
      [⟨p.caller, time, .error p.fault⟩]

theorem Stands.suffix {trace : List Event} (stands : a.Stands p trace) : trace <:+ p.rejected := by
  have noticed : p.noticed <:+ p.asked :=
    (List.suffix_cons _ _).trans (List.suffix_append _ _)
  have asked : p.asked <:+ p.rejected := List.suffix_cons _ _
  cases stands with
  | unsent | turnedAway | queued => exact List.nil_suffix
  | aside => exact noticed.trans asked
  | asked => exact asked
  | refused => exact List.suffix_rfl

theorem Shadows.unnoticed {trace : List Event} (shadows : Shadows audible p verdict trace a b) :
    Unnoticed audible p a b := by
  obtain ⟨apart, stands, handled, -⟩ := shadows
  obtain ⟨own, rest, said⟩ := apart.heard
  refine ⟨apart.interface, apart.replies, ⟨own, rest, ?_⟩, handled⟩
  rw [said]
  exact stands.suffix.filter audible

/-! ## Runs -/

theorem Shadows.unhurried {trace : List Event} {m : Move}
    (shadows : Shadows audible p verdict trace a b) (prompt : a.Prompt m)
    (kept : a.service.Kept p.caller) : b.Prompt m := by
  cases m with
  | pass time => exact ⟨shadows.apart.unready kept prompt.1, shadows.apart.wakes prompt.2⟩
  | _ => trivial

theorem Shadows.run {trace : List Event} (shadows : Shadows audible p verdict trace a b)
    (allowed : a.AllowsAll moves)
    (answers : ∀ surroundings, .surround surroundings ∈ moves → surroundings.Steady audible verdict)
    (asks : ∀ request, .send p.caller request ∈ moves → request = .setup p.rate p.who)
    (given : verdict p.who = p.verdict) (refused : p.verdict.refusal = some p.fault) :
    b.AllowsAll (a.without p.caller moves) ∧
      (∃ more,
        Shadows audible p verdict more (a.afterAll moves) (b.afterAll (a.without p.caller moves))) ∧
      (a.Always Prompt moves → a.Always (fun c _ => c.service.Kept p.caller) moves →
        b.Always Prompt (a.without p.caller moves)) := by
  induction moves generalizing a b trace with
  | nil => exact ⟨trivial, ⟨trace, shadows⟩, fun _ _ => trivial⟩
  | cons m rest ih =>
    have answers' := fun s mem => answers s (List.mem_cons_of_mem m mem)
    have asks' := fun request mem => asks request (List.mem_cons_of_mem m mem)
    -- A move of the caller drops out and the second account stays; any other is made in both.
    cases mine : a.concerns p.caller m with
    | true =>
      have asked : ∀ request, m = .send p.caller request → request = .setup p.rate p.who :=
        fun request same => asks request (same ▸ List.mem_cons_self)
      obtain ⟨more, moved⟩ := shadows.petition allowed.1 mine asked given refused
      obtain ⟨possible, shadowed, prompt⟩ := ih moved allowed.2 answers' asks'
      rw [without, if_pos mine]
      exact ⟨possible, shadowed, fun before kept => prompt before.2 kept.2⟩
    | false =>
      have answered : ∀ s, m = .surround s → s.Steady audible verdict :=
        fun s same => answers s (same ▸ List.mem_cons_self)
      obtain ⟨here, moved⟩ := shadows.other allowed.1 mine answered
      obtain ⟨possible, shadowed, prompt⟩ := ih moved allowed.2 answers' asks'
      rw [without, if_neg (by simp [mine])]
      exact ⟨⟨here, possible⟩, shadowed, fun before kept =>
        ⟨shadows.unhurried before.1 kept.1, prompt before.2 kept.2⟩⟩

/-- Nobody but the caller notices a Setup request whose authorization is refused. What is left of a
run without it is a run, and after each step of it nobody else has noticed anything, whatever they
listen to, if that does not tell them how often the authorizer has been asked. As long as it is not
the caller alone who keeps the service running, what is left waits no more than the run does. -/
theorem refusal_is_invisible (reachable : Reachable config supported stage a)
    (served : a.service.stage ≠ .direct) (allowed : a.AllowsAll moves)
    (sent : .send p.caller (.setup p.rate p.who) ∈ moves)
    (steady : a.service.world.surroundings.Steady audible verdict)
    (answers : ∀ surroundings, .surround surroundings ∈ moves → surroundings.Steady audible verdict)
    (given : verdict p.who = p.verdict) (refused : p.verdict.refusal = some p.fault) :
    a.AllowsAll (a.without p.caller moves) ∧
      (∀ first later, moves = first ++ later →
        a.without p.caller first <+: a.without p.caller moves ∧
          Unnoticed audible p (a.afterAll first) (a.afterAll (a.without p.caller first))) ∧
      (a.Always Prompt moves → a.Always (fun c _ => c.service.Kept p.caller) moves →
        a.Always Prompt (a.without p.caller moves)) := by
  have new : p.caller ∉ a.sent.map Queued.caller := fun old => not_resent allowed old _ sent
  have asks : ∀ request, .send p.caller request ∈ moves → request = .setup p.rate p.who :=
    fun request asked => sent_once allowed asked sent
  have shadows : Shadows audible p verdict [] a a := reachable.shadows served new steady
  obtain ⟨possible, -, prompt⟩ := shadows.run allowed answers asks given refused
  refine ⟨possible, ?_, prompt⟩
  rintro first later rfl
  constructor
  · rw [without_append]
    exact List.prefix_append _ _
  · obtain ⟨-, ⟨trace, shadowed⟩, -⟩ := shadows.run (allowsAll_of_append allowed)
      (fun s mem => answers s (List.mem_append_left _ mem))
      (fun request mem => asks request (List.mem_append_left _ mem)) given refused
    exact shadowed.unnoticed

/-- A request is refused between two ticks of the timer that another request has started. The
authorizer counts what it is asked, but only in the log. -/
theorem refusal_between_ticks :
    let petition : Petition :=
      ⟨2, 7, ⟨":1.9"⟩, { delay := 1500, refusal := some (.unauthorized "no") }, .unauthorized "no"⟩
    let verdict : Requester → Verdict :=
      fun who => if who = petition.who then petition.verdict else { delay := 10 }
    let a := fresh {} true .serving
      { obliging .registered {} with
        authorizer := fun n who =>
          { verdict who with lines := [⟨.debug, "Authorization " ++ toString n⟩] } }
    let before : List Move := [.send 0 .bringUp, .take .request, .send 1 (.setup 1 ⟨":1.1"⟩)]
    let between : List Move := [.pass 10, .take (.check 1), .take (.load ⟨0, 0⟩), .pass 1010,
      .take .tick, .take (.load ⟨1, 0⟩), .pass 1500]
    let after : List Move := [.pass 2010, .take .tick, .take (.load ⟨2, 0⟩)]
    let whole := before ++ .send 2 (.setup 7 petition.who) :: .take .request :: .take .request ::
      .take (.check 1) :: .take (.check 2) :: between ++ .take (.check 2) :: after
    let left := before ++ .take .request :: .take (.check 1) :: between ++ after
    a.AllowsAll left ∧ a.Always Prompt left ∧
      Unnoticed Event.outward petition (a.afterAll whole) (a.afterAll left) ∧
      ∃ time, ((a.afterAll whole).service.replies.filter fun r => r.caller = 2) =
        [⟨2, time, .error (.unauthorized "no")⟩] := by
  intro petition verdict a before between after whole left
  have started : a.AllowsAll [] := trivial
  have reachable : Reachable {} true .serving a := reachable_afterAll rfl started
  have allowed : a.AllowsAll whole := by decide +kernel
  have prompt : a.Always Prompt whole := by decide +kernel
  have kept : a.Always (fun c _ => c.service.Kept 2) whole := by decide +kernel
  have short : a.without 2 whole = left := by rfl
  have steady : a.service.world.surroundings.Steady Event.outward verdict :=
    fun n who => Verdict.agrees_outward rfl rfl
  have given : verdict petition.who = petition.verdict := rfl
  obtain ⟨possible, unnoticed, unhurried⟩ := refusal_is_invisible reachable (by decide) allowed
    (by simp [whole, petition]) steady (by simp [whole, before, between, after]) given rfl
  obtain ⟨-, unnoticed⟩ := unnoticed whole [] (List.append_nil whole).symm
  have told := unnoticed.handled (by decide +kernel)
  have waits := unhurried prompt kept
  rw [short] at possible unnoticed waits
  exact ⟨possible, waits, unnoticed, told⟩

end Modem.Session.Account
