import Modem.Proofs.Session.Past

/-! # Rates

Any number of Setup requests can wait for their authorizations at once. The rate belongs to the one
whose authorization was granted last while there was an object, and nothing else changes it or
reaches the object as a rate. What has been granted is what the authorizer has let pass. -/

namespace Modem.Session

open Signal

namespace Deed

/-- The deed creates the object. -/
def creates (d : Deed) : Bool := d.found.createsBy d.operation

/-- The rate that the deed sets on the object. -/
def announced? (d : Deed) : Option UInt32 := d.found.announcedBy d.turns d.operation

theorem announced?_of_creates {d : Deed} (creates : d.creates = true) :
    d.announced? = some d.found.status.rate := by
  rw [announced?, Interface.announcedBy]
  exact if_pos creates

theorem announced?_of_not_creates {d : Deed} (other : d.creates = false) :
    d.announced? = d.stored? := by
  have plain : ¬d.creates = true := by simp [other]
  rw [announced?, Interface.announcedBy]
  exact if_neg plain

/-- The rates that a deed has set on the object so far, the latest first. -/
def rates (d : Deed) : List UInt32 := (Signal.calls d.turns).reverse.filterMap Call.rate?

theorem rates_suffix (d : Deed) : d.rates <:+ d.announced?.toList := by
  have made := (calls_begin_callsOf d).filterMap Call.rate?
  rw [Interface.rates_callsOf] at made
  have single : (d.found.announcedBy d.turns d.operation).toList.reverse =
      d.announced?.toList := by
    unfold announced?
    cases d.found.announcedBy d.turns d.operation <;> rfl
  rw [rates, List.filterMap_reverse, ← single]
  exact List.reverse_suffix.2 made

theorem rates_of_ended {d : Deed} {result : Interface × Answer} (ended : d.rest = .done result) :
    d.rates = d.announced?.toList := by
  rw [rates, List.filterMap_reverse, (effect ended).2, Interface.rates_callsOf, announced?]
  cases d.found.announcedBy d.turns d.operation <;> rfl

end Deed

namespace History

variable {config : Config} {supported : Bool} {deeds : List Deed} {last : Interface}

/-- The rate is the one stored last. -/
theorem rate (history : History (.fresh config supported) deeds last) :
    last.status.rate = (deeds.findSome? Deed.stored?).getD config.initialRate := by
  induction history with
  | nil => rfl
  | @cons earlier d i answer before expected ended ih =>
    have stored : i.status.rate = d.stored?.getD d.found.status.rate := (Deed.effect ended).1.rate
    rw [stored, List.findSome?_cons]
    cases d.stored? with
    | some rate => rfl
    | none => exact ih

/-- The object is created at most once, and only where it has not been. -/
theorem creations (history : History (.fresh config supported) deeds last) :
    deeds.countP Deed.creates ≤ 1 ∧ (last.made = false → deeds.countP Deed.creates = 0) := by
  induction history with
  | nil => exact ⟨Nat.zero_le 1, fun _ => rfl⟩
  | @cons earlier d i answer before expected ended ih =>
    have kept := (Deed.effect ended).1.made
    rw [List.countP_cons]
    by_cases creates : d.creates = true
    · have unmade := Interface.not_made_of_creates creates
      have made : i.made = true := kept (by simpa [Deed.creates] using .inr creates)
      simp [creates, ih.2 unmade, made]
    · have same : i.made = false → d.found.made = false := by
        intro unmade
        cases found : d.found.made with
        | false => rfl
        | true => simp [kept (by simp [found])] at unmade
      rw [if_neg creates, Nat.add_zero]
      exact ⟨ih.1, fun unmade => ih.2 (same unmade)⟩

theorem rates_eq (history : History (.fresh config supported) deeds last) :
    deeds.flatMap Deed.rates = deeds.filterMap Deed.announced? := by
  induction history with
  | nil => rfl
  | @cons earlier d i answer before expected ended ih =>
    rw [List.flatMap_cons, ih, Deed.rates_of_ended ended, List.filterMap_cons]
    cases d.announced? <;> rfl

end History

namespace Account

variable {config : Config} {supported : Bool} {stage : Stage} {a : Account}

/-- The rates that have been set on the object, the latest first. -/
def rates (a : Account) : List UInt32 := a.service.world.calls.filterMap Call.rate?

theorem rates_eq_flatMap (reachable : Reachable config supported stage a) :
    a.rates = a.deeds.flatMap Deed.rates := by
  rw [rates, reachable.tracks.calls, List.filterMap_flatMap]
  rfl

theorem rates_of_idle (reachable : Reachable config supported stage a)
    (idle : a.service.work = none) : a.rates = a.deeds.filterMap Deed.announced? :=
  (rates_eq_flatMap reachable).trans (reachable.history idle).rates_eq

/-- While a deed is under way, the object may still miss the rate that the deed sets on it. -/
theorem rates_suffix (reachable : Reachable config supported stage a) :
    a.rates <:+ a.deeds.filterMap Deed.announced? := by
  by_cases idle : a.service.work = none
  · exact ⟨[], rates_of_idle reachable idle⟩
  · have rates := rates_eq_flatMap reachable
    cases deeds : a.deeds with
    | nil =>
      have silent : a.rates = [] := rates.trans (by simp [deeds])
      simp [silent]
    | cons d earlier =>
      have history := reachable.found_latest deeds
      obtain ⟨missing, whole⟩ := d.rates_suffix
      rw [deeds, List.flatMap_cons, history.rates_eq] at rates
      refine ⟨missing, ?_⟩
      rw [rates, ← List.append_assoc, whole, List.filterMap_cons]
      cases d.announced? <;> rfl

theorem creations_le_one (reachable : Reachable config supported stage a) :
    a.deeds.countP Deed.creates ≤ 1 := by
  cases deeds : a.deeds with
  | nil => exact Nat.zero_le 1
  | cons d earlier =>
    have history := reachable.found_latest deeds
    rw [List.countP_cons]
    by_cases creates : d.creates = true
    · have unmade := Interface.not_made_of_creates creates
      simp [creates, history.creations.2 unmade]
    · rw [if_neg creates, Nat.add_zero]
      exact history.creations.1

/-- Only a Setup request that has been sent is granted. -/
theorem setup_of_granted (reachable : Reachable config supported stage a) {d : Deed} {rate : UInt32}
    (mem : d ∈ a.deeds) (granted : d.operation.granted? d.turns = some rate) :
    ∃ caller who, d.purpose = .answer caller ∧ ⟨caller, .setup rate who⟩ ∈ a.sent := by
  have owed := reachable.requested.owed d mem
  generalize d.purpose = purpose, d.operation = operation at owed granted ⊢
  cases owed with
  | @serve caller request sent =>
    cases request with
    | setup asked who =>
      simp only [Operation.granted?] at granted
      split at granted
      · obtain rfl := Option.some.inj granted
        exact ⟨caller, who, rfl, sent⟩
      · cases granted
    | _ => cases granted
  | @conclude caller asked who refusal sent =>
    cases refusal with
    | none =>
      obtain rfl := Option.some.inj granted
      exact ⟨caller, who, rfl, sent⟩
    | some fault => cases granted
  | _ => cases granted

/-- A request is granted exactly if the authorizer has let its caller pass. -/
theorem Past.granted?_eq_some_iff (past : Past config supported stage a) {d : Deed} {rate : UInt32}
    (mem : d ∈ a.deeds) :
    d.operation.granted? d.turns = some rate ↔
      ∃ caller who, d.purpose = .answer caller ∧ ⟨caller, .setup rate who⟩ ∈ a.sent ∧
        ⟨caller, who, none⟩ ∈ past.decisions := by
  have decided := past.decided
  have requested := past.reachable.requested
  constructor
  · intro granted
    obtain ⟨caller, who, purpose, sent⟩ := setup_of_granted past.reachable mem granted
    obtain ⟨refusal, said, acts⟩ := decided.decision_of_deed requested mem purpose sent
    refine ⟨caller, who, purpose, sent, ?_⟩
    have passed := Operation.decided?_of_granted granted
    rcases acts with concludes | ⟨serves, told⟩
    · rw [concludes] at passed
      rwa [← Option.some.inj passed]
    · rw [serves] at passed
      rwa [← Option.some.inj (told.symm.trans passed)]
  · rintro ⟨caller, who, purpose, sent, passed⟩
    obtain ⟨refusal, said, acts⟩ := decided.decision_of_deed requested mem purpose sent
    obtain rfl : refusal = none := congrArg Decision.refusal (decided.unique said passed rfl)
    rcases acts with concludes | ⟨serves, told⟩
    · rw [concludes]
      rfl
    · rw [serves]
      exact if_pos told

/-- The deed has found an object, and its caller is one whom the authorizer has let pass. -/
theorem Past.stored?_eq_some_iff (past : Past config supported stage a) {d : Deed} {rate : UInt32}
    (begun : d ∈ a.deeds ∨ ∃ deeds i, a.Moment deeds i ∧ d ∈ deeds) :
    d.stored? = some rate ↔
      d.found.reporting.attached = true ∧
        ∃ caller who, d.purpose = .answer caller ∧ ⟨caller, .setup rate who⟩ ∈ a.sent ∧
          ⟨caller, who, none⟩ ∈ past.decisions := by
  have whole {e : Deed} (mem : e ∈ a.deeds) :
      e.stored? = some rate ↔ e.found.reporting.attached = true ∧
        e.operation.granted? e.turns = some rate := Option.ite_none_right_eq_some
  rcases begun with mem | ⟨deeds, i, moment, ended⟩
  · rw [whole mem, past.granted?_eq_some_iff mem]
  · obtain ⟨e, mem, more, purpose, operation, found, turns⟩ := moment.begun d ended
    have same : d.stored? = e.stored? := by
      have granted := (past.decided.begun e mem).granted?_append more
      rw [Deed.stored?, Deed.stored?, Interface.storedBy, Interface.storedBy, found, operation,
        turns, granted]
    rw [same, whole mem, past.granted?_eq_some_iff mem, purpose, found]

/-- The caller of a Setup request is answered well only at the end of the deed that has stored its
rate. -/
theorem stored_of_answered (reachable : Reachable config supported stage a) {reply : Reply}
    {rate : UInt32} {who : Requester} (answered : a.Answered reply) (ok : reply.answer = .ok ())
    (sent : ⟨reply.caller, .setup rate who⟩ ∈ a.sent) :
    a.service.interface.status.rate = rate ∧
      ∃ d earlier, a.deeds = d :: earlier ∧ d.stored? = some rate := by
  obtain ⟨idle, d, earlier, deeds, told, ended⟩ := answered
  have requested := reachable.requested
  have owed := requested.owed d (by simp [deeds])
  have setup : (∃ who, d.operation = .serve (.setup rate who)) ∨
      ∃ refusal, d.operation = .conclude rate refusal := by
    rw [told] at owed
    generalize d.operation = operation at owed ⊢
    cases owed with
    | serve asked =>
      obtain rfl := requested.unique asked sent
      exact .inl ⟨who, rfl⟩
    | conclude refusal asked =>
      obtain ⟨rfl, -⟩ := Request.setup.inj (requested.unique asked sent)
      exact .inr ⟨refusal, rfl⟩
  have stored : d.stored? = some rate := (Deed.effect ended).1.stored_of_ok ok setup
  refine ⟨?_, d, earlier, deeds, stored⟩
  have latest := (reachable.history idle).rate
  rw [latest, deeds, List.findSome?_cons, stored]
  rfl

/-- The rate is that of the Setup request granted last, in the order in which the authorizations
have been handled, and nothing but its handling stores it, announces it or answers it well. The
one other rate that the object is told is the stored one, when it is created. A request is granted
if the authorizer lets its caller pass: it speaks of each caller once at the most, what it says is
kept until the authorization ends, and what is done for the caller goes by that. -/
theorem rate_is_latest_granted (reachable : Reachable config supported stage a) :
    (∀ deeds i, a.Moment deeds i →
      i.status.rate = (deeds.findSome? Deed.stored?).getD config.initialRate) ∧
    (∀ d ∈ a.deeds, ∀ rate, d.stored? = some rate →
      ∃ caller who, d.purpose = .answer caller ∧ ⟨caller, .setup rate who⟩ ∈ a.sent) ∧
    a.rates <:+ a.deeds.filterMap Deed.announced? ∧
    (a.service.work = none → a.rates = a.deeds.filterMap Deed.announced?) ∧
    a.deeds.countP Deed.creates ≤ 1 ∧
    (∀ later d earlier, a.deeds = later ++ d :: earlier →
      d.announced? =
        if d.creates then some ((earlier.findSome? Deed.stored?).getD config.initialRate)
        else d.stored?) ∧
    (∀ m, a.Allows m → ∀ reply ∈ (a.after m).service.replies, reply ∉ a.service.replies →
      reply.answer = .ok () → ∀ rate who, ⟨reply.caller, .setup rate who⟩ ∈ (a.after m).sent →
      (a.after m).service.interface.status.rate = rate ∧
        ∃ d earlier, (a.after m).deeds = d :: earlier ∧ d.stored? = some rate) ∧
    Nonempty (Past config supported stage a) ∧
    ∀ past : Past config supported stage a,
      (past.decisions.map Decision.caller).Nodup ∧
      (past.decisions.map Decision.outcome).Perm
        (a.service.checks.filterMap Check.outcome? ++ a.deeds.filterMap Deed.outcome?) ∧
      (∀ d ∈ a.deeds, ∀ caller rate who, d.purpose = .answer caller →
        ⟨caller, .setup rate who⟩ ∈ a.sent →
        ∃ refusal, ⟨caller, who, refusal⟩ ∈ past.decisions ∧
          (d.operation = .conclude rate refusal ∨
            d.operation = .serve (.setup rate who) ∧ verdict? d.turns = some refusal)) ∧
      ∀ d, (d ∈ a.deeds ∨ ∃ deeds i, a.Moment deeds i ∧ d ∈ deeds) → ∀ rate,
        (d.stored? = some rate ↔
          d.found.reporting.attached = true ∧
            ∃ caller who, d.purpose = .answer caller ∧ ⟨caller, .setup rate who⟩ ∈ a.sent ∧
              ⟨caller, who, none⟩ ∈ past.decisions) := by
  refine ⟨?_, ?_, rates_suffix reachable, rates_of_idle reachable, creations_le_one reachable,
    ?_, ?_, reachable.nonempty_past, fun past => ⟨?_, past.decided.outcomes, ?_, ?_⟩⟩
  · intro deeds i moment
    exact (reachable.history_of_moment moment).rate
  · intro d mem rate stored
    exact setup_of_granted reachable mem (Interface.granted?_of_stored stored)
  · intro later d earlier deeds
    obtain ⟨history, -⟩ := reachable.found deeds
    split
    next creates => rw [Deed.announced?_of_creates creates, history.rate]
    next other => exact Deed.announced?_of_not_creates (by simpa using other)
  · intro m allowed reply mem new ok rate who sent
    have moved := reachable.run (Run.refl.step allowed)
    rcases answered_of_after reachable.tracks allowed mem with old | gone | answered
    · exact absurd old new
    · rw [gone] at ok
      cases ok
    · exact stored_of_answered moved answered ok sent
  · exact (List.nodup_append.1 past.decided.once).1
  · intro d mem caller rate who purpose sent
    exact past.decided.decision_of_deed reachable.requested mem purpose sent
  · intro d begun rate
    exact past.stored?_eq_some_iff begun

/-- Of three requests whose authorizations overlap, one is refused and leaves the rate alone. Of the
other two, the one that is granted later has it. -/
theorem rate_of_overlapping_setups :
    let guarded : Surroundings :=
      { obliging .registered {} with
        authorizer := fun _ who =>
          if who.name = ":1.1" then { delay := 20 }
          else if who.name = ":1.2" then { delay := 10 }
          else { delay := 5, refusal := some (.failed "denied") } }
    let a := (fresh {} true .serving guarded).afterAll
      [.send 0 .bringUp, .take .request, .send 1 (.setup 5 ⟨":1.1"⟩), .send 2 (.setup 7 ⟨":1.2"⟩),
        .send 3 (.setup 9 ⟨":1.3"⟩), .take .request, .take .request, .take .request,
        .take (.check 1), .take (.check 2), .take (.check 3), .pass 5, .take (.check 3), .pass 10,
        .take (.check 2), .pass 20]
    let b := a.after (.take (.check 1))
    a.service.interface.status.rate = 7 ∧ b.service.interface.status.rate = 5 ∧
      b.rates = [5, 7, 0] ∧ (∃ d ∈ b.deeds, d.purpose = .answer 3) ∧
      ∀ d ∈ b.deeds, d.stored? ≠ some 9 := by
  intro guarded a b
  let before : Past {} true .serving a :=
    (Past.start rfl guarded).afterAll _ (by decide +kernel)
  let past : Past {} true .serving b :=
    before.step (by decide +kernel : a.Allows (.take (.check 1)))
  have idle : a.service.work = none := Option.isNone_iff_eq_none.1 (by decide +kernel)
  have still : b.service.work = none := Option.isNone_iff_eq_none.1 (by decide +kernel)
  have first := rate_is_latest_granted before.reachable
  have second := rate_is_latest_granted past.reachable
  refine ⟨?_, ?_, ?_, by decide +kernel, ?_⟩
  · exact (first.1 _ _ (.idle idle)).trans (by decide +kernel)
  · exact (second.1 _ _ (.idle still)).trans (by decide +kernel)
  · exact (second.2.2.2.1 still).trans (by decide +kernel)
  · -- The one caller who has asked for nine is not let pass.
    intro d mem stored
    obtain ⟨-, -, -, exactly⟩ := second.2.2.2.2.2.2.2.2 past
    obtain ⟨-, caller, who, -, sent, passed⟩ := (exactly d (.inl mem) 9).1 stored
    have asked : b.sent = [⟨3, .setup 9 ⟨":1.3"⟩⟩, ⟨2, .setup 7 ⟨":1.2"⟩⟩,
        ⟨1, .setup 5 ⟨":1.1"⟩⟩, ⟨0, .bringUp⟩] := rfl
    have refused : ∀ said ∈ past.decisions, said.caller = 3 → said.refusal ≠ none := by
      decide +kernel
    obtain ⟨three, -⟩ : caller = 3 ∧ who = ⟨":1.3"⟩ := by simpa [asked] using sent
    exact refused _ passed three rfl

end Account

end Modem.Session
