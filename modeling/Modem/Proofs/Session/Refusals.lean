import Modem.Proofs.Session.Ready
import Modem.Proofs.Session.Requests

/-! # Refused requests

A Setup request whose authorization is refused can be deleted from a run, with its dispatch, its
authorization and the end of it. What is left is a run, and nobody else can tell the difference. -/

namespace Modem.Session

open Signal

/-! ## A request that is refused -/

/-- A Setup request of a caller, and how it is refused. -/
structure Petition where
  caller : Nat
  rate : UInt32
  who : Requester
  verdict : Verdict
  fault : Fault

namespace Petition

/-- What is written down when the request is taken from the queue. -/
def noticed (p : Petition) : List Event :=
  [.line ⟨.debug, "Setup request from " ++ p.who.name ++ ": rate " ++ toString p.rate.toNat⟩]

/-- What has been written down once the authorization has begun, the latest first. -/
def asked (p : Petition) : List Event :=
  (p.verdict.lines.map Event.line).reverse ++ .authorize p.who :: p.noticed

/-- What the end of the authorization leads to. -/
def rejection (p : Petition) : Job := ⟨.answer p.caller, .conclude p.rate (some p.fault)⟩

/-- What has been written down once the refusal has been handled. -/
def rejected (p : Petition) : List Event :=
  .line ⟨.debug, "Setup request rejected: " ++ p.fault.text⟩ :: p.asked

end Petition

/-! ## What is done for the petition -/

/-- The authorization of a petition writes down what it does. -/
theorem World.Apart.ask {p : Petition} {audible : Event → Bool} {w v : World}
    (apart : w.Apart audible p.noticed v)
    (given : (w.surroundings.authorizer w.authorizationsBegun p.who).Agrees audible p.verdict) :
    (w.beginAuthorization p.who).1.Apart audible p.asked v := by
  obtain ⟨n, said, rest⟩ := apart
  have begun : World.Apart audible p.noticed
      { w with authorizationsBegun := w.authorizationsBegun + 1 }
      { w with authorizationsBegun := n, journal := _ } := .mk n said rest
  have asked := (begun.recordOwn (.authorize p.who)).recordLinesOwn
    (w.surroundings.authorizer w.authorizationsBegun p.who).lines
  refine asked.congr ?_
  rw [Petition.asked, List.filter_append, List.filter_append, List.filter_reverse,
    List.filter_reverse, given.lines]

namespace Service

variable {p : Petition} {audible : Event → Bool} {trace : List Event} {s t : Service}

theorem carryOut_rejection (s : Service) (p : Petition) :
    s.carryOut p.rejection =
      { s with
        world := s.world.record (.line ⟨.debug, "Setup request rejected: " ++ p.fault.text⟩)
        replies := ⟨p.caller, s.now, .error p.fault⟩ :: s.replies } := rfl

theorem share_send (s : Service) (caller : Nat) (request : Request) :
    (s.send caller request).share caller =
      if s.stage = .stopped then
        { s.share caller with replies := ⟨caller, s.now, .error gone⟩ :: (s.share caller).replies }
      else { s.share caller with queue := (s.share caller).queue ++ [⟨caller, request⟩] } := by
  unfold Service.send
  split
  next stopped => simp [share, reply, stopped]
  next running =>
    have running : s.stage ≠ .stopped := running
    simp [share, running]

theorem Apart.sendOwn {caller : Nat} (apart : Apart audible caller trace s t)
    (request : Request) : Apart audible caller trace (s.send caller request) t := by
  obtain ⟨worlds⟩ := apart
  unfold Service.send
  split
  · exact apart_of_eq worlds (by simp [without, reply])
  · exact apart_of_eq worlds (by simp [without])

/-- The petition is set aside. -/
theorem Apart.aside (apart : Apart audible p.caller [] s t) {rest : List Queued}
    (queue : s.queue = ⟨p.caller, .setup p.rate p.who⟩ :: rest) (serving : s.stage = .serving) :
    ∃ u, s.prepare .request = (u, none) ∧ Apart audible p.caller p.noticed u t ∧
      u.share p.caller =
        ⟨rest.filter fun q => q.caller = p.caller,
          (s.share p.caller).checks ++ [⟨p.caller, p.rate, p.who, none⟩],
          (s.share p.caller).replies⟩ := by
  have prepared := prepare_request queue
  rw [dispatch_setup (s := { s with queue := rest }) serving] at prepared
  obtain ⟨worlds⟩ := apart
  refine ⟨_, prepared, apart_of_eq (worlds.recordOwn (.line ⟨.debug,
    "Setup request from " ++ p.who.name ++ ": rate " ++ toString p.rate.toNat⟩)) ?_, ?_⟩
  · simp [without, queue]
  · simp [share]

theorem find?_of_share {caller : Nat} {c : Check} (mine : (s.share caller).checks = [c]) :
    s.checks.find? (fun c => c.caller = caller) = some c := by
  rw [← List.head?_filter]
  exact congrArg List.head? mine

theorem find?_of_share_nil {caller : Nat} (nothing : (s.share caller).checks = []) :
    s.checks.find? (fun c => c.caller = caller) = none := by
  rw [← List.head?_filter]
  exact congrArg List.head? nothing

/-- The petition is no longer set aside. -/
theorem Apart.concludeOwn (apart : Apart audible p.caller trace s t) {c : Check}
    (asking : c.caller = p.caller) :
    Apart audible p.caller trace
        { s with checks := s.checks.filter fun d => d.caller ≠ c.caller } t ∧
      { s with checks := s.checks.filter fun d => d.caller ≠ c.caller }.share p.caller =
        { s.share p.caller with checks := [] } := by
  obtain ⟨worlds⟩ := apart
  constructor
  · exact apart_of_eq worlds (by simp [without, asking])
  · simp [share, asking, List.filter_filter]

/-- The authorization of the petition begins, and ends at once or later. -/
theorem Apart.askOwn (apart : Apart audible p.caller p.noticed s t)
    (given : (s.world.surroundings.authorizer s.world.authorizationsBegun p.who).Agrees audible
      p.verdict)
    (refused : p.verdict.refusal = some p.fault)
    (share : s.share p.caller = ⟨[], [⟨p.caller, p.rate, p.who, none⟩], []⟩) :
    (∃ u, s.beginCheck ⟨p.caller, p.rate, p.who, none⟩ = (u, some p.rejection) ∧
      Apart audible p.caller p.asked u t ∧ u.share p.caller = ⟨[], [], []⟩) ∨
    ∃ u, s.beginCheck ⟨p.caller, p.rate, p.who, none⟩ = (u, none) ∧
      Apart audible p.caller p.asked u t ∧
      u.share p.caller =
        ⟨[], [⟨p.caller, p.rate, p.who, some ⟨s.now + p.verdict.delay, some p.fault⟩⟩], []⟩ := by
  obtain @⟨world, worlds⟩ := apart
  have moved := worlds.ask given
  have now : (s.world.beginAuthorization p.who).1.now = s.now := moved.now.symm.trans worlds.now
  have answer : (s.world.beginAuthorization p.who).2.Agrees audible p.verdict := given
  unfold Service.beginCheck
  rcases begun : s.world.beginAuthorization p.who with ⟨w, verdict⟩
  rw [begun] at moved now answer
  dsimp only at moved now answer ⊢
  rw [now, answer.delay, answer.refusal, refused]
  have mine : (s.checks.filter fun c => c.caller = p.caller) = [⟨p.caller, p.rate, p.who, none⟩] :=
    congrArg Share.checks share
  have here : Apart audible p.caller p.asked { s with world := w } (s.without p.caller world) :=
    apart_of_eq (s := { s with world := w }) moved rfl
  by_cases once : p.verdict.delay = 0
  · obtain ⟨concluded, left⟩ := here.concludeOwn (c := ⟨p.caller, p.rate, p.who, none⟩) rfl
    refine .inl ⟨_, if_pos once, concluded, ?_⟩
    rw [left]
    exact congrArg (fun mine : Share => { mine with checks := [] }) share
  · have begun := filter_map_begun s.checks (c := ⟨p.caller, p.rate, p.who, none⟩)
      ⟨p.caller, p.rate, p.who, some ⟨s.now + p.verdict.delay, some p.fault⟩⟩ rfl
    have others := begun fun asking => asking ≠ p.caller
    have own := begun fun asking => asking = p.caller
    refine .inr ⟨_, if_neg once, apart_of_eq moved ?_, ?_⟩
    · have untouched : ∀ d ∈ s.checks.filter fun d => d.caller ≠ p.caller, d.caller ≠ p.caller :=
        fun d mem => by simpa using (List.mem_filter.1 mem).2
      rw [map_begun_of_ne (c := ⟨p.caller, p.rate, p.who, none⟩) _ untouched] at others
      simp only [without, others]
    · rw [mine, List.map_singleton, if_pos rfl] at own
      simp only [Service.share, own]
      exact congrArg (fun mine : Share => Share.mk mine.queue [_] mine.replies) share

/-- The refusal of the petition is handled. -/
theorem Apart.reject (apart : Apart audible p.caller p.asked s t) :
    Apart audible p.caller p.rejected (s.carryOut p.rejection) t ∧
      (s.carryOut p.rejection).share p.caller =
        { s.share p.caller with
          replies := ⟨p.caller, s.now, .error p.fault⟩ :: (s.share p.caller).replies } := by
  obtain ⟨worlds⟩ := apart
  rw [carryOut_rejection]
  constructor
  · exact apart_of_eq (worlds.recordOwn _) (by simp [without])
  · simp [share]

end Service

/-! ## Stages -/

theorem Service.direct_perform {s : Service} {purpose : Purpose}
    {x : Exchange (Interface × Answer)} (direct : (s.perform purpose x).stage = .direct) :
    s.stage = .direct := by
  unfold Service.perform at direct
  split at direct
  · cases purpose with
    | close => cases direct
    | _ => exact direct
  · exact direct

theorem Service.direct_take {s : Service} {occurrence : Service.Occurrence}
    (direct : (s.take occurrence).stage = .direct) : s.stage = .direct :=
  Service.take_kept (P := fun t => t.stage = .direct → s.stage = .direct)
    (s.stage_prepare occurrence).symm.trans id
    (fun _ _ _ kept later => kept (Service.direct_perform later)) direct

namespace Account

/-- How far a request has got, where it is then, and what has been written down for it. Whoever asks
a running service hears the fault of the refusal and nothing else. -/
inductive Stands (p : Petition) (a : Account) : List Event → Prop
  | unsent (new : p.caller ∉ a.sent.map Queued.caller)
      (share : a.service.share p.caller = ⟨[], [], []⟩) : Stands p a []
  /-- The service had stopped before. -/
  | turnedAway (time : Nat) (sent : p.caller ∈ a.sent.map Queued.caller)
      (share : a.service.share p.caller = ⟨[], [], [⟨p.caller, time, .error Service.gone⟩]⟩) :
      Stands p a []
  | queued (sent : p.caller ∈ a.sent.map Queued.caller)
      (share : a.service.share p.caller = ⟨[⟨p.caller, .setup p.rate p.who⟩], [], []⟩) :
      Stands p a []
  | aside (sent : p.caller ∈ a.sent.map Queued.caller)
      (share : a.service.share p.caller = ⟨[], [⟨p.caller, p.rate, p.who, none⟩], []⟩) :
      Stands p a p.noticed
  | asked (time : Nat) (sent : p.caller ∈ a.sent.map Queued.caller)
      (share : a.service.share p.caller =
        ⟨[], [⟨p.caller, p.rate, p.who, some ⟨time, some p.fault⟩⟩], []⟩) :
      Stands p a p.asked
  | refused (time : Nat) (sent : p.caller ∈ a.sent.map Queued.caller)
      (share : a.service.share p.caller = ⟨[], [], [⟨p.caller, time, .error p.fault⟩]⟩) :
      Stands p a p.rejected

theorem Stands.congr {p : Petition} {a b : Account} {events : List Event}
    (stands : a.Stands p events) (share : b.service.share p.caller = a.service.share p.caller)
    (sent : p.caller ∈ b.sent.map Queued.caller ↔ p.caller ∈ a.sent.map Queued.caller) :
    b.Stands p events := by
  cases stands with
  | unsent new here => exact .unsent (mt sent.1 new) (share.trans here)
  | turnedAway time old here => exact .turnedAway time (sent.2 old) (share.trans here)
  | queued old here => exact .queued (sent.2 old) (share.trans here)
  | aside old here => exact .aside (sent.2 old) (share.trans here)
  | asked time old here => exact .asked time (sent.2 old) (share.trans here)
  | refused time old here => exact .refused time (sent.2 old) (share.trans here)

/-- The second account is the first one without a petition, which has not been granted. -/
structure Shadows (audible : Event → Bool) (p : Petition) (verdict : Requester → Verdict)
    (trace : List Event) (a b : Account) : Prop where
  apart : a.service.Apart audible p.caller trace b.service
  stands : a.Stands p trace
  /-- The caller is told of the refusal when it is handled. -/
  handled : (∃ d ∈ a.deeds, d.purpose = .answer p.caller) →
    ∃ time, (a.service.share p.caller).replies = [⟨p.caller, time, .error p.fault⟩]
  leaves : a.service.Leaves p.caller
  served : a.service.stage ≠ .direct
  steady : a.service.world.surroundings.Steady audible verdict
  sent : b.sent = a.sent.filter fun q => q.caller ≠ p.caller

/-! ## Single moves -/

/-- Whether a move belongs to the request of a caller. -/
def concerns (a : Account) (caller : Nat) : Move → Bool
  | .send sender _ => sender = caller
  | .take occurrence => a.service.concerns caller occurrence
  | _ => false

section

variable {audible : Event → Bool} {p : Petition} {verdict : Requester → Verdict}
  {trace : List Event} {a b : Account} {m : Move}

/-- A deed for the caller is only begun or gone on with by a move that belongs to it. -/
theorem deed_of_other {occurrence : Service.Occurrence} {caller : Nat}
    (alike : ∀ job, (a.service.prepare occurrence).2 = some job → job.purpose ≠ .answer caller)
    (done : ∃ d ∈ (a.after (.take occurrence)).deeds, d.purpose = .answer caller) :
    ∃ d ∈ a.deeds, d.purpose = .answer caller := by
  obtain ⟨d, mem, told⟩ := done
  by_cases resume : occurrence = .resume
  · subst resume
    simp only [Account.after, deedsAfter] at mem
    split at mem
    next latest earlier deeds =>
      rw [deeds]
      rcases List.mem_cons.1 mem with rfl | old
      · exact ⟨latest, List.mem_cons_self, told⟩
      · exact ⟨d, List.mem_cons_of_mem _ old, told⟩
    · cases mem
  · rcases prepared : a.service.prepare occurrence with ⟨t, job⟩
    rw [after_take resume prepared] at mem
    rw [prepared] at alike
    cases job with
    | none => exact ⟨d, mem, told⟩
    | some job =>
      rcases List.mem_cons.1 mem with rfl | old
      · exact absurd told (alike job rfl)
      · exact ⟨d, old, told⟩

/-- What does not touch the work, the stage or the surroundings keeps what is said about them. -/
theorem Shadows.kept (shadows : Shadows audible p verdict trace a b) {u : Service}
    (work : u.work = a.service.work) (stage : u.stage = a.service.stage)
    (surroundings : u.world.surroundings = a.service.world.surroundings) :
    u.Leaves p.caller ∧ u.stage ≠ .direct ∧ u.world.surroundings.Steady audible verdict := by
  rw [Service.Leaves, work, stage, surroundings]
  exact ⟨shadows.leaves, shadows.served, shadows.steady⟩

theorem Shadows.kept_send (shadows : Shadows audible p verdict trace a b) (sender : Nat)
    (request : Request) :
    (a.service.send sender request).Leaves p.caller ∧
      (a.service.send sender request).stage ≠ .direct ∧
      (a.service.send sender request).world.surroundings.Steady audible verdict :=
  shadows.kept (a.service.work_send sender request) (a.service.stage_send sender request)
    (a.service.surroundings_send sender request)

theorem Shadows.kept_prepare (shadows : Shadows audible p verdict trace a b)
    {occurrence : Service.Occurrence} {u : Service} {job : Option Job}
    (prepared : a.service.prepare occurrence = (u, job)) :
    u.Leaves p.caller ∧ u.stage ≠ .direct ∧ u.world.surroundings.Steady audible verdict := by
  have work := a.service.work_prepare occurrence
  have stage := a.service.stage_prepare occurrence
  have surroundings := a.service.surroundings_prepare occurrence
  rw [prepared] at work stage surroundings
  exact shadows.kept work stage surroundings

/-- A move of somebody else is possible without the petition, and comes to the same. -/
theorem Shadows.other (shadows : Shadows audible p verdict trace a b) (allowed : a.Allows m)
    (other : a.concerns p.caller m = false)
    (answers : ∀ surroundings, m = .surround surroundings → surroundings.Steady audible verdict) :
    b.Allows m ∧ Shadows audible p verdict trace (a.after m) (b.after m) := by
  have kept := shadows.kept_send
  obtain ⟨apart, stands, handled, leaves, served, steady, sent⟩ := shadows
  cases m with
  | send sender request =>
    have different : sender ≠ p.caller := by simpa [concerns] using other
    obtain ⟨sends, share⟩ := apart.send different request
    obtain ⟨leaves, served, steady⟩ := kept sender request
    refine ⟨?_, sends, stands.congr share ?_, ?_, leaves, served, steady, ?_⟩
    · intro mem
      rw [sent] at mem
      obtain ⟨q, kept, same⟩ := List.mem_map.1 mem
      exact allowed (List.mem_map.2 ⟨q, (List.mem_filter.1 kept).1, same⟩)
    · simp [Account.after, Ne.symm different]
    · intro done
      obtain ⟨time, replies⟩ := handled done
      exact ⟨time, (congrArg Service.Share.replies share).trans replies⟩
    · simp [Account.after, sent, different]
  | surround surroundings =>
    exact ⟨trivial, apart.surround surroundings, stands.congr rfl .rfl, handled, leaves, served,
      answers surroundings rfl, sent⟩
  | pass time =>
    exact ⟨trivial, apart.moveTo time, stands.congr rfl .rfl, handled, leaves, served, steady, sent⟩
  | close =>
    exact ⟨trivial, apart.close, stands.congr rfl .rfl, handled, leaves, served, steady, sent⟩
  | leave leaver =>
    exact ⟨trivial, apart.leave leaver, stands.congr rfl .rfl, handled, leaves, served, steady,
      sent⟩
  | serve =>
    simp only [Account.after, apart.stage, if_neg served]
    exact ⟨trivial, apart.onStage _, stands.congr rfl .rfl, handled, leaves, served, steady, sent⟩
  | take occurrence =>
    have prepared := apart.prepare other steady
    obtain ⟨taken, share, leaves'⟩ := apart.take other leaves steady
    refine ⟨apart.ready other allowed, taken, stands.congr share .rfl, ?_, leaves', ?_, ?_, sent⟩
    · intro done
      obtain ⟨time, replies⟩ := handled (deed_of_other prepared.other done)
      exact ⟨time, (congrArg Service.Share.replies share).trans replies⟩
    · exact fun direct => served (Service.direct_take direct)
    · have same := a.service.surroundings_take occurrence
      rw [← same] at steady
      exact steady

/-- The petition has been moved on, and nobody has been told anything. -/
theorem Shadows.moved (shadows : Shadows audible p verdict trace a b)
    {occurrence : Service.Occurrence} {u : Service} {more : List Event}
    (fresh : occurrence ≠ .resume) (prepared : a.service.prepare occurrence = (u, none))
    (apart : u.Apart audible p.caller more b.service)
    (stands : Account.Stands p { a with service := u } more)
    (replies : (u.share p.caller).replies = (a.service.share p.caller).replies) :
    Shadows audible p verdict more (a.after (.take occurrence)) b := by
  obtain ⟨leaves, served, steady⟩ := shadows.kept_prepare prepared
  rw [after_take fresh prepared]
  refine ⟨apart, stands, ?_, leaves, served, steady, shadows.sent⟩
  intro done
  obtain ⟨time, told⟩ := shadows.handled done
  exact ⟨time, replies.trans told⟩

/-- The refusal has been handled. -/
theorem Shadows.answered (shadows : Shadows audible p verdict trace a b)
    {occurrence : Service.Occurrence} {u : Service} (fresh : occurrence ≠ .resume)
    (prepared : a.service.prepare occurrence = (u, some p.rejection))
    (apart : u.Apart audible p.caller p.asked b.service)
    (share : u.share p.caller = ⟨[], [], []⟩) (known : p.caller ∈ a.sent.map Queued.caller) :
    Shadows audible p verdict p.rejected (a.after (.take occurrence)) b := by
  obtain ⟨leaves, served, steady⟩ := shadows.kept_prepare prepared
  rw [after_take fresh prepared]
  obtain ⟨rejected, told⟩ := apart.reject
  rw [share] at told
  exact ⟨rejected, .refused u.now known told, fun _ => ⟨u.now, congrArg Service.Share.replies told⟩,
    leaves, served, steady, shadows.sent⟩

theorem Shadows.sendOwn (shadows : Shadows audible p verdict trace a b)
    (allowed : a.Allows (.send p.caller (.setup p.rate p.who))) :
    Shadows audible p verdict trace (a.after (.send p.caller (.setup p.rate p.who))) b := by
  obtain ⟨leaves, served, steady⟩ := shadows.kept_send p.caller (.setup p.rate p.who)
  obtain ⟨apart, stands, handled, -, -, -, sent⟩ := shadows
  have told := a.service.share_send p.caller (.setup p.rate p.who)
  have known : p.caller ∈
      (a.after (.send p.caller (.setup p.rate p.who))).sent.map Queued.caller := by
    simp [Account.after]
  cases stands with
  | unsent new share =>
    rw [share] at told
    refine ⟨apart.sendOwn _, ?_, ?_, leaves, served, steady, ?_⟩
    · by_cases stopped : a.service.stage = .stopped
      · rw [if_pos stopped] at told
        exact .turnedAway _ known told
      · rw [if_neg stopped] at told
        exact .queued known told
    · intro done
      obtain ⟨time, replies⟩ := handled done
      rw [share] at replies
      cases replies
    · simp [Account.after, sent]
  | turnedAway _ old | queued old | aside old | asked _ old | refused _ old =>
    exact absurd old allowed

theorem Shadows.requestOwn (shadows : Shadows audible p verdict trace a b)
    (allowed : a.Allows (.take .request)) (mine : a.service.concerns p.caller .request = true) :
    ∃ more, Shadows audible p verdict more (a.after (.take .request)) b := by
  have apart := shadows.apart
  have stands := shadows.stands
  have serving := Service.serving_of_request_mem_ready allowed shadows.served
  cases queue : a.service.queue with
  | nil => simp [Service.concerns, queue] at mine
  | cons q rest =>
    have asking : q.caller = p.caller := by simpa [Service.concerns, queue] using mine
    have waiting : (a.service.share p.caller).queue =
        q :: rest.filter fun q => q.caller = p.caller := by
      simp [Service.share, queue, asking]
    -- Only a request that is still queued can be the first of the queue.
    cases stands with
    | queued sent share =>
      rw [share] at waiting
      obtain ⟨rfl, nobody⟩ := List.cons.inj waiting
      obtain ⟨u, prepared, moved, left⟩ := apart.aside queue serving
      rw [share, ← nobody] at left
      refine ⟨p.noticed, shadows.moved (by simp) prepared moved (.aside sent left) ?_⟩
      rw [left, share]
    | unsent _ share | turnedAway _ _ share | aside _ share | asked _ _ share
    | refused _ _ share =>
      rw [share] at waiting
      cases waiting

theorem Shadows.checkOwn (shadows : Shadows audible p verdict trace a b)
    (given : verdict p.who = p.verdict) (refused : p.verdict.refusal = some p.fault) :
    ∃ more, Shadows audible p verdict more (a.after (.take (.check p.caller))) b := by
  have apart := shadows.apart
  have stands := shadows.stands
  have unmoved : (a.service.share p.caller).checks = [] →
      ∃ more, Shadows audible p verdict more (a.after (.take (.check p.caller))) b := by
    intro nothing
    have none := Service.find?_of_share_nil nothing
    exact ⟨trace, shadows.moved (by simp) (Service.prepare_check_of_none none) apart stands rfl⟩
  -- Without an authorization that is under way, the occurrence comes to nothing.
  cases stands with
  | unsent new share => exact unmoved (by rw [share])
  | turnedAway time sent share => exact unmoved (by rw [share])
  | queued sent share => exact unmoved (by rw [share])
  | refused time sent share => exact unmoved (by rw [share])
  | aside sent share =>
    have found := Service.find?_of_share (congrArg Service.Share.checks share)
    have prepared := Service.prepare_check found
    have answer := shadows.steady a.service.world.authorizationsBegun p.who
    rw [given] at answer
    rcases apart.askOwn answer refused share with ⟨u, begun, moved, left⟩ | ⟨u, begun, moved, left⟩
    · exact ⟨_, shadows.answered (by simp) (prepared.trans begun) moved left sent⟩
    · refine ⟨_, shadows.moved (by simp) (prepared.trans begun) moved (.asked _ sent left) ?_⟩
      rw [left, share]
  | asked time sent share =>
    have found := Service.find?_of_share (congrArg Service.Share.checks share)
    have prepared := Service.prepare_check found
    obtain ⟨concluded, left⟩ :=
      apart.concludeOwn (c := ⟨p.caller, p.rate, p.who, some ⟨time, some p.fault⟩⟩) rfl
    rw [share] at left
    exact ⟨_, shadows.answered (by simp) prepared concluded left sent⟩

/-- A move that belongs to the petition changes nothing without it. -/
theorem Shadows.petition (shadows : Shadows audible p verdict trace a b) (allowed : a.Allows m)
    (mine : a.concerns p.caller m = true)
    (asks : ∀ request, m = .send p.caller request → request = .setup p.rate p.who)
    (given : verdict p.who = p.verdict) (refused : p.verdict.refusal = some p.fault) :
    ∃ more, Shadows audible p verdict more (a.after m) b := by
  cases m with
  | send sender request =>
    have same : sender = p.caller := by simpa [concerns] using mine
    subst same
    obtain rfl := asks request rfl
    exact ⟨_, shadows.sendOwn allowed⟩
  | take occurrence =>
    cases occurrence with
    | request => exact shadows.requestOwn allowed mine
    | check asking =>
      have same : asking = p.caller := by simpa [concerns, Service.concerns] using mine
      subst same
      exact shadows.checkOwn given refused
    | _ => cases mine
  | _ => cases mine

end

end Account

end Modem.Session
