import Modem.Signal.Interface

/-! # Operations side by side

Two exchanges go side by side if they say the same to everybody but the log, as long as everybody
answers both alike. What the calls on the object fail with does not count, except for the export. An
operation goes side by side with itself, also on an interface that shows something else and waits
for the answers to other queries. -/

namespace Modem.Signal

/-! ## Exchanges -/

namespace Exchange

variable {α β γ δ : Type}

/-- The exchanges say the same to everybody but the log, and their results are related. -/
inductive Beside (related : α → β → Prop) : Exchange α → Exchange β → Prop
  | done {a : α} {b : β} (results : related a b) : Beside related (.done a) (.done b)
  | left {x : Exchange α} {y : Exchange β} (line : Line) (tail : Beside related x y) :
      Beside related (.note (.line line) x) y
  | right {x : Exchange α} {y : Exchange β} (line : Line) (tail : Beside related x y) :
      Beside related x (.note (.line line) y)
  | created {x : Exchange α} {y : Exchange β} (tail : Beside related x y) :
      Beside related (.note .created x) (.note .created y)
  | call (c : Call) {rest : Option Fault → Exchange α} {more : Option Fault → Exchange β}
      (tails : ∀ f g, (c = .exportObject → g = f) → Beside related (rest f) (more g)) :
      Beside related (.call c rest) (.call c more)
  | authorize (who : Requester) {rest : Option Fault → Exchange α}
      {more : Option Fault → Exchange β} (tails : ∀ f, Beside related (rest f) (more f)) :
      Beside related (.authorize who rest) (.authorize who more)
  | modem {rest : State → Exchange α} {more : State → Exchange β}
      (tails : ∀ state, Beside related (rest state) (more state)) :
      Beside related (.modem rest) (.modem more)
  | clock {rest : Nat → Exchange α} {more : Nat → Exchange β}
      (tails : ∀ now, Beside related (rest now) (more now)) :
      Beside related (.clock rest) (.clock more)

theorem Beside.symm {related : α → β → Prop} {x : Exchange α} {y : Exchange β}
    (beside : Beside related x y) : Beside (fun b a => related a b) y x := by
  induction beside with
  | done results => exact .done results
  | left line tail ih => exact .right line ih
  | right line tail ih => exact .left line ih
  | created tail ih => exact .created ih
  | call c tails ih => exact .call c fun f g same => ih g f fun exported => (same exported).symm
  | authorize who tails ih => exact .authorize who ih
  | modem tails ih => exact .modem ih
  | clock tails ih => exact .clock ih

theorem Beside.mono {related more : α → β → Prop} {x : Exchange α} {y : Exchange β}
    (beside : Beside related x y) (implies : ∀ a b, related a b → more a b) : Beside more x y := by
  induction beside with
  | done results => exact .done (implies _ _ results)
  | left line tail ih => exact .left line ih
  | right line tail ih => exact .right line ih
  | created tail ih => exact .created ih
  | call c tails ih => exact .call c ih
  | authorize who tails ih => exact .authorize who ih
  | modem tails ih => exact .modem ih
  | clock tails ih => exact .clock ih

theorem beside_bind {related : α → β → Prop} {more : γ → δ → Prop} {x : Exchange α}
    {y : Exchange β} {f : α → Exchange γ} {g : β → Exchange δ} (front : Beside related x y)
    (back : ∀ a b, related a b → Beside more (f a) (g b)) : Beside more (x >>= f) (y >>= g) := by
  change Beside more (x.bind f) (y.bind g)
  induction front with
  | done results => exact back _ _ results
  | left line tail ih => exact .left line ih
  | right line tail ih => exact .right line ih
  | created tail ih => exact .created ih
  | call c tails ih => exact .call c fun f g same => ih f g same
  | authorize who tails ih => exact .authorize who ih
  | modem tails ih => exact .modem ih
  | clock tails ih => exact .clock ih

theorem beside_pure {related : α → β → Prop} {a : α} {b : β} (results : related a b) :
    Beside related (pure a) (pure b) :=
  .done results

theorem beside_log (severity : Severity) (text : String) :
    Beside (fun _ _ => True) (log severity text) (log severity text) :=
  .left _ (.right _ (.done trivial))

theorem beside_debug (text : String) : Beside (fun _ _ => True) (debug text) (debug text) :=
  beside_log .debug text

/-- What follows on a line in the log. -/
theorem beside_after_debug {related : α → β → Prop} {x : Exchange α} {y : Exchange β}
    (text : String) (tail : Beside related x y) :
    Beside related (debug text >>= fun _ => x) (debug text >>= fun _ => y) :=
  beside_bind (beside_debug text) fun _ _ _ => tail

theorem beside_attempt (c : Call) (complaint : String) :
    Beside (fun _ _ => True) (attempt c complaint) (attempt c complaint) := by
  refine .call c fun f g _ => ?_
  cases f with
  | none =>
    cases g with
    | none => exact .done trivial
    | some fault => exact .right _ (.done trivial)
  | some fault =>
    cases g with
    | none => exact .left _ (.done trivial)
    | some other => exact .left _ (.right _ (.done trivial))

theorem beside_modemState : Beside (fun a b => b = a) modemState modemState :=
  .modem fun _ => .done rfl

theorem beside_now : Beside (fun a b => b = a) now now := .clock fun _ => .done rfl

end Exchange

open Exchange

/-! ## Reporting -/

namespace Reporting

/-- Reporting is the same, but if the two are apart, something else can be shown and other queries
can be under way. -/
inductive Kin (apart : Prop) (r : Reporting) : Reporting → Prop
  | mk (shown : Snapshot) (inFlight : List Query) (seen : apart ∨ shown = r.shown)
      (asked : apart ∨ inFlight = r.inFlight) : Kin apart r { r with shown, inFlight }

variable {apart : Prop} {r s : Reporting}

theorem Kin.refl (apart : Prop) (r : Reporting) : Kin apart r r :=
  .mk r.shown r.inFlight (.inr rfl) (.inr rfl)

theorem Kin.symm (kin : Kin apart r s) : Kin apart s r := by
  obtain ⟨shown, inFlight, seen, asked⟩ := kin
  exact .mk (r := { r with shown, inFlight }) r.shown r.inFlight (seen.imp_right Eq.symm)
    (asked.imp_right Eq.symm)

theorem Kin.trans {q : Reporting} (first : Kin apart r s) (second : Kin apart s q) :
    Kin apart r q := by
  obtain ⟨shown, inFlight, seen, asked⟩ := first
  obtain ⟨more, others, seenToo, askedToo⟩ := second
  refine .mk more others ?_ ?_
  · rcases seen with apart | rfl
    · exact .inl apart
    · exact seenToo
  · rcases asked with apart | rfl
    · exact .inl apart
    · exact askedToo

theorem Kin.eq_of_not (kin : Kin apart r s) (together : ¬apart) : s = r := by
  obtain ⟨shown, inFlight, seen, asked⟩ := kin
  obtain rfl := seen.resolve_left together
  obtain rfl := asked.resolve_left together
  rfl

theorem beside_publishShown (attached : s.attached = r.attached) (shown : s.shown = r.shown)
    (complaint : String) :
    Beside (fun _ _ => True) (r.publishShown complaint) (s.publishShown complaint) := by
  unfold publishShown
  rw [attached, shown]
  split
  · exact beside_attempt _ complaint
  · exact beside_pure trivial

theorem beside_clear (kin : Kin apart r s) : Beside (Kin apart) r.clear s.clear := by
  obtain ⟨shown, inFlight, seen, asked⟩ := kin
  unfold clear
  refine beside_bind (beside_publishShown ?_ ?_ _) fun _ _ _ => beside_pure ?_
  · rfl
  · rfl
  · exact .mk _ _ (.inr rfl) asked

theorem beside_teardown (kin : Kin apart r s) : Beside (Kin apart) r.teardown s.teardown := by
  obtain ⟨shown, inFlight, seen, asked⟩ := kin
  exact beside_clear (.mk shown inFlight seen asked)

theorem beside_disable (kin : Kin apart r s) : Beside (Kin apart) r.disable s.disable :=
  beside_after_debug _ (beside_teardown kin)

theorem Kin.launch (kin : Kin apart r s) : Kin apart r.launch s.launch := by
  obtain ⟨shown, inFlight, seen, asked⟩ := kin
  unfold Reporting.launch
  dsimp only
  split
  · exact .mk shown _ seen (asked.imp_right (congrArg (· ++ _)))
  · exact .mk shown inFlight seen asked

theorem Kin.tick (kin : Kin apart r s) (now : Nat) : Kin apart (r.tick now) (s.tick now) := by
  obtain ⟨shown, inFlight, seen, asked⟩ := kin
  unfold Reporting.tick
  dsimp only
  split
  · exact .mk shown inFlight seen asked
  · exact Kin.launch (.mk shown inFlight seen asked)

theorem beside_startTimer (kin : Kin apart r s) :
    Beside (Kin apart) r.startTimer s.startTimer := by
  obtain ⟨shown, inFlight, seen, asked⟩ := kin
  refine beside_bind beside_now fun now _ same => ?_
  subst same
  exact beside_after_debug _ (beside_pure (Kin.launch (.mk shown inFlight seen asked)))

theorem beside_schedule (kin : Kin apart r s) (modem : State) :
    Beside (Kin apart) (r.schedule modem) (s.schedule modem) := by
  have torn := beside_teardown kin
  have started := beside_startTimer kin
  have left := kin
  obtain ⟨shown, inFlight, seen, asked⟩ := kin
  unfold schedule
  dsimp only
  split
  · split
    · exact beside_after_debug _ torn
    · exact torn
  · split
    · exact beside_after_debug _ (beside_pure left)
    · split
      · exact beside_after_debug _ (beside_pure left)
      · split
        · exact beside_pure left
        · exact started

theorem beside_setRate (kin : Kin apart r s) (rate : UInt32) (modem : State) :
    Beside (Kin apart) (r.setRate rate modem) (s.setRate rate modem) := by
  obtain ⟨shown, inFlight, seen, asked⟩ := kin
  have stored : Kin apart { r with rate } { r with rate, shown, inFlight } :=
    .mk shown inFlight seen asked
  unfold setRate
  dsimp only
  split
  · exact beside_bind (beside_attempt _ _) fun _ _ _ => beside_schedule stored modem
  · exact beside_schedule stored modem

/-- An answer goes side by side with itself only where the same is shown. -/
theorem beside_loaded (kin : Kin apart r s) (together : ¬apart) (query : Query)
    (result : Except Fault Snapshot) :
    Beside (Kin apart) (r.loaded query result) (s.loaded query result) := by
  obtain rfl := kin.eq_of_not together
  unfold loaded
  dsimp only
  split
  · exact beside_after_debug _ (beside_pure (.refl _ _))
  · split
    · split
      · exact beside_bind (beside_publishShown rfl rfl _) fun _ _ _ => beside_pure (.refl _ _)
      · exact beside_bind (beside_log _ _) fun _ _ _ => beside_pure (.refl _ _)
    · exact beside_bind (beside_log _ _) fun _ _ _ => beside_clear (.refl _ _)

end Reporting

/-! ## Operations -/

namespace Interface

/-- The interfaces are the same, but for what their reporting shows and waits for. -/
inductive Kin (apart : Prop) (i : Interface) : Interface → Prop
  | mk (reporting : Reporting) (kin : i.reporting.Kin apart reporting) :
      Kin apart i { i with reporting }

/-- What is left is the same to that extent, and what is answered. -/
structure KinResults (apart : Prop) (p q : Interface × Answer) : Prop where
  interface : p.1.Kin apart q.1
  answer : q.2 = p.2

variable {apart : Prop} {i j : Interface}

theorem Kin.refl (apart : Prop) (i : Interface) : Kin apart i i :=
  .mk i.reporting (.refl apart i.reporting)

theorem Kin.symm (kin : Kin apart i j) : Kin apart j i := by
  obtain ⟨reporting, kin⟩ := kin
  exact .mk (i := { i with reporting }) i.reporting kin.symm

theorem Kin.trans {k : Interface} (first : Kin apart i j) (second : Kin apart j k) :
    Kin apart i k := by
  obtain ⟨reporting, kin⟩ := first
  obtain ⟨more, kinToo⟩ := second
  exact .mk more (kin.trans kinToo)

theorem Kin.eq_of_not (kin : Kin apart i j) (together : ¬apart) : j = i := by
  obtain ⟨reporting, kin⟩ := kin
  rw [kin.eq_of_not together]

theorem Kin.status (kin : Kin apart i j) :
    j.status = { i.status with shown := j.status.shown } := by
  obtain ⟨-, -, -⟩ := kin
  rfl

theorem KinResults.symm {p q : Interface × Answer}
    (results : KinResults apart p q) : KinResults apart q p :=
  ⟨results.interface.symm, results.answer.symm⟩

theorem beside_answer (kin : Kin apart i j) (answer : Answer) :
    Beside (KinResults apart) (pure (i, answer)) (pure (j, answer)) :=
  beside_pure ⟨kin, rfl⟩

theorem beside_create (kin : Kin apart i j) : Beside (Kin apart) i.create j.create := by
  have left := kin
  obtain ⟨-, shown, inFlight, seen, asked⟩ := kin
  unfold create
  dsimp only
  split
  · exact beside_pure left
  · have object : Beside (fun _ _ => True) (Exchange.note .created (pure ()))
        (Exchange.note .created (pure ())) := .created (.done trivial)
    refine beside_bind object fun _ _ _ => ?_
    refine beside_bind (beside_attempt _ _) fun _ _ _ => beside_pure ?_
    exact .mk _ (.mk shown inFlight seen asked)

theorem beside_exportCleared (kin : Kin apart i j) :
    Beside (KinResults apart) i.exportCleared j.exportCleared := by
  obtain ⟨reporting, kin⟩ := kin
  refine beside_bind (Reporting.beside_clear kin) fun r s cleared => ?_
  refine .call .exportObject fun f g same => ?_
  obtain rfl := same rfl
  cases g with
  | some fault => exact beside_answer (.mk s cleared) _
  | none => exact beside_after_debug _ (beside_answer (.mk s cleared) _)

theorem beside_bringUp (kin : Kin apart i j) :
    Beside (KinResults apart) i.bringUp j.bringUp := by
  have made := beside_create kin
  have left := kin
  obtain ⟨-, shown, inFlight, seen, asked⟩ := kin
  unfold bringUp
  dsimp only
  split
  · exact beside_answer left _
  · refine beside_bind made fun k l up => ?_
    obtain ⟨-, shown, inFlight, seen, asked⟩ := up
    have risen (lifecycle : Lifecycle) : Kin apart { k with lifecycle }
        { k with lifecycle, reporting := { k.reporting with shown, inFlight } } :=
      .mk _ (.mk shown inFlight seen asked)
    dsimp only
    split
    · exact beside_after_debug _ (beside_answer (risen _) _)
    · split
      · exact beside_answer (risen _) _
      · exact beside_exportCleared (risen _)

theorem beside_enable (kin : Kin apart i j) : Beside (KinResults apart) i.enable j.enable := by
  have left := kin
  obtain ⟨-, shown, inFlight, seen, asked⟩ := kin
  unfold enable
  dsimp only
  split
  · exact beside_answer left _
  · split
    · exact beside_answer left _
    · refine beside_bind beside_modemState fun state _ same => ?_
      subst same
      refine beside_bind (Reporting.beside_schedule (.mk shown inFlight seen asked) _)
        fun r s scheduled => ?_
      exact beside_answer (.mk s scheduled) _

theorem beside_disable (kin : Kin apart i j) : Beside (KinResults apart) i.disable j.disable := by
  have left := kin
  obtain ⟨reporting, kin⟩ := kin
  unfold disable
  dsimp only
  split
  · exact beside_answer left _
  · refine beside_bind (Reporting.beside_disable kin) fun r s disabled => ?_
    exact beside_answer (.mk s disabled) _

theorem beside_shutDown (kin : Kin apart i j) :
    Beside (KinResults apart) i.shutDown j.shutDown := by
  have left := kin
  obtain ⟨reporting, kin⟩ := kin
  unfold shutDown
  dsimp only
  split
  · exact beside_answer left _
  · refine beside_bind (Reporting.beside_disable kin) fun r s disabled => ?_
    obtain ⟨shown, inFlight, seen, asked⟩ := disabled
    have gone : Kin apart ⟨.shutDown, { r with attached := false }, false⟩
        ⟨.shutDown, { r with attached := false, shown, inFlight }, false⟩ :=
      .mk _ (.mk shown inFlight seen asked)
    split
    · refine beside_bind (beside_attempt _ _) fun _ _ _ => ?_
      exact beside_after_debug _ (beside_answer gone _)
    · exact beside_after_debug _ (beside_answer gone _)

theorem beside_setup (kin : Kin apart i j) (rate : UInt32) :
    Beside (KinResults apart) (i.setup rate) (j.setup rate) := by
  have left := kin
  obtain ⟨-, shown, inFlight, seen, asked⟩ := kin
  unfold setup
  dsimp only
  split
  · exact beside_answer left _
  · refine beside_bind beside_modemState fun state _ same => ?_
    subst same
    refine beside_after_debug _ ?_
    refine beside_bind (Reporting.beside_setRate (.mk shown inFlight seen asked) rate _)
      fun r s stored => ?_
    exact beside_answer (.mk s stored) _

theorem beside_serve (kin : Kin apart i j) (request : Request) :
    Beside (KinResults apart) (i.serve request) (j.serve request) := by
  cases request with
  | bringUp => exact beside_bringUp kin
  | enable => exact beside_enable kin
  | disable => exact beside_disable kin
  | shutDown => exact beside_shutDown kin
  | setup rate who =>
    refine .authorize who fun refusal => ?_
    cases refusal with
    | some fault => exact beside_answer kin _
    | none => exact beside_setup kin rate
  | status => exact beside_answer kin _

/-- Every operation goes side by side with itself, but the handling of an answer only where the same
is shown. -/
theorem beside_carryOut (kin : Kin apart i j) (operation : Operation)
    (together : ∀ query result, operation = .loaded query result → ¬apart) :
    Beside (KinResults apart) (i.carryOut operation) (j.carryOut operation) := by
  cases operation with
  | serve request => exact beside_serve kin request
  | conclude rate refusal =>
    cases refusal with
    | some fault => exact beside_after_debug _ (beside_answer kin _)
    | none => exact beside_setup kin rate
  | tick =>
    obtain ⟨reporting, kin⟩ := kin
    refine beside_bind beside_now fun now _ same => ?_
    subst same
    exact beside_answer (.mk _ (kin.tick _)) _
  | loaded query result =>
    obtain ⟨reporting, kin⟩ := kin
    refine beside_bind (Reporting.beside_loaded kin (together query result rfl) query result)
      fun r s loaded => ?_
    exact beside_answer (.mk s loaded) _

end Interface

/-! ## The handling of an answer -/

namespace Exchange

variable {α β : Type}

/-- Nothing is said but lines and values to publish, and the result has a property. -/
inductive Mild (property : α → Prop) : Exchange α → Prop
  | done {a : α} (holds : property a) : Mild property (.done a)
  | line (line : Line) {x : Exchange α} (tail : Mild property x) :
      Mild property (.note (.line line) x)
  | publish (values : Snapshot) {rest : Option Fault → Exchange α}
      (tails : ∀ fault, Mild property (rest fault)) : Mild property (.call (.publish values) rest)

theorem mild_bind {property : α → Prop} {more : β → Prop} {x : Exchange α} {f : α → Exchange β}
    (front : Mild property x) (back : ∀ a, property a → Mild more (f a)) :
    Mild more (x >>= f) := by
  change Mild more (x.bind f)
  induction front with
  | done holds => exact back _ holds
  | line line tail ih => exact .line line ih
  | publish values tails ih => exact .publish values ih

theorem mild_pure {property : α → Prop} {a : α} (holds : property a) :
    Mild property (pure a : Exchange α) :=
  .done holds

theorem mild_log (severity : Severity) (text : String) :
    Mild (fun _ => True) (log severity text) :=
  .line _ (.done trivial)

end Exchange

namespace Reporting

variable {r : Reporting}

theorem mild_publishShown (complaint : String) :
    Mild (fun _ => True) (r.publishShown complaint) := by
  unfold publishShown
  split
  · refine .publish r.shown fun fault => ?_
    cases fault with
    | none => exact .done trivial
    | some fault => exact mild_log _ _
  · exact mild_pure trivial

/-- Handling an answer changes nothing but what is shown and which queries are under way. -/
theorem mild_loaded (query : Query) (result : Except Fault Snapshot) :
    Mild (fun s => Kin True r s ∧ s.inFlight = r.inFlight.erase query)
      (r.loaded query result) := by
  have changed (shown : Snapshot) :
      Kin True r { r with shown, inFlight := r.inFlight.erase query } :=
    .mk shown _ (.inl trivial) (.inl trivial)
  unfold loaded
  dsimp only
  split
  · exact mild_bind (mild_log _ _) fun _ _ => mild_pure ⟨changed r.shown, rfl⟩
  · split
    · split
      · exact mild_bind (mild_publishShown _) fun _ _ => mild_pure ⟨changed _, rfl⟩
      · exact mild_bind (mild_log _ _) fun _ _ => mild_pure ⟨changed _, rfl⟩
    · refine mild_bind (mild_log _ _) fun _ _ => ?_
      exact mild_bind (mild_publishShown _) fun _ _ => mild_pure ⟨changed _, rfl⟩

end Reporting

theorem Interface.mild_loaded {i : Interface} (query : Query) (result : Except Fault Snapshot) :
    Mild (fun p : Interface × Answer => Interface.Kin True i p.1 ∧
      p.1.reporting.inFlight = i.reporting.inFlight.erase query) (i.loaded query result) := by
  refine mild_bind (Reporting.mild_loaded query result) fun r loaded => ?_
  exact mild_pure ⟨.mk r loaded.1, loaded.2⟩

end Modem.Signal
