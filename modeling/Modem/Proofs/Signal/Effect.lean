import Modem.Proofs.Signal.Outcome

/-! # Effects of operations

Whatever is carried out on an interface leaves one of the results listed here and makes the calls
listed here. Both depend on the interface it finds and on what it is told on the way. -/

namespace Modem.Signal

open Exchange

/-! ## Outcomes -/

namespace Interface

/-- The interface once its object exists. -/
def opened (i : Interface) : Interface :=
  { i with
    lifecycle := if i.lifecycle = .uninitialized then .initialized else i.lifecycle
    reporting := { i.reporting with attached := true } }

/-- The interface after it has been cleared and its export has ended. -/
def exportedWith (i : Interface) (fault : Option Fault) : Interface × Answer :=
  let cleared := { i with reporting := i.reporting.cleared }
  match fault with
  | some fault => (cleared, .error fault)
  | none => ({ cleared with exported := true }, .ok ())

def broughtUp (i : Interface) (fault : Option Fault) : Interface × Answer :=
  if i.lifecycle = .shutDown then (i, .error noObject)
  else if !i.reporting.supported then (i.opened, .error notSupported)
  else if i.exported then (i.opened, .ok ())
  else i.opened.exportedWith fault

/-- Whether the interface can be enabled. -/
def canEnable (i : Interface) : Bool := i.reporting.supported && i.reporting.attached

def enabled (i : Interface) (modem : State) (now : Nat) : Interface × Answer :=
  if !i.reporting.supported then (i, .error notSupported)
  else if !i.reporting.attached then (i, .error noObject)
  else ({ i with reporting := i.reporting.scheduled modem now, lifecycle := .enabled }, .ok ())

def disabled (i : Interface) : Interface × Answer :=
  if i.lifecycle = .shutDown then (i, .ok ())
  else
    ({ i with
      reporting := i.reporting.tornDown
      lifecycle := if i.lifecycle = .enabled then .disabled else i.lifecycle }, .ok ())

def shut (i : Interface) : Interface × Answer :=
  if i.lifecycle = .shutDown then (i, .ok ())
  else (⟨.shutDown, { i.reporting.tornDown with attached := false }, false⟩, .ok ())

def setUp (i : Interface) (rate : UInt32) (modem : State) (now : Nat) : Interface × Answer :=
  if !i.reporting.attached then (i, .error noObject)
  else ({ i with reporting := { i.reporting with rate }.scheduled modem now }, .ok ())

end Interface

namespace Operation

/-- The rate of a Setup request to which its requester has a right. A request that is served whole
asks for the right itself. -/
def granted? (turns : List Turn) : Operation → Option UInt32
  | .serve (.setup rate _) => if verdict? turns = some none then some rate else none
  | .conclude rate none => some rate
  | _ => none

/-- What an operation takes to be said of its requester. -/
def decided? (turns : List Turn) : Operation → Option (Option Fault)
  | .serve (.setup _ _) => verdict? turns
  | .conclude _ refusal => some refusal
  | _ => none

theorem decided?_of_granted {operation : Operation} {turns : List Turn} {rate : UInt32}
    (granted : operation.granted? turns = some rate) :
    operation.decided? turns = some none := by
  cases operation with
  | serve request =>
    cases request with
    | setup asked who => exact (Option.ite_none_right_eq_some.1 granted).1
    | _ => cases granted
  | conclude asked refusal =>
    cases refusal with
    | none => rfl
    | some fault => cases granted
  | _ => cases granted

/-- The authorizer has answered, if the operation asks it itself. -/
def HasAsked (operation : Operation) (turns : List Turn) : Prop :=
  ∀ rate who, operation = .serve (.setup rate who) → ∃ refusal, verdict? turns = some refusal

theorem HasAsked.decided?_append {operation : Operation} {turns : List Turn}
    (asked : operation.HasAsked turns) (more : List Turn) :
    operation.decided? (turns ++ more) = operation.decided? turns := by
  cases operation with
  | serve request =>
    cases request with
    | setup rate who =>
      obtain ⟨refusal, told⟩ := asked rate who rfl
      exact (verdict?_append told more).trans told.symm
    | _ => rfl
  | _ => rfl

theorem HasAsked.granted?_append {operation : Operation} {turns : List Turn}
    (asked : operation.HasAsked turns) (more : List Turn) :
    operation.granted? (turns ++ more) = operation.granted? turns := by
  cases operation with
  | serve request =>
    cases request with
    | setup rate who =>
      have same : verdict? (turns ++ more) = verdict? turns := asked.decided?_append more
      simp only [granted?, same]
    | _ => rfl
  | conclude rate refusal => cases refusal <;> rfl
  | _ => rfl

theorem HasAsked.append {operation : Operation} {turns : List Turn}
    (asked : operation.HasAsked turns) (more : List Turn) :
    operation.HasAsked (turns ++ more) := by
  intro rate who operation
  obtain ⟨refusal, told⟩ := asked rate who operation
  exact ⟨refusal, verdict?_append told more⟩

end Operation

/-! ## Results -/

/-- What an operation leaves and answers when it ends after some turns. -/
inductive Effect (i : Interface) (turns : List Turn) : Operation → Interface × Answer → Prop
  | bringUp (fault : Option Fault) : Effect i turns (.serve .bringUp) (i.broughtUp fault)
  | enable (state : State) (now : Nat) (asked : i.canEnable = true → modem? turns = some state) :
      Effect i turns (.serve .enable) (i.enabled state now)
  | disable : Effect i turns (.serve .disable) i.disabled
  | shutDown : Effect i turns (.serve .shutDown) i.shut
  | refuse (rate : UInt32) (who : Requester) (fault : Fault)
      (told : verdict? turns = some (some fault)) :
      Effect i turns (.serve (.setup rate who)) (i, .error fault)
  | setup (rate : UInt32) (who : Requester) (state : State) (now : Nat)
      (told : verdict? turns = some none)
      (asked : i.reporting.attached = true → modem? turns = some state) :
      Effect i turns (.serve (.setup rate who)) (i.setUp rate state now)
  | status : Effect i turns (.serve .status) (i, .ok ())
  | reject (rate : UInt32) (fault : Fault) :
      Effect i turns (.conclude rate (some fault)) (i, .error fault)
  | grant (rate : UInt32) (state : State) (now : Nat)
      (asked : i.reporting.attached = true → modem? turns = some state) :
      Effect i turns (.conclude rate none) (i.setUp rate state now)
  | tick (now : Nat) : Effect i turns .tick (i.tick now, .ok ())
  | loaded (query : Query) (result : Except Fault Snapshot) :
      Effect i turns (.loaded query result)
        ({ i with reporting := i.reporting.received query result }, .ok ())

namespace Interface

/-! ## Calls -/

/-- The calls of a Setup request that is granted. -/
def setupCalls (i : Interface) (rate : UInt32) : List Call :=
  if i.reporting.attached then .setRate rate :: if rate = 0 then [.publish .empty] else [] else []

/-- The calls that an operation makes, in order. -/
def callsOf (i : Interface) (turns : List Turn) : Operation → List Call
  | .serve .bringUp =>
    if i.lifecycle = .shutDown then []
    else (if i.reporting.attached then [] else [.setRate i.reporting.rate]) ++
      if i.reporting.supported && !i.exported then [.publish .empty, .exportObject] else []
  | .serve .enable => if i.canEnable && i.reporting.rate = 0 then [.publish .empty] else []
  | .serve .disable => if i.lifecycle = .shutDown then [] else i.reporting.showing .empty
  | .serve .shutDown =>
    if i.lifecycle = .shutDown then []
    else i.reporting.showing .empty ++ if i.exported then [.unexportObject] else []
  | .loaded query result =>
    if query.generation = i.reporting.generation then
      i.reporting.showing (Reporting.snapshotOf result)
    else []
  | operation =>
    match operation.granted? turns with
    | some rate => i.setupCalls rate
    | none => []

theorem callsOf_congr {i : Interface} {first second : List Turn} {operation : Operation}
    (same : operation.granted? first = operation.granted? second) :
    i.callsOf first operation = i.callsOf second operation := by
  unfold callsOf
  split <;> simp only [same]

/-! ## Every end of an operation -/

theorem always_create (i : Interface) :
    i.create.Always fun turns j =>
      j = { i with reporting := { i.reporting with attached := true } } ∧
        calls turns = if i.reporting.attached then [] else [.setRate i.reporting.rate] := by
  unfold create
  by_cases attached : i.reporting.attached = true
  · rw [if_pos attached, if_pos attached]
    refine always_pure ⟨?_, rfl⟩
    rw [← attached]
  · rw [if_neg attached, if_neg attached]
    refine always_bind (always_note (always_done ?_))
    refine always_bind (always_attempt ?_ fun fault line => ?_)
    · exact always_pure ⟨rfl, by simp⟩
    · exact always_pure ⟨rfl, by simp⟩

theorem always_exportCleared (i : Interface) :
    i.exportCleared.Always fun turns result =>
      (∃ fault, result = i.exportedWith fault) ∧
        calls turns = i.reporting.showing .empty ++ [.exportObject] := by
  refine always_bind ((Reporting.always_clear _).mono fun turns r cleared => ?_)
  obtain ⟨rfl, shown⟩ := cleared
  refine always_bind (always_call fun fault => always_done ?_)
  cases fault with
  | some fault => exact always_pure ⟨⟨some fault, rfl⟩, by simp [shown]⟩
  | none => exact always_bind (always_log (always_pure ⟨⟨none, rfl⟩, by simp [shown]⟩))

theorem always_bringUp (i : Interface) :
    i.bringUp.Always fun turns result =>
      (∃ fault, result = i.broughtUp fault) ∧ calls turns = i.callsOf turns (.serve .bringUp) := by
  unfold bringUp broughtUp callsOf
  by_cases gone : i.lifecycle = .shutDown
  · simp only [gone, if_true]
    exact always_pure ⟨⟨none, rfl⟩, rfl⟩
  simp only [gone, if_false]
  refine always_bind ((always_create i).mono fun turns j created => ?_)
  obtain ⟨rfl, called⟩ := created
  dsimp only
  by_cases unsupported : (!i.reporting.supported) = true
  · simp only [if_pos unsupported]
    refine always_bind (always_log (always_pure ⟨⟨none, rfl⟩, ?_⟩))
    simp_all
  simp only [if_neg unsupported]
  by_cases exported : i.exported = true
  · simp only [if_pos exported]
    exact always_pure ⟨⟨none, rfl⟩, by simp [called, exported]⟩
  · simp only [if_neg exported]
    refine (always_exportCleared _).mono fun more result ends => ⟨ends.1, ?_⟩
    simp_all [Reporting.showing]

theorem always_enable (i : Interface) :
    i.enable.Always fun turns result =>
      (∃ state now, (i.canEnable = true → modem? turns = some state) ∧
        result = i.enabled state now) ∧ calls turns = i.callsOf turns (.serve .enable) := by
  unfold enable enabled callsOf canEnable
  by_cases supported : i.reporting.supported = true
  · simp only [supported, Bool.not_true, Bool.false_eq_true, if_false]
    by_cases attached : i.reporting.attached = true
    · simp only [attached, Bool.not_true, Bool.false_eq_true, if_false]
      refine always_bind (always_modem fun state => always_done ?_)
      refine always_bind ((Reporting.always_schedule _ state).mono fun turns r ends => ?_)
      obtain ⟨⟨now, rfl⟩, called⟩ := ends
      refine always_pure ⟨⟨state, now, fun _ => rfl, rfl⟩, ?_⟩
      by_cases off : i.reporting.rate = 0 <;> simp [called, off, Reporting.showing, attached]
    · simp only [attached, Bool.not_false, if_true]
      exact always_pure ⟨⟨default, 0, by simp, rfl⟩, by simp⟩
  · simp only [supported, Bool.not_false, if_true]
    exact always_pure ⟨⟨default, 0, by simp, rfl⟩, by simp⟩

theorem always_disable (i : Interface) :
    i.disable.Always fun turns result =>
      result = i.disabled ∧ calls turns = i.callsOf turns (.serve .disable) := by
  unfold disable disabled callsOf
  by_cases gone : i.lifecycle = .shutDown
  · simp only [gone, if_true]
    exact always_pure ⟨rfl, rfl⟩
  simp only [gone, if_false]
  refine always_bind ((Reporting.always_disable _).mono fun turns r ends => ?_)
  exact always_pure ⟨by rw [ends.1], by simp [ends.2]⟩

theorem always_shutDown (i : Interface) :
    i.shutDown.Always fun turns result =>
      result = i.shut ∧ calls turns = i.callsOf turns (.serve .shutDown) := by
  unfold shutDown shut callsOf
  by_cases gone : i.lifecycle = .shutDown
  · simp only [gone, if_true]
    exact always_pure ⟨rfl, rfl⟩
  simp only [gone, if_false]
  refine always_bind ((Reporting.always_disable _).mono fun turns r ends => ?_)
  obtain ⟨rfl, called⟩ := ends
  by_cases exported : i.exported = true
  · simp only [exported, if_true]
    refine always_bind (always_attempt ?_ fun fault line => ?_)
    · exact always_bind (always_log (always_pure ⟨rfl, by simp [called]⟩))
    · exact always_bind (always_log (always_pure ⟨rfl, by simp [called]⟩))
  · simp only [exported, Bool.false_eq_true, if_false]
    exact always_bind (always_log (always_pure ⟨rfl, by simp [called]⟩))

theorem always_setup (i : Interface) (rate : UInt32) :
    (i.setup rate).Always fun turns result =>
      (∃ state now, (i.reporting.attached = true → modem? turns = some state) ∧
        result = i.setUp rate state now) ∧ calls turns = i.setupCalls rate := by
  unfold setup setUp setupCalls
  by_cases attached : i.reporting.attached = true
  · have present : ¬(!i.reporting.attached) = true := by simp [attached]
    simp only [if_neg present, if_pos attached]
    refine always_bind (always_modem fun state => always_done ?_)
    refine always_bind (always_log ?_)
    refine always_bind ((Reporting.always_setRate _ rate state).mono fun turns r ends => ?_)
    obtain ⟨⟨now, rfl⟩, called⟩ := ends
    refine always_pure ⟨⟨state, now, fun _ => rfl, rfl⟩, ?_⟩
    by_cases off : rate = 0 <;> simp [called, off, Reporting.showing, attached]
  · simp only [attached, Bool.not_false, if_true]
    exact always_pure ⟨⟨default, 0, by simp, rfl⟩, by simp⟩

/-- Every end of an operation is one of its results, and its calls are those listed for it. -/
theorem always_carryOut (i : Interface) (operation : Operation) :
    (i.carryOut operation).Always fun turns result =>
      Effect i turns operation result ∧ calls turns = i.callsOf turns operation := by
  cases operation with
  | serve request =>
    cases request with
    | bringUp =>
      refine (always_bringUp i).mono fun turns result ends => ⟨?_, ends.2⟩
      obtain ⟨⟨fault, rfl⟩, -⟩ := ends
      exact .bringUp fault
    | enable =>
      refine (always_enable i).mono fun turns result ends => ⟨?_, ends.2⟩
      obtain ⟨⟨state, now, asked, rfl⟩, -⟩ := ends
      exact .enable state now asked
    | disable =>
      refine (always_disable i).mono fun turns result ends => ⟨?_, ends.2⟩
      rw [ends.1]
      exact .disable
    | shutDown =>
      refine (always_shutDown i).mono fun turns result ends => ⟨?_, ends.2⟩
      rw [ends.1]
      exact .shutDown
    | setup rate who =>
      refine always_authorize fun refusal => ?_
      cases refusal with
      | some fault => exact always_pure ⟨.refuse rate who fault rfl, rfl⟩
      | none =>
        refine (always_setup i rate).mono fun turns result ends => ⟨?_, ?_⟩
        · obtain ⟨⟨state, now, asked, rfl⟩, -⟩ := ends
          exact .setup rate who state now rfl asked
        · simpa [callsOf, Operation.granted?] using ends.2
    | status => exact always_pure ⟨.status, rfl⟩
  | conclude rate refusal =>
    cases refusal with
    | some fault => exact always_bind (always_log (always_pure ⟨.reject rate fault, rfl⟩))
    | none =>
      refine (always_setup i rate).mono fun turns result ends => ⟨?_, ends.2⟩
      obtain ⟨⟨state, now, asked, rfl⟩, -⟩ := ends
      exact .grant rate state now asked
  | tick => exact always_bind (always_clock fun now => always_done (always_pure ⟨.tick now, rfl⟩))
  | loaded query result =>
    refine always_bind ((Reporting.always_loaded _ query result).mono fun turns r ends => ?_)
    obtain ⟨rfl, called⟩ := ends
    exact always_pure ⟨.loaded query result, by simpa [callsOf] using called⟩

end Interface

end Modem.Signal
