import Modem.Signal.Exchange

/-! # Turns of an exchange

An exchange is taken turn by turn. A turn is what the interface says together with the answer to
it, so the turns up to some point fix what is left of the exchange. A property of every way in
which an exchange can end is proved along its binds. -/

namespace Modem.Signal

/-- What is said, and the answer to it. -/
inductive Turn where
  | note (n : Note)
  | call (c : Call) (fault : Option Fault)
  | authorize (who : Requester) (refusal : Option Fault)
  | modem (state : State)
  | clock (now : Nat)
  deriving DecidableEq, Repr

namespace Turn

def call? : Turn → Option Call
  | call c _ => some c
  | _ => none

def refusal? : Turn → Option (Option Fault)
  | authorize _ refusal => some refusal
  | _ => none

def modem? : Turn → Option State
  | modem state => some state
  | _ => none

end Turn

/-- The calls among some turns, in order. -/
def calls (turns : List Turn) : List Call := turns.filterMap Turn.call?

/-- What the authorizer answers first. -/
def verdict? (turns : List Turn) : Option (Option Fault) := turns.findSome? Turn.refusal?

/-- The state in which the modem is found first. -/
def modem? (turns : List Turn) : Option State := turns.findSome? Turn.modem?

@[simp]
theorem verdict?_authorize (who : Requester) (refusal : Option Fault) (turns : List Turn) :
    verdict? (.authorize who refusal :: turns) = some refusal := rfl

/-- The first verdict stands. -/
theorem verdict?_append {turns : List Turn} {refusal : Option Fault}
    (told : verdict? turns = some refusal) (more : List Turn) :
    verdict? (turns ++ more) = some refusal := by
  rw [verdict?, List.findSome?_append, ← verdict?, told]
  rfl

@[simp]
theorem modem?_modem (state : State) (turns : List Turn) :
    modem? (.modem state :: turns) = some state := rfl

@[simp]
theorem calls_nil : calls [] = [] := rfl

@[simp]
theorem calls_append (first second : List Turn) :
    calls (first ++ second) = calls first ++ calls second :=
  List.filterMap_append

@[simp]
theorem calls_call (c : Call) (fault : Option Fault) (turns : List Turn) :
    calls (.call c fault :: turns) = c :: calls turns := rfl

@[simp]
theorem calls_note (n : Note) (turns : List Turn) : calls (.note n :: turns) = calls turns := rfl

@[simp]
theorem calls_authorize (who : Requester) (refusal : Option Fault) (turns : List Turn) :
    calls (.authorize who refusal :: turns) = calls turns := rfl

@[simp]
theorem calls_modem (state : State) (turns : List Turn) :
    calls (.modem state :: turns) = calls turns := rfl

@[simp]
theorem calls_clock (now : Nat) (turns : List Turn) :
    calls (.clock now :: turns) = calls turns := rfl

namespace Exchange

variable {α β : Type}

/-! ## What is left after some turns -/

/-- After the turns, the second exchange is what is left of the first. -/
inductive Leads : Exchange α → List Turn → Exchange α → Prop
  | refl (x : Exchange α) : Leads x [] x
  | note {n : Note} {rest left : Exchange α} {turns : List Turn}
      (tail : Leads rest turns left) : Leads (.note n rest) (.note n :: turns) left
  | call {c : Call} {rest : Option Fault → Exchange α} {left : Exchange α} {turns : List Turn}
      (fault : Option Fault) (tail : Leads (rest fault) turns left) :
      Leads (.call c rest) (.call c fault :: turns) left
  | authorize {who : Requester} {rest : Option Fault → Exchange α} {left : Exchange α}
      {turns : List Turn} (refusal : Option Fault) (tail : Leads (rest refusal) turns left) :
      Leads (.authorize who rest) (.authorize who refusal :: turns) left
  | modem {rest : State → Exchange α} {left : Exchange α} {turns : List Turn}
      (state : State) (tail : Leads (rest state) turns left) :
      Leads (.modem rest) (.modem state :: turns) left
  | clock {rest : Nat → Exchange α} {left : Exchange α} {turns : List Turn}
      (now : Nat) (tail : Leads (rest now) turns left) :
      Leads (.clock rest) (.clock now :: turns) left

theorem Leads.trans {x y z : Exchange α} {first second : List Turn}
    (front : Leads x first y) (back : Leads y second z) : Leads x (first ++ second) z := by
  induction front with
  | refl => exact back
  | note _ ih => exact .note (ih back)
  | call fault _ ih => exact .call fault (ih back)
  | authorize refusal _ ih => exact .authorize refusal (ih back)
  | modem state _ ih => exact .modem state (ih back)
  | clock now _ ih => exact .clock now (ih back)

/-- What begins with an authorization has a verdict once it has begun. -/
theorem Leads.verdict? {who : Requester} {rest : Option Fault → Exchange α} {left : Exchange α}
    {turns : List Turn} (leads : Leads (.authorize who rest) turns left) (begun : turns ≠ []) :
    ∃ refusal, Signal.verdict? turns = some refusal := by
  cases leads with
  | refl => exact absurd rfl begun
  | authorize refusal tail => exact ⟨refusal, rfl⟩

/-- Nothing is left but the result. -/
def Ends (x : Exchange α) (turns : List Turn) (result : α) : Prop := x.Leads turns (.done result)

/-- Whatever the answers are, an exchange ends. -/
theorem exists_ends (x : Exchange α) : ∃ turns result, x.Ends turns result := by
  induction x with
  | done result => exact ⟨[], result, .refl _⟩
  | note n rest ih =>
    obtain ⟨turns, result, ends⟩ := ih
    exact ⟨_, result, .note ends⟩
  | call c rest ih =>
    obtain ⟨turns, result, ends⟩ := ih none
    exact ⟨_, result, .call none ends⟩
  | authorize who rest ih =>
    obtain ⟨turns, result, ends⟩ := ih none
    exact ⟨_, result, .authorize none ends⟩
  | modem rest ih =>
    obtain ⟨turns, result, ends⟩ := ih default
    exact ⟨_, result, .modem default ends⟩
  | clock rest ih =>
    obtain ⟨turns, result, ends⟩ := ih 0
    exact ⟨_, result, .clock 0 ends⟩

/-! ## What holds of every end -/

/-- Every way in which the exchange can end has the property. -/
def Always (x : Exchange α) (property : List Turn → α → Prop) : Prop :=
  ∀ turns result, x.Ends turns result → property turns result

theorem Always.mono {x : Exchange α} {first second : List Turn → α → Prop}
    (always : x.Always first) (implies : ∀ turns result, first turns result → second turns result) :
    x.Always second :=
  fun turns result ends => implies turns result (always turns result ends)

section

variable {property : List Turn → α → Prop}

theorem always_done {result : α} (holds : property [] result) :
    (done result).Always property := by
  intro turns other ends
  cases ends
  exact holds

theorem always_note {n : Note} {rest : Exchange α}
    (tail : rest.Always fun turns => property (.note n :: turns)) :
    (note n rest).Always property := by
  intro turns result ends
  cases ends with
  | note ends => exact tail _ _ ends

theorem always_call {c : Call} {rest : Option Fault → Exchange α}
    (tail : ∀ fault, (rest fault).Always fun turns => property (.call c fault :: turns)) :
    (call c rest).Always property := by
  intro turns result ends
  cases ends with
  | call fault ends => exact tail fault _ _ ends

theorem always_authorize {who : Requester} {rest : Option Fault → Exchange α}
    (tail : ∀ refusal,
      (rest refusal).Always fun turns => property (.authorize who refusal :: turns)) :
    (authorize who rest).Always property := by
  intro turns result ends
  cases ends with
  | authorize refusal ends => exact tail refusal _ _ ends

theorem always_modem {rest : State → Exchange α}
    (tail : ∀ state, (rest state).Always fun turns => property (.modem state :: turns)) :
    (modem rest).Always property := by
  intro turns result ends
  cases ends with
  | modem state ends => exact tail state _ _ ends

theorem always_clock {rest : Nat → Exchange α}
    (tail : ∀ now, (rest now).Always fun turns => property (.clock now :: turns)) :
    (clock rest).Always property := by
  intro turns result ends
  cases ends with
  | clock now ends => exact tail now _ _ ends

end

theorem always_bind {x : Exchange α} {f : α → Exchange β} {property : List Turn → β → Prop}
    (front : x.Always fun turns a => (f a).Always fun more => property (turns ++ more)) :
    (x >>= f).Always property := by
  change (x.bind f).Always property
  induction x generalizing property with
  | done result => exact front [] result (.refl _)
  | note n rest ih =>
    exact always_note (ih fun turns a ends => front _ a (.note ends))
  | call c rest ih =>
    exact always_call fun fault => ih fault fun turns a ends => front _ a (.call fault ends)
  | authorize who rest ih =>
    exact always_authorize fun refusal =>
      ih refusal fun turns a ends => front _ a (.authorize refusal ends)
  | modem rest ih =>
    exact always_modem fun state => ih state fun turns a ends => front _ a (.modem state ends)
  | clock rest ih =>
    exact always_clock fun now => ih now fun turns a ends => front _ a (.clock now ends)

theorem always_pure {result : α} {property : List Turn → α → Prop} (holds : property [] result) :
    (pure result : Exchange α).Always property :=
  always_done holds

/-! ## Single moves -/

theorem always_log {severity : Severity} {text : String} {property : List Turn → Unit → Prop}
    (holds : property [.note (.line ⟨severity, text⟩)] ()) : (log severity text).Always property :=
  always_note (always_done holds)

theorem always_attempt {c : Call} {complaint : String} {property : List Turn → Unit → Prop}
    (delivered : property [.call c none] ())
    (failed : ∀ fault line, property [.call c (some fault), .note (.line line)] ()) :
    (attempt c complaint).Always property := by
  refine always_call fun fault => ?_
  cases fault with
  | none => exact always_done delivered
  | some fault => exact always_log (failed fault _)

end Exchange

end Modem.Signal
