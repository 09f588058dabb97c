/-! # Modem states

The codes grow as a modem moves towards being connected. Codes outside the table are kept as they
are. -/

namespace Modem

inductive State where
  | failed
  | unknown
  | initializing
  | locked
  | disabled
  | disabling
  | enabling
  | enabled
  | searching
  | registered
  | disconnecting
  | connecting
  | connected
  | other (code : Int32)
  deriving DecidableEq, Repr, Inhabited

namespace State

def code : State → Int32
  | failed => -1
  | unknown => 0
  | initializing => 1
  | locked => 2
  | disabled => 3
  | disabling => 4
  | enabling => 5
  | enabled => 6
  | searching => 7
  | registered => 8
  | disconnecting => 9
  | connecting => 10
  | connected => 11
  | other code => code

/-- The states with a name, in the order of their codes. -/
def named : List State :=
  [failed, unknown, initializing, locked, disabled, disabling, enabling, enabled, searching,
    registered, disconnecting, connecting, connected]

def ofCode (code : Int32) : State :=
  (named.find? fun state => state.code = code).getD (other code)

theorem ofCode_code_of_mem_named : ∀ state ∈ named, ofCode state.code = state := by
  decide

theorem code_ofCode (c : Int32) : (ofCode c).code = c := by
  unfold ofCode
  cases found : named.find? fun state => state.code = c with
  | none => rfl
  | some state => simpa using List.find?_some found

/-- Whether the state is the one its own code stands for. -/
def isNormal (state : State) : Bool := ofCode state.code = state

/-- Refreshing runs only from here on. -/
def isEnablingOrLater (state : State) : Bool := enabling.code ≤ state.code

def text : State → String
  | failed => "failed"
  | unknown => "unknown"
  | initializing => "initializing"
  | locked => "locked"
  | disabled => "disabled"
  | disabling => "disabling"
  | enabling => "enabling"
  | enabled => "enabled"
  | searching => "searching"
  | registered => "registered"
  | disconnecting => "disconnecting"
  | connecting => "connecting"
  | connected => "connected"
  | other code => "unknown state (" ++ toString code.toInt ++ ")"

end State

end Modem
