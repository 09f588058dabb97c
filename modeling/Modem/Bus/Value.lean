import Modem.Binary64
import Modem.Bus.Signature

/-! # Typed values

The values that travel on the bus. -/

namespace Modem.Bus

/-! ## Basic values -/

inductive Basic where
  | byte (n : UInt8)
  | boolean (b : Bool)
  | int16 (n : Int16)
  | uint16 (n : UInt16)
  | int32 (n : Int32)
  | uint32 (n : UInt32)
  | int64 (n : Int64)
  | uint64 (n : UInt64)
  | double (x : Binary64)
  | string (s : String)
  | objectPath (path : String)
  /-- The empty signature is `none`. -/
  | signature (s : Option Signature)
  /-- An open file, by its descriptor. It travels beside the bytes of a message, not in them. -/
  | handle (descriptor : Int32)
  deriving DecidableEq, Repr

namespace Basic

def type : Basic → BasicType
  | byte _ => .byte
  | boolean _ => .boolean
  | int16 _ => .int16
  | uint16 _ => .uint16
  | int32 _ => .int32
  | uint32 _ => .uint32
  | int64 _ => .int64
  | uint64 _ => .uint64
  | double _ => .double
  | string _ => .string
  | objectPath _ => .objectPath
  | signature _ => .signature
  | handle _ => .handle

end Basic

/-! ## Values -/

inductive Value where
  | basic (b : Basic)
  | variant (content : Value)
  | array (element : Signature) (items : List Value)
  | dict (key value : Signature) (entries : List (Value × Value))
  | struct (fields : List Value)
  deriving Repr

namespace Value

def decEq : (a b : Value) → Decidable (a = b)
  | basic a, basic b => decidable_of_iff (a = b) (by simp)
  | variant a, variant b =>
    match decEq a b with
    | isTrue h => isTrue (by rw [h])
    | isFalse h => isFalse (by simp [h])
  | array s as, array t bs =>
    match decEqAll as bs with
    | isTrue h => decidable_of_iff (s = t) (by simp [h])
    | isFalse h => isFalse (by simp [h])
  | dict k s as, dict l t bs =>
    match decEqEntries as bs with
    | isTrue h => decidable_of_iff (k = l ∧ s = t) (by simp [h])
    | isFalse h => isFalse (by simp [h])
  | struct as, struct bs =>
    match decEqAll as bs with
    | isTrue h => isTrue (by rw [h])
    | isFalse h => isFalse (by simp [h])
  | basic _, variant _ | basic _, array _ _ | basic _, dict _ _ _ | basic _, struct _
  | variant _, basic _ | variant _, array _ _ | variant _, dict _ _ _ | variant _, struct _
  | array _ _, basic _ | array _ _, variant _ | array _ _, dict _ _ _ | array _ _, struct _
  | dict _ _ _, basic _ | dict _ _ _, variant _ | dict _ _ _, array _ _ | dict _ _ _, struct _
  | struct _, basic _ | struct _, variant _ | struct _, array _ _ | struct _, dict _ _ _ =>
    isFalse nofun
where
  decEqAll : (as bs : List Value) → Decidable (as = bs)
    | [], [] => isTrue rfl
    | a :: as, b :: bs =>
      match decEq a b, decEqAll as bs with
      | isTrue h, isTrue hs => isTrue (by rw [h, hs])
      | isFalse h, _ => isFalse (by simp [h])
      | _, isFalse hs => isFalse (by simp [hs])
    | [], _ :: _ | _ :: _, [] => isFalse nofun
  decEqEntries : (as bs : List (Value × Value)) → Decidable (as = bs)
    | [], [] => isTrue rfl
    | (k, a) :: as, (l, b) :: bs =>
      match decEq k l, decEq a b, decEqEntries as bs with
      | isTrue hk, isTrue h, isTrue hs => isTrue (by rw [hk, h, hs])
      | isFalse hk, _, _ => isFalse (by simp [hk])
      | _, isFalse h, _ => isFalse (by simp [h])
      | _, _, isFalse hs => isFalse (by simp [hs])
    | [], _ :: _ | _ :: _, [] => isFalse nofun

instance : DecidableEq Value := decEq

def string (s : String) : Value := basic (.string s)

def signature : Value → Signature
  | basic b => .basic b.type
  | variant _ => .variant
  | array element _ => .array element
  | dict key value _ => .dict key value
  | struct fields => .struct (signatures fields)
where
  signatures : List Value → List Signature
    | [] => []
    | v :: rest => v.signature :: signatures rest

/-- The content of one wrapper, if there is one. -/
def unwrapOnce : Value → Value
  | variant content => content
  | v => v

/-- The content of all wrappers. -/
def unwrap : Value → Value
  | variant content => content.unwrap
  | v => v

end Value

end Modem.Bus
