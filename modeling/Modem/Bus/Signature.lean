/-! # Type signatures

A value on the bus has a type, written as a signature: one letter for a basic type or a variant,
`a` in front of the element of an array, braces for the entries of a dictionary, parentheses for a
structure. The keys of a dictionary are of any type. Arrays, dictionaries among them, and structures
nest to a fixed depth. -/

namespace Modem.Bus

/-! ## Basic types -/

inductive BasicType where
  | byte
  | boolean
  | int16
  | uint16
  | int32
  | uint32
  | int64
  | uint64
  | double
  | string
  | objectPath
  | signature
  | handle
  deriving DecidableEq, Repr

namespace BasicType

def all : List BasicType :=
  [byte, boolean, int16, uint16, int32, uint32, int64, uint64, double, string, objectPath,
    signature, handle]

def letter : BasicType → Char
  | byte => 'y'
  | boolean => 'b'
  | int16 => 'n'
  | uint16 => 'q'
  | int32 => 'i'
  | uint32 => 'u'
  | int64 => 'x'
  | uint64 => 't'
  | double => 'd'
  | string => 's'
  | objectPath => 'o'
  | signature => 'g'
  | handle => 'h'

def ofLetter? (c : Char) : Option BasicType := all.find? fun t => t.letter = c

theorem ofLetter?_letter (t : BasicType) : ofLetter? t.letter = some t := by
  cases t <;> decide

end BasicType

/-! ## Signatures -/

inductive Signature where
  | basic (type : BasicType)
  | variant
  | array (element : Signature)
  | dict (key value : Signature)
  | struct (fields : List Signature)
  deriving Repr

namespace Signature

def decEq : (a b : Signature) → Decidable (a = b)
  | basic s, basic t => decidable_of_iff (s = t) (by simp)
  | variant, variant => isTrue rfl
  | array s, array t =>
    match decEq s t with
    | isTrue h => isTrue (by rw [h])
    | isFalse h => isFalse (by simp [h])
  | dict k s, dict l t =>
    match decEq k l, decEq s t with
    | isTrue hk, isTrue hs => isTrue (by rw [hk, hs])
    | isFalse hk, _ => isFalse (by simp [hk])
    | _, isFalse hs => isFalse (by simp [hs])
  | struct ss, struct ts =>
    match decEqAll ss ts with
    | isTrue h => isTrue (by rw [h])
    | isFalse h => isFalse (by simp [h])
  | basic _, variant | basic _, array _ | basic _, dict _ _ | basic _, struct _
  | variant, basic _ | variant, array _ | variant, dict _ _ | variant, struct _
  | array _, basic _ | array _, variant | array _, dict _ _ | array _, struct _
  | dict _ _, basic _ | dict _ _, variant | dict _ _, array _ | dict _ _, struct _
  | struct _, basic _ | struct _, variant | struct _, array _ | struct _, dict _ _ =>
    isFalse nofun
where
  decEqAll : (as bs : List Signature) → Decidable (as = bs)
    | [], [] => isTrue rfl
    | a :: as, b :: bs =>
      match decEq a b, decEqAll as bs with
      | isTrue h, isTrue hs => isTrue (by rw [h, hs])
      | isFalse h, _ => isFalse (by simp [h])
      | _, isFalse hs => isFalse (by simp [hs])
    | [], _ :: _ | _ :: _, [] => isFalse nofun

instance : DecidableEq Signature := decEq

def chars : Signature → List Char
  | basic type => [type.letter]
  | variant => ['v']
  | array element => 'a' :: element.chars
  | dict key value => 'a' :: '{' :: (key.chars ++ value.chars ++ ['}'])
  | struct fields => '(' :: (charsOfAll fields ++ [')'])
where
  charsOfAll : List Signature → List Char
    | [] => []
    | s :: rest => s.chars ++ charsOfAll rest

def text (s : Signature) : String := String.ofList s.chars

/-! ## Depth -/

/-- How many arrays lie inside each other at most. -/
def arrayDepth : Signature → Nat
  | basic _ | variant => 0
  | array element => element.arrayDepth + 1
  | dict key value => max key.arrayDepth value.arrayDepth + 1
  | struct fields => arrayDepthOfAll fields
where
  arrayDepthOfAll : List Signature → Nat
    | [] => 0
    | s :: rest => max s.arrayDepth (arrayDepthOfAll rest)

/-- How many structures lie inside each other at most. -/
def structDepth : Signature → Nat
  | basic _ | variant => 0
  | array element => element.structDepth
  | dict key value => max key.structDepth value.structDepth
  | struct fields => structDepthOfAll fields + 1
where
  structDepthOfAll : List Signature → Nat
    | [] => 0
    | s :: rest => max s.structDepth (structDepthOfAll rest)

/-- How deep arrays nest, and how deep structures nest. -/
def maxDepth : Nat := 32

def withinDepth (s : Signature) : Bool := s.arrayDepth ≤ maxDepth && s.structDepth ≤ maxDepth

/-! ## Reading -/

/-- As many types as can be read one after the other, with what is left. -/
def readMany (readOne : List Char → Option (Signature × List Char)) :
    Nat → List Char → List Signature × List Char
  | 0, cs => ([], cs)
  | n + 1, cs =>
    match readOne cs with
    | none => ([], cs)
    | some (s, rest) =>
      let (more, left) := readMany readOne n rest
      (s :: more, left)

/-- One type from the front; the bound is on how deep types nest. -/
def readOne : Nat → List Char → Option (Signature × List Char)
  | 0, _ => none
  | _ + 1, [] => none
  | _ + 1, 'v' :: rest => some (variant, rest)
  | n + 1, 'a' :: '{' :: rest => do
    let (key, rest) ← readOne n rest
    let (value, rest) ← readOne n rest
    match rest with
    | '}' :: rest => some (dict key value, rest)
    | _ => none
  | n + 1, 'a' :: rest => do
    let (element, rest) ← readOne n rest
    some (array element, rest)
  | n + 1, '(' :: rest =>
    match readMany (readOne n) rest.length rest with
    | (first :: more, ')' :: rest) => some (struct (first :: more), rest)
    | _ => none
  | _ + 1, c :: rest => (BasicType.ofLetter? c).map fun type => (basic type, rest)

/-- The type of several types in a row, which is a structure unless there is one of them or none. -/
def ofRow : List Signature → Option Signature
  | [] => none
  | [s] => some s
  | several => some (struct several)

/-- The type that a signature stands for, which is `none` for the empty signature. -/
def ofChars? (cs : List Char) : Option (Option Signature) :=
  match readMany (readOne cs.length) cs.length cs with
  | (row, []) => if row.all withinDepth then some (ofRow row) else none
  | _ => none

def ofText? (text : String) : Option (Option Signature) := ofChars? text.toList

/-- The signature of firmware update settings: a method and a dictionary of variants. -/
def settings : Signature := struct [basic .uint32, dict (basic .string) variant]

end Signature

end Modem.Bus
