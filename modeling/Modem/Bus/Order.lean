import Modem.Bus.Value

/-! # The order of values

Values are sorted by their kind first and by their content then. The parts of a structure, an array
or a dictionary are compared one after the other. A NaN has its place among the numbers that are
compared, but not among those in variants: there it is equal to every number, so this order is not
transitive. -/

namespace Modem.Bus

/-! ## Signatures -/

/-- The order of signatures. Arrays and dictionaries go by their parts, structures by their fields
and then by how many there are. Any other two signatures are equal in this order. -/
def Signature.order : Signature → Signature → Ordering
  | array s, array t => s.order t
  | dict k s, dict l t => (k.order l).then (s.order t)
  | struct ss, struct ts => orderAll ss ts
  | _, _ => .eq
where
  orderAll : List Signature → List Signature → Ordering
    | [], [] => .eq
    | [], _ :: _ => .lt
    | _ :: _, [] => .gt
    | s :: ss, t :: ts => (s.order t).then (orderAll ss ts)

def Signature.orderOrEmpty : Option Signature → Option Signature → Ordering
  | some s, some t => s.order t
  | _, _ => .eq

/-! ## Basic values -/

/-- The place of a kind of value among all kinds. Open files come last. -/
def Basic.rank : Basic → Nat
  | byte _ => 0
  | boolean _ => 1
  | int16 _ => 2
  | uint16 _ => 3
  | int32 _ => 4
  | uint32 _ => 5
  | int64 _ => 6
  | uint64 _ => 7
  | double _ => 8
  | string _ => 9
  | signature _ => 10
  | objectPath _ => 11
  | handle _ => 16

/-- The order of basic values for an order of numbers. -/
def Basic.orderBy (numbers : Binary64 → Binary64 → Ordering) : Basic → Basic → Ordering
  | byte a, byte b => compare a b
  | boolean a, boolean b => compare a b
  | int16 a, int16 b => compare a b
  | uint16 a, uint16 b => compare a b
  | int32 a, int32 b => compare a b
  | uint32 a, uint32 b => compare a b
  | int64 a, int64 b => compare a b
  | uint64 a, uint64 b => compare a b
  | double x, double y => numbers x y
  | string s, string t => compare s t
  | signature s, signature t => Signature.orderOrEmpty s t
  | objectPath s, objectPath t => compare s t
  | handle a, handle b => compare a b
  | a, b => compare a.rank b.rank

/-! ## Values -/

namespace Value

def rank : Value → Nat
  | basic b => b.rank
  | variant _ => 12
  | array _ _ => 13
  | dict _ _ _ => 14
  | struct _ => 15

/-- The order of values for an order of numbers. Numbers that are parts of a value, and those in
variants, have orders of their own. -/
def orderBy (numbers : Binary64 → Binary64 → Ordering) : Value → Value → Ordering
  | basic a, basic b => a.orderBy numbers b
  | variant a, variant b => orderBy Binary64.looseOrder a b
  | array s as, array t bs => (orderAll as bs).then (s.order t)
  | dict k s as, dict l t bs => ((orderEntries as bs).then (k.order l)).then (s.order t)
  | struct as, struct bs => orderAll as bs
  | a, b => compare a.rank b.rank
where
  orderAll : List Value → List Value → Ordering
    | [], [] => .eq
    | [], _ :: _ => .lt
    | _ :: _, [] => .gt
    | a :: as, b :: bs => (orderBy Binary64.order a b).then (orderAll as bs)
  orderEntries : List (Value × Value) → List (Value × Value) → Ordering
    | [], [] => .eq
    | [], _ :: _ => .lt
    | _ :: _, [] => .gt
    | (k, a) :: as, (l, b) :: bs =>
      ((orderBy Binary64.order k l).then (orderBy Binary64.order a b)).then (orderEntries as bs)

def order : Value → Value → Ordering := orderBy Binary64.order

/-- Two numbers are one in the order of values if they compare equal or have the same bits. -/
theorem order_double {x y : Binary64} :
    order (basic (.double x)) (basic (.double y)) = .eq ↔ x.same y ∨ x = y :=
  Binary64.order_eq_eq_iff

/-- In variants a NaN is one with every number. -/
theorem order_variant_double {x y : Binary64} :
    order (variant (basic (.double x))) (variant (basic (.double y))) = .eq ↔
      x.same y ∨ x.isNaN ∨ y.isNaN :=
  Binary64.looseOrder_eq_eq_iff

end Value

end Modem.Bus
