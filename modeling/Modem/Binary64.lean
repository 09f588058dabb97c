/-! # Measured values

A measurement is a binary64 number, kept as its 64 bits. Two of them are the same number by the
rule of IEEE 754: a NaN is the same as nothing, and the two zeros are the same. A number is neither
before nor behind another one exactly when it is the same. Two further orders say where a NaN
stands. -/

namespace Modem

structure Binary64 where
  bits : UInt64
  deriving DecidableEq, Repr, Inhabited

namespace Binary64

/-! ## Classes of numbers -/

def zero : Binary64 := ⟨0⟩

/-- The bits without the sign. -/
def magnitude (x : Binary64) : UInt64 := x.bits &&& 0x7fffffffffffffff

def isNaN (x : Binary64) : Bool := 0x7ff0000000000000 < x.magnitude

def isZero (x : Binary64) : Bool := x.magnitude = 0

/-! ## Comparison -/

/-- Whether two numbers compare equal. -/
def same (x y : Binary64) : Bool :=
  !x.isNaN && !y.isNaN && (x.bits == y.bits || (x.isZero && y.isZero))

theorem same_self (x : Binary64) : x.same x = !x.isNaN := by
  simp [same]

theorem same_comm (x y : Binary64) : x.same y = y.same x := by
  rw [Bool.eq_iff_iff]
  simp only [same, Bool.and_eq_true, Bool.or_eq_true, beq_iff_eq, Bool.not_eq_true']
  constructor
  · rintro ⟨⟨hx, hy⟩, h | ⟨zx, zy⟩⟩
    · exact ⟨⟨hy, hx⟩, .inl h.symm⟩
    · exact ⟨⟨hy, hx⟩, .inr ⟨zy, zx⟩⟩
  · rintro ⟨⟨hy, hx⟩, h | ⟨zy, zx⟩⟩
    · exact ⟨⟨hx, hy⟩, .inl h.symm⟩
    · exact ⟨⟨hx, hy⟩, .inr ⟨zx, zy⟩⟩

/-! ## Order -/

/-- The place of a number among all numbers. Those with a sign come first, and of them the ones of
great magnitude. -/
def rank (x : Binary64) : Int :=
  if x.bits.toNat < 0x8000000000000000 then x.bits.toNat else 0x7fffffffffffffff - x.bits.toNat

theorem rank_injective {x y : Binary64} (same : x.rank = y.rank) : x = y := by
  obtain ⟨a⟩ := x
  obtain ⟨b⟩ := y
  congr
  apply UInt64.toNat_inj.1
  simp only [rank] at same
  split at same <;> split at same <;> omega

theorem rank_inj {x y : Binary64} : x.rank = y.rank ↔ x.bits = y.bits :=
  ⟨fun same => by rw [rank_injective same], fun same => by simp [rank, same]⟩

/-- The order of numbers, in which a NaN has no place and the two zeros are one. -/
def order? (x y : Binary64) : Option Ordering :=
  if x.isNaN || y.isNaN then none
  else if x.isZero && y.isZero then some .eq
  else some (compare x.rank y.rank)

theorem order?_eq_some_eq_iff {x y : Binary64} : x.order? y = some .eq ↔ x.same y := by
  cases hx : x.isNaN <;> cases hy : y.isNaN <;> cases zx : x.isZero <;> cases zy : y.isZero <;>
    simp [order?, same, hx, hy, zx, zy, rank_inj]

/-- An order in which every NaN has a place too: below all numbers with a sign, above them without
one. -/
def totalOrder (x y : Binary64) : Ordering := compare x.rank y.rank

theorem totalOrder_eq_eq_iff {x y : Binary64} : x.totalOrder y = .eq ↔ x = y := by
  simp only [totalOrder, Std.compare_eq_iff_eq]
  exact ⟨rank_injective, fun same => by rw [same]⟩

theorem order?_eq_none_iff {x y : Binary64} : x.order? y = none ↔ x.isNaN ∨ y.isNaN := by
  cases hx : x.isNaN <;> cases hy : y.isNaN <;> cases zx : x.isZero <;> cases zy : y.isZero <;>
    simp [order?, hx, hy, zx, zy]

/-- The order of numbers, in which a NaN has its place in the total order. -/
def order (x y : Binary64) : Ordering := (x.order? y).getD (x.totalOrder y)

theorem order_eq_eq_iff {x y : Binary64} : x.order y = .eq ↔ x.same y ∨ x = y := by
  rw [← order?_eq_some_eq_iff, order]
  cases found : x.order? y with
  | none => simp [totalOrder_eq_eq_iff]
  | some o =>
    simp only [Option.getD_some, Option.some.injEq]
    refine ⟨.inl, fun h => h.elim id fun equal => ?_⟩
    have number : x.isNaN = false := by
      cases nan : x.isNaN with
      | false => rfl
      | true => simp [order?_eq_none_iff.2 (.inl nan)] at found
    have same := order?_eq_some_eq_iff.2 ((same_self x).trans (by simp [number]))
    rw [← equal, same] at found
    exact (Option.some.inj found).symm

/-- The order of numbers, in which a NaN is equal to every number. -/
def looseOrder (x y : Binary64) : Ordering := (x.order? y).getD .eq

theorem looseOrder_eq_eq_iff {x y : Binary64} :
    x.looseOrder y = .eq ↔ x.same y ∨ x.isNaN ∨ y.isNaN := by
  rw [← order?_eq_some_eq_iff, ← order?_eq_none_iff, looseOrder]
  cases x.order? y <;> simp

/-! ## Written form -/

/-- Every NaN is written as one quiet NaN. -/
def canonical (x : Binary64) : Binary64 :=
  if x.isNaN then ⟨0x7ff8000000000000⟩ else x

/-! ## Half units -/

/-- The number `n / 2`, exact for `|n|` below `2 ^ 53`. -/
def ofHalves (n : Int) : Binary64 :=
  let m := n.natAbs
  if m = 0 then zero
  else
    let e := m.log2
    let sign := if n < 0 then 0x8000000000000000 else 0
    ⟨.ofNat (sign + ((e + 1022) <<< 52) + (m <<< (52 - e) - 0x10000000000000))⟩

end Binary64

end Modem
