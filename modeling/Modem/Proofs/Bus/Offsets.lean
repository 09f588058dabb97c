import Mathlib.Data.Nat.Periodic
import Modem.Bus.Wire.Marshal

/-! # Positions and padding

Alignments divide eight, so the bytes of a value depend on its position modulo eight alone. A value
that is aligned to eight has the same bytes everywhere, behind the padding that leads up to it. -/

namespace Modem.Bus.Wire

open Function (Periodic)

/-! ## Padding -/

theorem dvd_position_add_padding {alignment : Nat} (positive : 0 < alignment) (position : Nat) :
    alignment ∣ position + padding alignment position := by
  rw [Nat.dvd_iff_mod_eq_zero, padding, Nat.add_mod_mod]
  have below : position % alignment < alignment := Nat.mod_lt _ positive
  have split : position = position % alignment + alignment * (position / alignment) :=
    (Nat.mod_add_div position alignment).symm
  have whole : position + (alignment - position % alignment) =
      alignment * (position / alignment + 1) := by
    rw [Nat.mul_add, Nat.mul_one]
    omega
  rw [whole, Nat.mul_mod_right]

@[simp]
theorem length_zeros (alignment position : Nat) :
    (zeros alignment position).length = padding alignment position :=
  List.length_replicate

theorem periodic_zeros {alignment : Nat} (divides : alignment ∣ 8) :
    Periodic (zeros alignment) 8 := by
  intro position
  obtain ⟨times, eight⟩ := divides
  rw [zeros, zeros, padding, padding, eight, Nat.add_mul_mod_self_left]

theorem behind_eight (m n : Nat) : m + 8 + n = m + n + 8 := Nat.add_right_comm m 8 n

/-! ## Values -/

section

variable (order : ByteOrder)

theorem periodic_marshalWord {width : Nat} (divides : width ∣ 8) (n : Nat) :
    Periodic (marshalWord order width n) 8 := by
  intro position
  rw [marshalWord, marshalWord, periodic_zeros divides]

theorem periodic_marshalText (text : String) : Periodic (marshalText order text) 8 := by
  intro position
  rw [marshalText, marshalText, periodic_marshalWord order (by decide)]

theorem periodic_marshalBasic (b : Basic) : Periodic (marshalBasic order b) 8 := by
  intro position
  have word (width n : Nat) (divides : width ∣ 8) :
      marshalWord order width n (position + 8) = marshalWord order width n position :=
    periodic_marshalWord order divides n position
  cases b with
  | byte n => rfl
  | string s => exact periodic_marshalText order s position
  | objectPath path => exact periodic_marshalText order path position
  | signature s => rfl
  | handle descriptor => rfl
  | _ => exact congrArg some (word _ _ (by decide))

theorem periodic_marshalArray {itemAlignment : Nat} (divides : itemAlignment ∣ 8)
    {items : Nat → Option (List UInt8)} (periodic : Periodic items 8) :
    Periodic (marshalArray order itemAlignment items) 8 := by
  intro position
  have four : padding 4 (position + 8) = padding 4 position := by
    simpa using congrArg List.length (periodic_zeros (by decide : 4 ∣ 8) position)
  simp only [marshalArray, four, behind_eight, periodic_zeros divides _, periodic _,
    periodic_marshalWord order (by decide : 4 ∣ 8) _ _]

theorem alignment_dvd_eight (s : Signature) : alignment s ∣ 8 := by
  cases s with
  | basic type => cases type <;> decide
  | variant => exact one_dvd 8
  | array element => exact (by decide : 4 ∣ 8)
  | dict key value => exact (by decide : 4 ∣ 8)
  | struct fields => exact Nat.dvd_refl 8

mutual

theorem periodic_marshal : (v : Value) → Periodic (marshal order v) 8
  | .basic b => periodic_marshalBasic order b
  | .variant content => by
    intro position
    have inner := periodic_marshal content
    simp only [marshal, behind_eight, inner _]
  | .array element items => by
    intro position
    have inner := periodic_marshalAll items
    simpa only [marshal] using
      periodic_marshalArray order (alignment_dvd_eight element) inner position
  | .dict _ _ entries => by
    intro position
    have inner := periodic_marshalEntries entries
    simpa only [marshal] using periodic_marshalArray order (by decide : 8 ∣ 8) inner position
  | .struct fields => by
    intro position
    have inner := periodic_marshalAll fields
    simp only [marshal, periodic_zeros (by decide : 8 ∣ 8) _, behind_eight, inner _]

theorem periodic_marshalAll : (vs : List Value) → Periodic (marshal.marshalAll order vs) 8
  | [] => fun _ => rfl
  | v :: rest => by
    intro position
    have first := periodic_marshal v
    have others := periodic_marshalAll rest
    simp only [marshal.marshalAll, first _, behind_eight, others _]

theorem periodic_marshalEntries :
    (entries : List (Value × Value)) → Periodic (marshal.marshalEntries order entries) 8
  | [] => fun _ => rfl
  | (key, value) :: rest => by
    intro position
    have first := periodic_marshal key
    have second := periodic_marshal value
    have others := periodic_marshalEntries rest
    simp only [marshal.marshalEntries, periodic_zeros (by decide : 8 ∣ 8) _, behind_eight, first _,
      second _, others _]

end

/-- A structure has the same bytes everywhere but for the padding in front. -/
theorem marshal_struct (fields : List Value) (position : Nat) :
    marshal order (.struct fields) position =
      (marshal order (.struct fields) 0).map (zeros 8 position ++ ·) := by
  have aligned : (position + padding 8 position) % 8 = 0 :=
    Nat.mod_eq_zero_of_dvd (dvd_position_add_padding (by decide) position)
  have same : marshal.marshalAll order fields (position + padding 8 position) =
      marshal.marshalAll order fields 0 := by
    rw [← (periodic_marshalAll order fields).map_mod_nat, aligned]
  have nothing : zeros 8 0 = [] := rfl
  simp [marshal, same, nothing, Option.map_eq_bind]

end

end Modem.Bus.Wire
