import Modem.Signal.Assembly

/-! # Readings that agree

Two levels agree if they compare equal or if neither is a number. The snapshot that is put together
from readings gives readings back that agree with them exactly if all readings of a technology are
as valid and those that are not valid have the level zero. -/

namespace Modem

/-! ## Levels -/

namespace Binary64

/-- The two compare equal, or neither is a number. -/
def Agrees (x y : Binary64) : Prop := x.same y = true ∨ x.isNaN = true ∧ y.isNaN = true

instance (x y : Binary64) : Decidable (x.Agrees y) := inferInstanceAs (Decidable (_ ∨ _))

variable {x y z : Binary64}

theorem same_iff :
    x.same y = true ↔
      x.isNaN = false ∧ y.isNaN = false ∧ (x = y ∨ x.isZero = true ∧ y.isZero = true) := by
  obtain ⟨a⟩ := x
  obtain ⟨b⟩ := y
  simp [same, and_assoc]

theorem same_trans (first : x.same y = true) (second : y.same z = true) : x.same z = true := by
  rw [same_iff] at first second ⊢
  obtain ⟨number, -, rfl | ⟨zero, middle⟩⟩ := first
  · exact second
  · obtain ⟨-, numberToo, rfl | ⟨-, zeroToo⟩⟩ := second
    · exact ⟨number, numberToo, .inr ⟨zero, middle⟩⟩
    · exact ⟨number, numberToo, .inr ⟨zero, zeroToo⟩⟩

theorem agrees_refl (x : Binary64) : x.Agrees x := by
  cases nan : x.isNaN with
  | false => exact .inl (by rw [same_self, nan]; rfl)
  | true => exact .inr ⟨nan, nan⟩

theorem Agrees.symm (agrees : x.Agrees y) : y.Agrees x := by
  rcases agrees with same | ⟨first, second⟩
  · exact .inl ((same_comm y x).trans same)
  · exact .inr ⟨second, first⟩

theorem Agrees.trans (first : x.Agrees y) (second : y.Agrees z) : x.Agrees z := by
  rcases first with same | ⟨nan, nanToo⟩
  · rcases second with more | ⟨nan, -⟩
    · exact .inl (same_trans same more)
    · exact absurd (same_iff.1 same).2.1 (by simp [nan])
  · rcases second with same | ⟨-, last⟩
    · exact absurd (same_iff.1 same).1 (by simp [nanToo])
    · exact .inr ⟨nan, last⟩

theorem agrees_zero_iff : x.Agrees .zero ↔ x.same .zero = true :=
  ⟨fun agrees => agrees.elim id fun nan => absurd nan.2 (by decide), .inl⟩

end Binary64

namespace Signal

/-! ## Readings -/

namespace Reading

/-- The readings are as valid, and their levels agree. -/
structure Agrees (r s : Reading) : Prop where
  valid : r.valid = s.valid
  level : r.level.Agrees s.level

instance (r s : Reading) : Decidable (r.Agrees s) :=
  decidable_of_iff (r.valid = s.valid ∧ r.level.Agrees s.level)
    ⟨fun both => ⟨both.1, both.2⟩, fun agrees => ⟨agrees.valid, agrees.level⟩⟩

variable {r s t : Reading}

theorem agrees_refl (r : Reading) : r.Agrees r := ⟨rfl, r.level.agrees_refl⟩

theorem Agrees.trans (first : r.Agrees s) (second : s.Agrees t) : r.Agrees t :=
  ⟨first.valid.trans second.valid, first.level.trans second.level⟩

/-- Readings that compare equal agree. Only where neither level is a number, readings agree that do
not compare equal. -/
theorem agrees_of_same (same : r.same s = true) : r.Agrees s := by
  rw [Reading.same, Bool.and_eq_true, beq_iff_eq] at same
  exact ⟨same.1, .inl same.2⟩

end Reading

/-! ## Readings of a snapshot -/

namespace Technology

/-- The measurement whose reading tells whether the technology is available. -/
def leading : Technology → Measurement
  | cdma => .cdmaRssi
  | evdo => .evdoRssi
  | gsm => .gsmRssi
  | umts => .umtsRssi
  | lte => .lteRssi

theorem mem_measurements_iff {technology : Technology} {m : Measurement} :
    m ∈ technology.measurements ↔ m.technology = technology := by
  cases technology <;> cases m <;> decide

theorem leading_mem (technology : Technology) : technology.leading ∈ technology.measurements := by
  cases technology <;> decide

end Technology

/-- All readings of a technology are as valid, and those that are not valid have the level zero. -/
def Uniform (read : Measurement → Reading) : Prop :=
  ∀ technology : Technology,
    (∀ m ∈ technology.measurements, ∀ n ∈ technology.measurements,
      (read m).valid = (read n).valid) ∧
    ∀ m ∈ technology.measurements, (read m).valid = false → (read m).level.same .zero = true

namespace Snapshot

/-- Of readings that have been put together, one is there if the leading one of its technology is
valid. -/
theorem reading_ofReadings (read : Measurement → Reading) (m : Measurement) :
    (ofReadings read).reading m =
      if (read m.technology.leading).valid then ⟨true, (read m).level⟩ else .absent := by
  cases m <;>
    simp only [ofReadings, reading, level?, Measurement.technology, Technology.leading] <;>
    split <;> simp_all

/-- What is put together from readings gives these readings back exactly if they are uniform. -/
theorem agrees_ofReadings_iff (read : Measurement → Reading) :
    (∀ m, ((ofReadings read).reading m).Agrees (read m)) ↔ Uniform read := by
  constructor
  · intro agrees technology
    have leads : ∀ m ∈ technology.measurements,
        (read m).valid = (read technology.leading).valid ∧
          ((read m).valid = false → (read m).level.same .zero = true) := by
      intro m mem
      obtain rfl := Technology.mem_measurements_iff.1 mem
      obtain ⟨valid, level⟩ := agrees m
      rw [reading_ofReadings] at valid level
      split at valid
      next leading =>
        exact ⟨valid.symm.trans leading.symm, fun invalid => by simp [← valid] at invalid⟩
      next absent =>
        rw [if_neg absent] at level
        exact ⟨valid.symm.trans (Bool.not_eq_true _ ▸ absent).symm,
          fun _ => Binary64.agrees_zero_iff.1 level.symm⟩
    exact ⟨fun m mem n other => (leads m mem).1.trans (leads n other).1.symm,
      fun m mem => (leads m mem).2⟩
  · intro uniform m
    obtain ⟨valid, level⟩ := uniform m.technology
    have leads := valid m m.mem_measurements _ m.technology.leading_mem
    rw [reading_ofReadings]
    split
    next leading => exact ⟨(leads.trans leading).symm, Binary64.agrees_refl _⟩
    next absent =>
      have invalid : (read m).valid = false := leads.trans (Bool.not_eq_true _ ▸ absent)
      have zero := Binary64.agrees_zero_iff.2 (level m m.mem_measurements invalid)
      exact ⟨invalid.symm, zero.symm⟩

end Snapshot

end Signal

end Modem
