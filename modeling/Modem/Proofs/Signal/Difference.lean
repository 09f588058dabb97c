import Mathlib.Data.List.Nodup
import Modem.Proofs.Signal.Agreement
import Modem.Signal.Difference

/-! # What a difference tells

The records of a snapshot have the level zero for each measurement of a technology that is not
available, and the difference of two snapshots lists the places at which their records, looked up by
name, compare different. It is empty exactly if the snapshots compare equal as they are, with
nothing filled in. Whoever has the readings of the previous snapshot gets those of the next one from
the listed places, and can do without one of these only where neither snapshot has a number. -/

namespace Modem.Signal

/-! ## Places -/

namespace Measurement

/-- The technology and the name under which a measurement is published. -/
def place (m : Measurement) : Technology × String := (m.technology, m.field)

/-- The places by technology, and within a technology by the order of its measurements. -/
def places : List (Technology × String) :=
  Technology.all.flatMap fun t => t.measurements.map fun m => (t, m.field)

theorem map_place_all : all.map place = places := by decide

theorem place_injective : Function.Injective place := by
  intro m n same
  have technology : m.technology = n.technology := congrArg Prod.fst same
  have field : m.field = n.field := congrArg Prod.snd same
  have found := named?_field m
  rw [technology, field, named?_field] at found
  exact (Option.some.inj found).symm

end Measurement

namespace Snapshot

/-- What the record of a technology has under a name. A name that it does not have reads as
absent. -/
def inRecord (s : Snapshot) (place : Technology × String) : Reading :=
  match (s.record place.1).find? fun entry => entry.1.field = place.2 with
  | some (_, level) => ⟨s.available place.1, level⟩
  | none => .absent

theorem inRecord_eq_readingNamed (s : Snapshot) (technology : Technology) (name : String) :
    s.inRecord (technology, name) = s.readingNamed technology name := by
  have looked : ((s.record technology).find? fun entry => entry.1.field = name) =
      (Measurement.named? technology name).map fun m => (m, (s.reading m).level) := by
    rw [record, List.find?_map]
    rfl
  rw [inRecord, looked, readingNamed]
  cases found : Measurement.named? technology name with
  | none => rfl
  | some m =>
    have mem : m ∈ technology.measurements := List.mem_of_find?_eq_some found
    rw [← Technology.mem_measurements_iff.1 mem]
    exact congrArg (Reading.mk · _) (s.valid_reading m).symm

theorem inRecord_place (s : Snapshot) (m : Measurement) : s.inRecord m.place = s.reading m :=
  (s.inRecord_eq_readingNamed _ _).trans (s.readingNamed_field m)

variable {a b : Snapshot} {m : Measurement}

/-- The difference is what a comparison of the records lists. -/
theorem map_place_changed (a b : Snapshot) :
    (a.changed b).map Measurement.place =
      Measurement.places.filter fun place => !(a.inRecord place).same (b.inRecord place) := by
  rw [← Measurement.map_place_all, List.filter_map]
  simp only [Function.comp_def, inRecord_place]
  rfl

theorem changed_comm (a b : Snapshot) : a.changed b = b.changed a := by
  simp only [changed, Reading.same_comm]

/-! ## Snapshots that compare equal -/

theorem same_reading (a b : Snapshot) (m : Measurement) :
    (a.reading m).same (b.reading m) = bothSame Binary64.same (a.level? m) (b.level? m) := by
  rw [reading, reading]
  cases a.level? m <;> cases b.level? m <;> rfl

/-- Where there is a level to compare, to be both absent or both present is part of what the levels
tell. -/
theorem bothSame_eq_all {α : Type} {same : α → α → Bool} (levels : List (α → Binary64))
    (nonempty : levels ≠ [])
    (compared : ∀ x y, same x y = levels.all fun level => (level x).same (level y))
    (x y : Option α) :
    bothSame same x y =
      levels.all fun level => bothSame Binary64.same (x.map level) (y.map level) := by
  obtain ⟨first, rest, rfl⟩ := List.exists_cons_of_ne_nil nonempty
  cases x with
  | none =>
    cases y with
    | none => simp [bothSame]
    | some y => simp [bothSame]
  | some x =>
    cases y with
    | none => simp [bothSame]
    | some y => exact compared x y

/-- Whether two snapshots compare equal in one technology. -/
def sameIn (a b : Snapshot) : Technology → Bool
  | .cdma => bothSame Cdma.same a.cdma b.cdma
  | .evdo => bothSame Evdo.same a.evdo b.evdo
  | .gsm => bothSame Gsm.same a.gsm b.gsm
  | .umts => bothSame Umts.same a.umts b.umts
  | .lte => bothSame Lte.same a.lte b.lte

theorem same_eq_all (a b : Snapshot) : a.same b = Technology.all.all (a.sameIn b) := by
  simp [Snapshot.same, Technology.all, sameIn, Bool.and_assoc]

theorem sameIn_eq_all (a b : Snapshot) (technology : Technology) :
    a.sameIn b technology =
      technology.measurements.all fun m => (a.reading m).same (b.reading m) := by
  simp only [same_reading]
  cases technology with
  | cdma =>
    exact bothSame_eq_all [Cdma.rssi, Cdma.ecio] nofun (fun _ _ => by simp [Cdma.same]) _ _
  | evdo =>
    exact bothSame_eq_all [Evdo.rssi, Evdo.ecio, Evdo.sinr, Evdo.io] nofun
      (fun _ _ => by simp [Evdo.same, Bool.and_assoc]) _ _
  | gsm => exact bothSame_eq_all [Gsm.rssi] nofun (fun _ _ => by simp [Gsm.same]) _ _
  | umts =>
    exact bothSame_eq_all [Umts.rssi, Umts.ecio] nofun (fun _ _ => by simp [Umts.same]) _ _
  | lte =>
    exact bothSame_eq_all [Lte.rssi, Lte.rsrq, Lte.rsrp, Lte.snr] nofun
      (fun _ _ => by simp [Lte.same, Bool.and_assoc]) _ _

/-- Snapshots compare equal exactly if all their readings do. -/
theorem same_iff_readings : a.same b = true ↔ ∀ m, (a.reading m).same (b.reading m) = true := by
  rw [same_eq_all, List.all_eq_true]
  simp only [sameIn_eq_all, List.all_eq_true]
  exact ⟨fun all m => all _ (Technology.mem_all _) m m.mem_measurements,
    fun all _ _ m _ => all m⟩

theorem changed_eq_nil_iff : a.changed b = [] ↔ a.same b = true := by
  rw [List.eq_nil_iff_forall_not_mem, same_iff_readings]
  simp only [mem_changed, Bool.not_eq_false]

/-! ## Levels that are no numbers -/

/-- Only what is measured can fail to be a number. -/
theorem available_of_isNaN (nan : (a.reading m).level.isNaN = true) :
    a.available m.technology = true := by
  rw [← isSome_level?]
  rw [reading] at nan
  cases found : a.level? m with
  | none =>
    rw [found] at nan
    exact absurd nan (by decide)
  | some level => rfl

theorem changed_self_eq_nil_iff :
    a.changed a = [] ↔
      ∀ m, a.available m.technology = true → (a.reading m).level.isNaN = false := by
  rw [changed_eq_nil_iff, same_iff_readings]
  refine forall_congr' fun m => ?_
  rw [Reading.same, Binary64.same_self, beq_self_eq_true, Bool.true_and, Bool.not_eq_true']
  refine ⟨fun number _ => number, fun number => Bool.eq_false_iff.2 fun nan => ?_⟩
  exact Bool.eq_false_iff.1 (number (available_of_isNaN nan)) nan

/-! ## Overwriting -/

/-- Some readings, of which those at the listed measurements are overwritten by a snapshot. -/
def overwrite (s : Snapshot) (read : Measurement → Reading) (listed : List Measurement)
    (m : Measurement) : Reading :=
  if m ∈ listed then s.reading m else read m

/-- Readings agree unless they are listed, and they agree then too if neither has a number. -/
theorem agrees_reading_iff :
    (b.reading m).Agrees (a.reading m) ↔
      (m ∈ a.changed b →
        (a.reading m).level.isNaN = true ∧ (b.reading m).level.isNaN = true) := by
  rw [mem_changed, Reading.same_comm]
  constructor
  · rintro ⟨valid, same | ⟨nan, nanToo⟩⟩ different
    · rw [Reading.same, valid, same, beq_self_eq_true] at different
      cases different
    · exact ⟨nanToo, nan⟩
  · intro numberless
    cases same : (b.reading m).same (a.reading m) with
    | true => exact Reading.agrees_of_same same
    | false =>
      obtain ⟨nan, nanToo⟩ := numberless same
      have valid : (b.reading m).valid = (a.reading m).valid := by
        rw [valid_reading, valid_reading, available_of_isNaN nan, available_of_isNaN nanToo]
      exact ⟨valid, .inr ⟨nanToo, nan⟩⟩

/-- It is enough to overwrite what is listed and has a number on one side. -/
theorem agrees_overwrite_iff {listed : List Measurement} :
    (∀ m, (a.overwrite b.reading listed m).Agrees (a.reading m)) ↔
      ∀ m ∈ a.changed b, m ∉ listed →
        (a.reading m).level.isNaN = true ∧ (b.reading m).level.isNaN = true := by
  refine forall_congr' fun m => ?_
  rw [overwrite]
  split
  next mem => exact ⟨fun _ _ other => absurd mem other, fun _ => Reading.agrees_refl _⟩
  next other =>
    rw [agrees_reading_iff]
    exact ⟨fun numberless changed _ => numberless changed,
      fun numberless changed => numberless changed other⟩

theorem mem_changed_of_available_ne {technology : Technology}
    (differs : a.available technology ≠ b.available technology)
    (mem : m ∈ technology.measurements) : m ∈ a.changed b := by
  obtain rfl := Technology.mem_measurements_iff.1 mem
  rw [mem_changed, Reading.same, valid_reading, valid_reading, beq_eq_false_iff_ne.2 differs,
    Bool.false_and]

/-- The difference of two snapshots is empty exactly if they compare equal, which a snapshot does to
itself if all its levels are numbers. It lists each place at which the records compare different
once, in order, whichever of the two came first, and all places of a technology that only one of
them has. The readings at these places turn those of the previous snapshot into ones that agree with
the new ones, and each of them is needed for that unless neither side has a number there. -/
theorem difference_is_faithful (s previous : Snapshot) :
    let changed := s.changed previous
    (changed = [] ↔ s.same previous = true) ∧
    (s.changed s = [] ↔
      ∀ m, s.available m.technology = true → (s.reading m).level.isNaN = false) ∧
    (changed.map Measurement.place).Nodup ∧
    changed.map Measurement.place =
      Measurement.places.filter
        (fun place => !(s.inRecord place).same (previous.inRecord place)) ∧
    changed = previous.changed s ∧
    (∀ technology : Technology, s.available technology ≠ previous.available technology →
      ∀ m ∈ technology.measurements, m ∈ changed) ∧
    (∀ m, (s.overwrite previous.reading changed m).Agrees (s.reading m)) ∧
    ∀ m ∈ changed,
      (∀ n, (s.overwrite previous.reading (changed.erase m) n).Agrees (s.reading n)) ↔
        (s.reading m).level.isNaN = true ∧ (previous.reading m).level.isNaN = true := by
  intro changed
  have once : changed.Nodup := nodup_changed s previous
  refine ⟨changed_eq_nil_iff, changed_self_eq_nil_iff, once.map Measurement.place_injective,
    map_place_changed s previous, changed_comm s previous,
    fun technology differs m mem => mem_changed_of_available_ne differs mem,
    agrees_overwrite_iff.2 fun m mem other => absurd mem other, fun m mem => ?_⟩
  rw [agrees_overwrite_iff]
  constructor
  · intro numberless
    exact numberless m mem fun left => (once.mem_erase_iff.1 left).1 rfl
  · intro numberless n member left
    have same : n = m := by
      by_contra other
      exact left (once.mem_erase_iff.2 ⟨other, member⟩)
    rwa [same]

/-- A modem on CDMA and UMTS, and the same modem when it has got GSM too. One level is no number in
both, one zero gets a sign, and one level rises. -/
def sparse : Snapshot :=
  { cdma := some ⟨⟨0xC054000000000000⟩, ⟨0x7FF8000000000000⟩⟩
    umts := some ⟨.zero, ⟨0xC024000000000000⟩⟩ }

def fuller : Snapshot :=
  { cdma := some ⟨⟨0xC051C00000000000⟩, ⟨0x7FF8000000000001⟩⟩
    gsm := some ⟨⟨0xC051C00000000000⟩⟩
    umts := some ⟨⟨0x8000000000000000⟩, ⟨0xC024000000000000⟩⟩ }

/-- Of the three places that are listed, the one without a number can be left out. It is listed
because what is no number compares different even from itself. -/
theorem difference_of_fuller :
    (fuller.changed sparse).map Measurement.place =
      [(.cdma, "rssi"), (.cdma, "ecio"), (.gsm, "rssi")] ∧
    .gsmRssi ∈ fuller.changed sparse ∧ fuller.same sparse = false ∧ fuller.changed fuller ≠ [] ∧
    (∀ m, (fuller.overwrite sparse.reading
      ((fuller.changed sparse).erase .cdmaEcio) m).Agrees (fuller.reading m)) ∧
    ¬ ∀ m, (fuller.overwrite sparse.reading
      ((fuller.changed sparse).erase .cdmaRssi) m).Agrees (fuller.reading m) := by
  obtain ⟨empty, reflexive, -, order, -, whole, -, needed⟩ := difference_is_faithful fuller sparse
  refine ⟨order.trans (by decide), whole .gsm (by decide) _ (by decide), ?_, ?_, ?_, ?_⟩
  · exact Bool.eq_false_iff.2 fun same => absurd (empty.2 same) (by decide)
  · exact fun none => absurd (reflexive.1 none .cdmaEcio (by decide)) (by decide)
  · exact (needed .cdmaEcio (by decide)).2 (by decide)
  · exact fun agrees => absurd ((needed .cdmaRssi (by decide)).1 agrees) (by decide)

end Snapshot

end Modem.Signal
