import Modem.Binary64
import Modem.Signal.Technology

/-! # Snapshots

A snapshot is one complete set of measurements. A technology that is not available has none, and
its readings are published as not valid with the level zero. -/

namespace Modem.Signal

/-! ## Measurements by technology -/

structure Cdma where
  rssi : Binary64
  ecio : Binary64
  deriving DecidableEq, Repr

structure Evdo where
  rssi : Binary64
  ecio : Binary64
  sinr : Binary64
  io : Binary64
  deriving DecidableEq, Repr

structure Gsm where
  rssi : Binary64
  deriving DecidableEq, Repr

structure Umts where
  rssi : Binary64
  ecio : Binary64
  deriving DecidableEq, Repr

structure Lte where
  rssi : Binary64
  rsrq : Binary64
  rsrp : Binary64
  snr : Binary64
  deriving DecidableEq, Repr

structure Snapshot where
  cdma : Option Cdma := none
  evdo : Option Evdo := none
  gsm : Option Gsm := none
  umts : Option Umts := none
  lte : Option Lte := none
  deriving DecidableEq, Repr

/-- What is published of one measurement. -/
structure Reading where
  valid : Bool
  level : Binary64
  deriving DecidableEq, Repr

namespace Reading

def absent : Reading := ⟨false, .zero⟩

/-- Whether two readings compare equal. -/
def same (a b : Reading) : Bool := a.valid == b.valid && a.level.same b.level

theorem same_comm (a b : Reading) : a.same b = b.same a := by
  rw [same, same, Binary64.same_comm, Bool.beq_comm]

end Reading

namespace Snapshot

/-- No technology is available. -/
def empty : Snapshot := {}

/-! ## Readings -/

def available (s : Snapshot) : Technology → Bool
  | .cdma => s.cdma.isSome
  | .evdo => s.evdo.isSome
  | .gsm => s.gsm.isSome
  | .umts => s.umts.isSome
  | .lte => s.lte.isSome

def level? (s : Snapshot) : Measurement → Option Binary64
  | .cdmaRssi => s.cdma.map Cdma.rssi
  | .cdmaEcio => s.cdma.map Cdma.ecio
  | .evdoRssi => s.evdo.map Evdo.rssi
  | .evdoEcio => s.evdo.map Evdo.ecio
  | .evdoSinr => s.evdo.map Evdo.sinr
  | .evdoIo => s.evdo.map Evdo.io
  | .gsmRssi => s.gsm.map Gsm.rssi
  | .umtsRssi => s.umts.map Umts.rssi
  | .umtsEcio => s.umts.map Umts.ecio
  | .lteRssi => s.lte.map Lte.rssi
  | .lteRsrq => s.lte.map Lte.rsrq
  | .lteRsrp => s.lte.map Lte.rsrp
  | .lteSnr => s.lte.map Lte.snr

def reading (s : Snapshot) (m : Measurement) : Reading :=
  match s.level? m with
  | some level => ⟨true, level⟩
  | none => .absent

/-- The reading under a name; a name that the technology does not report reads as absent. -/
def readingNamed (s : Snapshot) (technology : Technology) (name : String) : Reading :=
  match Measurement.named? technology name with
  | some m => s.reading m
  | none => .absent

theorem readingNamed_field (s : Snapshot) (m : Measurement) :
    s.readingNamed m.technology m.field = s.reading m := by
  simp [readingNamed, Measurement.named?_field]

theorem isSome_level? (s : Snapshot) (m : Measurement) :
    (s.level? m).isSome = s.available m.technology := by
  cases m <;> simp [level?, available, Measurement.technology]

theorem valid_reading (s : Snapshot) (m : Measurement) :
    (s.reading m).valid = s.available m.technology := by
  rw [← isSome_level?, reading]
  cases s.level? m <;> rfl

theorem reading_empty (m : Measurement) : empty.reading m = .absent := by
  cases m <;> rfl

/-- The measurements of a technology with their levels, zero where it is not available. -/
def record (s : Snapshot) (technology : Technology) : List (Measurement × Binary64) :=
  technology.measurements.map fun m => (m, (s.reading m).level)

end Snapshot

/-! ## Comparison -/

def Cdma.same (a b : Cdma) : Bool := a.rssi.same b.rssi && a.ecio.same b.ecio

def Evdo.same (a b : Evdo) : Bool :=
  a.rssi.same b.rssi && a.ecio.same b.ecio && a.sinr.same b.sinr && a.io.same b.io

def Gsm.same (a b : Gsm) : Bool := a.rssi.same b.rssi

def Umts.same (a b : Umts) : Bool := a.rssi.same b.rssi && a.ecio.same b.ecio

def Lte.same (a b : Lte) : Bool :=
  a.rssi.same b.rssi && a.rsrq.same b.rsrq && a.rsrp.same b.rsrp && a.snr.same b.snr

/-- Both are absent, or both are present and agree. -/
def bothSame {α : Type} (same : α → α → Bool) : Option α → Option α → Bool
  | none, none => true
  | some a, some b => same a b
  | _, _ => false

/-- Whether two snapshots compare equal, technology by technology. -/
def Snapshot.same (a b : Snapshot) : Bool :=
  bothSame Cdma.same a.cdma b.cdma && bothSame Evdo.same a.evdo b.evdo &&
    bothSame Gsm.same a.gsm b.gsm && bothSame Umts.same a.umts b.umts &&
    bothSame Lte.same a.lte b.lte

end Modem.Signal
