/-! # Technologies and their measurements

Five radio technologies report between one and four measurements each. -/

namespace Modem.Signal

/-! ## Technologies -/

inductive Technology where
  | cdma
  | evdo
  | gsm
  | umts
  | lte
  deriving DecidableEq, Repr

namespace Technology

/-- The technologies in the order in which they are published. -/
def all : List Technology := [cdma, evdo, gsm, umts, lte]

theorem mem_all (technology : Technology) : technology ∈ all := by
  cases technology <;> decide

def tag : Technology → String
  | cdma => "cdma"
  | evdo => "evdo"
  | gsm => "gsm"
  | umts => "umts"
  | lte => "lte"

def ofTag? (tag : String) : Option Technology := all.find? fun t => t.tag = tag

/-- The technologies published before this one. -/
def earlier (technology : Technology) : List Technology := all.takeWhile (· ≠ technology)

end Technology

/-! ## Measurements -/

inductive Measurement where
  | cdmaRssi
  | cdmaEcio
  | evdoRssi
  | evdoEcio
  | evdoSinr
  | evdoIo
  | gsmRssi
  | umtsRssi
  | umtsEcio
  | lteRssi
  | lteRsrq
  | lteRsrp
  | lteSnr
  deriving DecidableEq, Repr

/-- The measurements of a technology, in order. -/
def Technology.measurements : Technology → List Measurement
  | .cdma => [.cdmaRssi, .cdmaEcio]
  | .evdo => [.evdoRssi, .evdoEcio, .evdoSinr, .evdoIo]
  | .gsm => [.gsmRssi]
  | .umts => [.umtsRssi, .umtsEcio]
  | .lte => [.lteRssi, .lteRsrq, .lteRsrp, .lteSnr]

namespace Measurement

/-- The measurements in the order in which they are published. -/
def all : List Measurement := Technology.all.flatMap Technology.measurements

theorem mem_all (measurement : Measurement) : measurement ∈ all := by
  cases measurement <;> decide

theorem nodup_all : all.Nodup := by decide

def technology : Measurement → Technology
  | cdmaRssi | cdmaEcio => .cdma
  | evdoRssi | evdoEcio | evdoSinr | evdoIo => .evdo
  | gsmRssi => .gsm
  | umtsRssi | umtsEcio => .umts
  | lteRssi | lteRsrq | lteRsrp | lteSnr => .lte

/-- The name of the measurement within its technology. -/
def field : Measurement → String
  | cdmaRssi | evdoRssi | gsmRssi | umtsRssi | lteRssi => "rssi"
  | cdmaEcio | evdoEcio | umtsEcio => "ecio"
  | evdoSinr => "sinr"
  | evdoIo => "io"
  | lteRsrq => "rsrq"
  | lteRsrp => "rsrp"
  | lteSnr => "snr"

theorem mem_measurements (measurement : Measurement) :
    measurement ∈ measurement.technology.measurements := by
  cases measurement <;> decide

/-- The measurement that a technology reports under a name. -/
def named? (technology : Technology) (name : String) : Option Measurement :=
  technology.measurements.find? fun m => m.field = name

theorem named?_field (measurement : Measurement) :
    named? measurement.technology measurement.field = some measurement := by
  cases measurement <;> decide

end Measurement

end Modem.Signal
