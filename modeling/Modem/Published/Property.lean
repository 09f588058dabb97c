import Modem.Bus.Value
import Modem.Signal.Snapshot

/-! # Properties of the published object

The object has one property for the rate and one for each measurement. A reading is published as a
structure of its validity and its level. -/

namespace Modem.Published

open Bus (Value)
open Signal (Measurement Reading)

inductive Property where
  | rate
  | reading (m : Measurement)
  deriving DecidableEq, Repr

namespace Property

def all : List Property := rate :: Measurement.all.map reading

theorem mem_all (p : Property) : p ∈ all := by
  cases p with
  | rate => simp [all]
  | reading m => simp [all, Measurement.mem_all]

def name : Property → String
  | rate => "Rate"
  | reading .cdmaRssi => "CdmaRssi"
  | reading .cdmaEcio => "CdmaEcio"
  | reading .evdoRssi => "EvdoRssi"
  | reading .evdoEcio => "EvdoEcio"
  | reading .evdoSinr => "EvdoSinr"
  | reading .evdoIo => "EvdoIo"
  | reading .gsmRssi => "GsmRssi"
  | reading .umtsRssi => "UmtsRssi"
  | reading .umtsEcio => "UmtsEcio"
  | reading .lteRssi => "LteRssi"
  | reading .lteRsrq => "LteRsrq"
  | reading .lteRsrp => "LteRsrp"
  | reading .lteSnr => "LteSnr"

def named? (name : String) : Option Property := all.find? fun p => p.name = name

theorem named?_name (p : Property) : named? p.name = some p := by
  cases p with
  | rate => decide
  | reading m => cases m <;> decide

end Property

/-! ## Values -/

def ofRate (rate : UInt32) : Value := .basic (.uint32 rate)

def ofReading (r : Reading) : Value :=
  .struct [.basic (.boolean r.valid), .basic (.double r.level)]

/-- Why a value is not that of a property. -/
inductive Mismatch where
  | wrongType
  /-- A structure ends before the part that is taken next. -/
  | missingPart
  deriving DecidableEq, Repr

def toRate : Value → Except Mismatch UInt32
  | .basic (.uint32 rate) => .ok rate
  | _ => .error .wrongType

/-- A reading from the first two parts of a structure, which are taken one after the other. -/
def toReading : Value → Except Mismatch Reading
  | .struct [] => .error .missingPart
  | .struct [.basic (.boolean _)] => .error .missingPart
  | .struct (.basic (.boolean valid) :: .basic (.double level) :: _) => .ok ⟨valid, level⟩
  | _ => .error .wrongType

theorem toRate_ofRate (rate : UInt32) : toRate (ofRate rate) = .ok rate := rfl

theorem toReading_ofReading (r : Reading) : toReading (ofReading r) = .ok r := rfl

end Modem.Published
