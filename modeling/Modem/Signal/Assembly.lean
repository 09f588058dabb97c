import Modem.Signal.Snapshot

/-! # Snapshots from readings

A reader of single readings puts a snapshot together again. A technology counts as available when
its first reading is valid. -/

namespace Modem.Signal.Snapshot

def ofReadings (read : Measurement → Reading) : Snapshot where
  cdma :=
    if (read .cdmaRssi).valid then
      some ⟨(read .cdmaRssi).level, (read .cdmaEcio).level⟩
    else none
  evdo :=
    if (read .evdoRssi).valid then
      some ⟨(read .evdoRssi).level, (read .evdoEcio).level, (read .evdoSinr).level,
        (read .evdoIo).level⟩
    else none
  gsm := if (read .gsmRssi).valid then some ⟨(read .gsmRssi).level⟩ else none
  umts :=
    if (read .umtsRssi).valid then
      some ⟨(read .umtsRssi).level, (read .umtsEcio).level⟩
    else none
  lte :=
    if (read .lteRssi).valid then
      some ⟨(read .lteRssi).level, (read .lteRsrq).level, (read .lteRsrp).level,
        (read .lteSnr).level⟩
    else none

theorem ofReadings_reading (s : Snapshot) : ofReadings s.reading = s := by
  obtain ⟨cdma, evdo, gsm, umts, lte⟩ := s
  cases cdma <;> cases evdo <;> cases gsm <;> cases umts <;> cases lte <;> rfl

end Modem.Signal.Snapshot
