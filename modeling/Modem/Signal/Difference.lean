import Modem.Signal.Snapshot

/-! # Differences of snapshots -/

namespace Modem.Signal.Snapshot

/-- The measurements whose readings in `s` compare different from those in `previous`, in the order
of publication. -/
def changed (s previous : Snapshot) : List Measurement :=
  Measurement.all.filter fun m => !(s.reading m).same (previous.reading m)

theorem mem_changed {s previous : Snapshot} {m : Measurement} :
    m ∈ s.changed previous ↔ (s.reading m).same (previous.reading m) = false := by
  simp [changed, Measurement.mem_all]

theorem nodup_changed (s previous : Snapshot) : (s.changed previous).Nodup :=
  Measurement.nodup_all.filter _

end Modem.Signal.Snapshot
