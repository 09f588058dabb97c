import Modem.Proofs.Published.Served
import Modem.Proofs.Signal.Agreement
import Modem.Published.StandIn

/-! # What a client reads

A client reads the measurements one by one and puts a snapshot together. From the served object, it
gets the snapshot that was published last. Another modem may say of each measurement what it likes;
then the snapshot says the same exactly if the readings are uniform. -/

namespace Modem.Published

open Signal

/-! ## Reading -/

namespace Client

variable {σ : Type} {peer : Peer σ} {s : σ} {path : String}

theorem reading_of_get (valid : Bus.ObjectPath.valid path = true) {m : Measurement} {r : Reading}
    (got : peer.get s path Bus.Name.signalInterface (Property.reading m).name =
      .ok (ofReading r)) :
    reading peer s path m = .ok r := by
  rw [reading, read, checkPath, if_pos valid, got]
  rfl

/-- A client that gets a reading for each measurement puts these readings together. -/
theorem values_of_get (valid : Bus.ObjectPath.valid path = true) {read : Measurement → Reading}
    (got : ∀ m, peer.get s path Bus.Name.signalInterface (Property.reading m).name =
      .ok (ofReading (read m))) :
    values peer s path = .ok (.ofReadings read) := by
  have each : (fun m => do return (m, ← reading peer s path m)) =
      fun m => (pure (m, read m) : Except ClientFault (Measurement × Reading)) :=
    funext fun m => by rw [reading_of_get valid (got m)]; rfl
  have found (m : Measurement) :
      ((Measurement.all.map fun m => (m, read m)).lookup m).getD .absent = read m := by
    cases m <;> rfl
  rw [values, each, List.mapM_pure, pure_bind]
  exact congrArg (fun f => Except.ok (Snapshot.ofReadings f)) (funext found)

end Client

/-! ## The served snapshot -/

/-- What is shown stays until another snapshot is published. -/
theorem Served.shown_of_quiet (s : Served) {calls : List Call}
    (quiet : ∀ values, Call.publish values ∉ calls) : (s.applyAll calls).1.shown = s.shown := by
  have silent : calls.reverse.findSome? Call.shown? = none := by
    rw [List.findSome?_eq_none_iff]
    intro c mem
    cases c with
    | publish values => exact absurd (List.mem_reverse.1 mem) (quiet values)
    | _ => rfl
  have shown := s.shown_applyAll calls.reverse
  rwa [List.reverse_reverse, silent] at shown

namespace Station

variable {s : Station}

theorem get_of_exported (exported : s.served.exported = true) (p : Property) :
    s.get s.path Bus.Name.signalInterface p.name = .ok (s.served.get p) := by
  simp [get, refusal?, node, exported, Property.named?_name]

/-- A client of a station reads the snapshot that the object shows. -/
theorem values_of_exported (exported : s.served.exported = true)
    (valid : Bus.ObjectPath.valid s.path = true) (sender : Option Requester) :
    Client.values (peer sender) s s.path = .ok s.served.shown := by
  have got (m : Measurement) :
      (peer sender).get s s.path Bus.Name.signalInterface (Property.reading m).name =
        .ok (ofReading (s.served.shown.reading m)) :=
    get_of_exported exported (.reading m)
  rw [Client.values_of_get valid got, Snapshot.ofReadings_reading]

end Station

/-- A client of the exported object reads exactly the snapshot that was published last, whatever was
published before. From a modem that assigns arbitrary readings to the measurements, it puts together
a snapshot that says the same if and only if the readings are uniform. -/
theorem client_reads_published :
    (∀ (station : Station) (sender : Option Requester) (before after : List Call)
      (values : Snapshot), (∀ other, Call.publish other ∉ after) →
      let now := (station.absorb (before ++ .publish values :: after)).1
      now.served.exported = true → Bus.ObjectPath.valid now.path = true →
      Client.values (Station.peer sender) now now.path = .ok values) ∧
    ∀ (σ : Type) (peer : Peer σ) (s : σ) (path : String) (read : Measurement → Reading),
      Bus.ObjectPath.valid path = true →
      (∀ m, peer.get s path Bus.Name.signalInterface (Property.reading m).name =
        .ok (ofReading (read m))) →
      ∃ values, Client.values peer s path = .ok values ∧
        ((∀ m, (values.reading m).Agrees (read m)) ↔ Uniform read) := by
  constructor
  · intro station sender before after values quiet now exported valid
    have shown : now.served.shown = values := by
      change (station.served.applyAll (before ++ .publish values :: after)).1.shown = values
      rw [Served.applyAll_append]
      exact Served.shown_of_quiet _ quiet
    rw [Station.values_of_exported exported valid, shown]
  · intro σ peer s path read valid got
    exact ⟨_, Client.values_of_get valid got, Snapshot.agrees_ofReadings_iff read⟩

/-- A NaN with a payload and a negative zero. -/
def peculiar : Snapshot where
  gsm := some ⟨⟨0x7FF80000000000AB⟩⟩
  umts := some ⟨⟨0x8000000000000000⟩, ⟨0xC024000000000000⟩⟩

/-- A station that has published another snapshot before the peculiar one. -/
def peculiarStation : Station :=
  let service := (Session.Account.fresh {} true .serving (Session.obliging .enabled {})).service
  let earlier : Snapshot := { lte := some ⟨.zero, .zero, .zero, .zero⟩ }
  let station : Station := { path := "/modem", session := { service } }
  (station.absorb [.publish earlier, .exportObject]).1

/-- The peculiar snapshot, but each technology that is not available has negative zeros. -/
def whole (m : Measurement) : Reading :=
  if peculiar.available m.technology then peculiar.reading m else ⟨false, ⟨0x8000000000000000⟩⟩

/-- All readings are valid but the one that tells whether a technology is available. -/
def torn : Measurement → Reading
  | .cdmaRssi => ⟨false, .zero⟩
  | _ => ⟨true, .zero⟩

def standIn (read : Measurement → Reading) : StandIn where
  path := "/modem"
  properties := Measurement.all.map fun m => ((Property.reading m).name, ofReading (read m))
  refusal := none

/-- The peculiar snapshot is read although another one has been published before it. Of two
stand-ins, the readings of one survive, and those of the other one do not. -/
theorem client_of_peculiar :
    let now := (peculiarStation.absorb [.publish .empty, .publish peculiar, .setRate 5]).1
    Client.values (Station.peer none) now "/modem" = .ok peculiar ∧
      (∃ values, Client.values StandIn.peer (standIn whole) "/modem" = .ok values ∧
        ∀ m, (values.reading m).Agrees (whole m)) ∧
      ∃ values, Client.values StandIn.peer (standIn torn) "/modem" = .ok values ∧
        ¬∀ m, (values.reading m).Agrees (torn m) := by
  intro now
  have path : Bus.ObjectPath.valid "/modem" = true := by decide +kernel
  refine ⟨?_, ?_, ?_⟩
  · exact client_reads_published.1 peculiarStation none [.publish .empty] [.setRate 5] peculiar
      (by simp) (by decide +kernel) path
  · have got (m : Measurement) :
        StandIn.peer.get (standIn whole) "/modem" Bus.Name.signalInterface
          (Property.reading m).name = .ok (ofReading (whole m)) := by
      cases m <;> rfl
    obtain ⟨values, read, agrees⟩ :=
      client_reads_published.2 _ StandIn.peer (standIn whole) _ whole path got
    exact ⟨values, read, agrees.2 fun technology => by cases technology <;> decide⟩
  · have got (m : Measurement) :
        StandIn.peer.get (standIn torn) "/modem" Bus.Name.signalInterface
          (Property.reading m).name = .ok (ofReading (torn m)) := by
      cases m <;> rfl
    obtain ⟨values, read, agrees⟩ :=
      client_reads_published.2 _ StandIn.peer (standIn torn) _ torn path got
    exact ⟨values, read, fun all => absurd (agrees.1 all .cdma) (by decide)⟩

end Modem.Published
