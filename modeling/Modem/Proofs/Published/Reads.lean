import Modem.Proofs.Published.Client

/-! # Reads among publications

A client reads the measurements in turn, and the object may show another snapshot at each read. So a
client gets each technology as available as it was when its first measurement was read, and each of
its levels as of the read of that level. A technology is one that was shown if nothing is published
between its own reads, and the whole snapshot is if nothing is published between any of them. -/

namespace Modem.Published

open Signal

/-! ## What happens during a call -/

/-- What happens at the object while a client reads the measurements. -/
inductive Happening where
  | publish (values : Snapshot)
  | read (m : Measurement)
  deriving DecidableEq, Repr

namespace Happening

def read? : Happening → Option Measurement
  | .publish _ => none
  | .read m => some m

/-- The client reads each measurement once, in its order, whatever is published in between. -/
def InTurn (happenings : List Happening) : Prop := happenings.filterMap read? = Measurement.all

instance (happenings : List Happening) : Decidable (InTurn happenings) :=
  inferInstanceAs (Decidable (_ = _))

def Quiet (happenings : List Happening) : Prop := ∀ values, Happening.publish values ∉ happenings

variable {happenings before later : List Happening} {m : Measurement}

theorem mem_filterMap_read?_iff : m ∈ happenings.filterMap read? ↔ .read m ∈ happenings := by
  rw [List.mem_filterMap]
  constructor
  · rintro ⟨happening, member, found⟩
    cases happening with
    | publish values => cases found
    | read n => exact Option.some.inj found ▸ member
  · exact fun member => ⟨.read m, member, rfl⟩

/-- A measurement that is still to be read has not been read before. -/
theorem InTurn.not_mem (inTurn : InTurn (before ++ later)) (mem : .read m ∈ later) :
    .read m ∉ before := by
  have once : (before.filterMap read? ++ later.filterMap read?).Nodup := by
    rw [← List.filterMap_append, inTurn]
    exact Measurement.nodup_all
  intro member
  exact (List.nodup_append.1 once).2.2 m (mem_filterMap_read?_iff.2 member) m
    (mem_filterMap_read?_iff.2 mem) rfl

end Happening

/-! ## Instants of reads -/

namespace Station

variable {s : Station} {m : Measurement} {before happenings : List Happening}

/-- The station after what has happened. -/
def amid (s : Station) : List Happening → Station
  | [] => s
  | .publish values :: rest => (s.absorb [.publish values]).1.amid rest
  | .read _ :: rest => s.amid rest

/-- The station at the instant at which the measurement is read. -/
def atRead (s : Station) (m : Measurement) : List Happening → Station
  | [] => s
  | .publish values :: rest => (s.absorb [.publish values]).1.atRead m rest
  | .read n :: rest => if n = m then s else s.atRead m rest

/-- The station and what happens at it, as the peer of a client: each reading is the one of its own
instant. -/
def amidPeer (sender : Option Requester) : Peer (Station × List Happening) where
  get s path interface property :=
    match Property.named? property with
    | some (.reading m) => (s.1.atRead m s.2).get path interface property
    | _ => (s.1.amid s.2).get path interface property
  setup s path rate :=
    let (station, result, _) := (s.1.amid s.2).setup path rate sender
    ((station, []), result.mapError .refused)

/-- Whatever is published, the object stays where it is, and exported if it is. -/
theorem kept_atRead (s : Station) (m : Measurement) (happenings : List Happening) :
    (s.atRead m happenings).path = s.path ∧
      (s.atRead m happenings).served.exported = s.served.exported := by
  induction happenings generalizing s with
  | nil => exact ⟨rfl, rfl⟩
  | cons happening rest ih =>
    cases happening with
    | publish values => exact ih _
    | read n =>
      rw [atRead]
      split
      · exact ⟨rfl, rfl⟩
      · exact ih s

/-- What is shown has been shown from the beginning or has been published. -/
theorem shown_amid (s : Station) (happenings : List Happening) :
    (s.amid happenings).served.shown = s.served.shown ∨
      .publish (s.amid happenings).served.shown ∈ happenings := by
  induction happenings generalizing s with
  | nil => exact .inl rfl
  | cons happening rest ih =>
    cases happening with
    | publish values =>
      rw [amid, List.mem_cons]
      refine .inr ((ih _).imp (fun first => ?_) id)
      rw [first]
      rfl
    | read n => exact (ih s).imp_right (List.mem_cons_of_mem _)

theorem atRead_append (unread : .read m ∉ before) :
    s.atRead m (before ++ happenings) = (s.amid before).atRead m happenings := by
  induction before generalizing s with
  | nil => rfl
  | cons happening rest ih =>
    rw [List.mem_cons, not_or] at unread
    cases happening with
    | publish values => exact ih unread.2
    | read n =>
      rw [List.cons_append, atRead, if_neg fun same => unread.1 (congrArg _ same.symm)]
      exact ih unread.2

theorem atRead_of_quiet (quiet : Happening.Quiet before) (mem : .read m ∈ before) :
    s.atRead m (before ++ happenings) = s := by
  induction before with
  | nil => cases mem
  | cons happening rest ih =>
    cases happening with
    | publish values => exact absurd List.mem_cons_self (quiet values)
    | read n =>
      rw [List.cons_append, atRead]
      split
      · rfl
      next other =>
        refine ih (fun values member => quiet values (List.mem_cons_of_mem _ member)) ?_
        exact (List.mem_cons.1 mem).resolve_left fun same => other (Happening.read.inj same).symm

/-- A client puts together what is shown at each read. -/
theorem values_amid (exported : s.served.exported = true)
    (valid : Bus.ObjectPath.valid s.path = true) (sender : Option Requester)
    (happenings : List Happening) :
    Client.values (amidPeer sender) (s, happenings) s.path =
      .ok (.ofReadings fun m => (s.atRead m happenings).served.shown.reading m) := by
  refine Client.values_of_get valid fun m => ?_
  obtain ⟨path, kept⟩ := s.kept_atRead m happenings
  have got := get_of_exported (kept.trans exported) (.reading m)
  rw [path] at got
  rw [amidPeer]
  dsimp only
  rw [Property.named?_name]
  exact got

end Station

/-! ## What a client gets -/

/-- Of readings that have been put together, the leading one of a technology tells whether it is
available. -/
theorem available_ofReadings (read : Measurement → Reading) (technology : Technology) :
    (Snapshot.ofReadings read).available technology = (read technology.leading).valid := by
  rw [← Technology.mem_measurements_iff.1 technology.leading_mem, ← Snapshot.valid_reading,
    Snapshot.reading_ofReadings, Technology.mem_measurements_iff.1 technology.leading_mem]
  cases (read technology.leading).valid <;> rfl

/-- A client of an exported object gets each technology as available as it was at the first read of
it, and each level of an available technology as of the read of that level. While nothing is
published, the technologies that are read are those that are shown, and so is the snapshot if all of
it is read. -/
theorem values_are_of_their_reads {station : Station} {happenings : List Happening}
    (exported : station.served.exported = true) (path : Bus.ObjectPath.valid station.path = true)
    (inTurn : Happening.InTurn happenings) (sender : Option Requester) :
    ∃ values,
      Client.values (Station.amidPeer sender) (station, happenings) station.path = .ok values ∧
      (∀ technology, values.available technology =
        (station.atRead technology.leading happenings).served.shown.available technology) ∧
      (∀ m, values.available m.technology = true →
        (values.reading m).level =
          ((station.atRead m happenings).served.shown.reading m).level) ∧
      ∀ before during after, happenings = before ++ during ++ after → Happening.Quiet during →
        (∀ technology : Technology, (∀ m ∈ technology.measurements, .read m ∈ during) →
          ∀ m ∈ technology.measurements,
            values.reading m = (station.amid before).served.shown.reading m) ∧
        ((∀ m, .read m ∈ during) → values = (station.amid before).served.shown) := by
  refine ⟨_, Station.values_amid exported path sender happenings, ?_, ?_, ?_⟩
  · intro technology
    rw [available_ofReadings, Snapshot.valid_reading,
      Technology.mem_measurements_iff.1 technology.leading_mem]
  · intro m available
    rw [available_ofReadings] at available
    rw [Snapshot.reading_ofReadings, if_pos available]
  · rintro before during after rfl quiet
    have then? (m : Measurement) (mem : .read m ∈ during) :
        station.atRead m (before ++ during ++ after) = station.amid before := by
      rw [List.append_assoc] at inTurn ⊢
      rw [Station.atRead_append (inTurn.not_mem (List.mem_append_left after mem)),
        Station.atRead_of_quiet quiet mem]
    constructor
    · rintro technology all m mem
      have whole := congrArg (Snapshot.reading · m)
        (Snapshot.ofReadings_reading (station.amid before).served.shown)
      obtain rfl := Technology.mem_measurements_iff.1 mem
      rw [← whole, Snapshot.reading_ofReadings, Snapshot.reading_ofReadings,
        then? m (all m mem), then? _ (all _ m.technology.leading_mem)]
    · intro all
      have same : (fun m => (station.atRead m (before ++ during ++ after)).served.shown.reading m) =
          (station.amid before).served.shown.reading :=
        funext fun m => by rw [then? m (all m)]
      rw [same, Snapshot.ofReadings_reading]

/-- A snapshot with one technology, and one with another. -/
def onGsm : Snapshot := { gsm := some ⟨⟨0xC051C00000000000⟩⟩ }

def onLte : Snapshot :=
  { lte := some ⟨⟨0xC051C00000000000⟩, ⟨0xC024000000000000⟩, ⟨0xC054000000000000⟩, .zero⟩ }

/-- A station that shows a modem on GSM. -/
def onGsmStation : Station :=
  let service := (Session.Account.fresh {} true .serving (Session.obliging .enabled {})).service
  let station : Station := { path := "/modem", session := { service } }
  (station.absorb [.publish onGsm, .exportObject]).1

/-- The modem goes over to LTE after its reading on GSM has been read. -/
def handover : List Happening :=
  [.cdmaRssi, .cdmaEcio, .evdoRssi, .evdoEcio, .evdoSinr, .evdoIo, .gsmRssi].map .read ++
    .publish onLte :: [.umtsRssi, .umtsEcio, .lteRssi, .lteRsrq, .lteRsrp, .lteSnr].map .read

/-- The reading on GSM is the one shown at the beginning, as nothing is published before it has been
read. -/
theorem gsm_of_handover :
    Happening.InTurn handover ∧ ∃ values,
      Client.values (Station.amidPeer none) (onGsmStation, handover) "/modem" = .ok values ∧
        values.reading .gsmRssi = ⟨true, ⟨0xC051C00000000000⟩⟩ := by
  have exported : onGsmStation.served.exported = true := by decide +kernel
  have path : Bus.ObjectPath.valid onGsmStation.path = true := by decide +kernel
  have inTurn : Happening.InTurn handover := by decide
  obtain ⟨values, read, -, -, parts⟩ := values_are_of_their_reads exported path inTurn none
  have quiet : Happening.Quiet (handover.take 7) := by
    intro values published
    simp [handover] at published
  have readThen : ∀ m ∈ Technology.gsm.measurements, .read m ∈ handover.take 7 := by decide
  exact ⟨inTurn, values, read,
    (parts [] _ (handover.drop 7) rfl quiet).1 .gsm readThen .gsmRssi (by decide)⟩

/-- What the client gets during the handover is shown at no instant of the call. -/
theorem torn_by_handover :
    Happening.InTurn handover ∧
      Client.values (Station.amidPeer none) (onGsmStation, handover) "/modem" =
        .ok { onLte with gsm := onGsm.gsm } ∧
      ∀ before after, handover = before ++ after →
        (onGsmStation.amid before).served.shown ≠ { onLte with gsm := onGsm.gsm } := by
  have exported : onGsmStation.served.exported = true := by decide +kernel
  have path : Bus.ObjectPath.valid onGsmStation.path = true := by decide +kernel
  refine ⟨by decide, ?_, ?_⟩
  · refine (Station.values_amid exported path none handover).trans (congrArg Except.ok ?_)
    rfl
  · rintro before after split torn
    rcases onGsmStation.shown_amid before with first | published
    · rw [torn] at first
      exact absurd first (by decide)
    · rw [torn] at published
      have mem : Happening.publish { onLte with gsm := onGsm.gsm } ∈ handover :=
        split ▸ List.mem_append_left after published
      exact absurd mem (by decide)

end Modem.Published
