import Modem.Proofs.Published.Client

/-! # Subscribers

A subscriber reads all properties once and replaces a value whenever a change signal carries another
one. What he holds agrees with what is served after each update: a property that is not announced
has a reading that compares equal to the one before. -/

namespace Modem.Published

open Bus (Value)
open Signal

/-! ## Values that agree -/

/-- The values are equal, or readings that agree. -/
def Alike (v w : Value) : Prop := v = w ∨ ∃ r s, v = ofReading r ∧ w = ofReading s ∧ r.Agrees s

theorem ofReading_inj {r s : Reading} (same : ofReading r = ofReading s) : r = s := by
  have read := congrArg toReading same
  rw [toReading_ofReading, toReading_ofReading] at read
  exact Except.ok.inj read

theorem Alike.reading {v : Value} {r s : Reading} (alike : Alike v (ofReading r))
    (agrees : r.Agrees s) : Alike v (ofReading s) := by
  rcases alike with rfl | ⟨first, second, rfl, same, before⟩
  · exact .inr ⟨r, s, rfl, rfl, agrees⟩
  · obtain rfl := ofReading_inj same
    exact .inr ⟨first, s, rfl, rfl, before.trans agrees⟩

/-! ## Hearing -/

/-- What a subscriber who holds some values has after some changes. -/
def hear (held : Property → Value) : List Change → Property → Value
  | [] => held
  | c :: rest => hear (fun p => if p = c.property then c.value else held p) rest

theorem hear_append (held : Property → Value) (first second : List Change) :
    hear held (first ++ second) = hear (hear held first) second := by
  induction first generalizing held with
  | nil => rfl
  | cons c rest ih => exact ih _

/-- The calls neither export the object nor take it off. -/
def Updates (calls : List Call) : Prop := ∀ c ∈ calls, c.exports? = none

instance (calls : List Call) : Decidable (Updates calls) :=
  inferInstanceAs (Decidable (∀ c ∈ calls, _))

namespace Served

variable {s : Served} {held : Property → Value}

/-- Of each property that is announced, a subscriber holds what the object shows. -/
theorem hear_announce (exported : s.exported = true) (held : Property → Value)
    (properties : List Property) (p : Property) :
    hear held (s.announce properties) p = if p ∈ properties then s.get p else held p := by
  rw [announce, if_pos exported]
  induction properties generalizing held with
  | nil => rfl
  | cons q rest ih =>
    rw [List.map_cons, hear, ih]
    by_cases here : p = q <;> by_cases later : p ∈ rest <;> simp [here, later]

/-- What the subscriber holds agrees with what the object shows. -/
def InStep (s : Served) (held : Property → Value) : Prop := ∀ p, Alike (held p) (s.get p)

/-- Announcing what does not agree any more is enough. -/
theorem inStep_hear (exported : s.exported = true) {properties : List Property}
    (silent : ∀ p, p ∉ properties → Alike (held p) (s.get p)) :
    s.InStep (hear held (s.announce properties)) := by
  intro p
  rw [hear_announce exported]
  split
  next => exact .inl rfl
  next other => exact silent p other

theorem exported_apply {c : Call} (update : c.exports? = none) :
    (s.apply c).1.exported = s.exported := by
  cases c with
  | setRate rate => rfl
  | publish values => rfl
  | exportObject => cases update
  | unexportObject => cases update

theorem exported_of_updates {calls : List Call} (updates : Updates calls) :
    (s.applyAll calls).1.exported = s.exported := by
  induction calls generalizing s with
  | nil => rfl
  | cons c rest ih =>
    obtain ⟨update, updates⟩ := List.forall_mem_cons.1 updates
    exact (ih updates).trans (exported_apply update)

theorem InStep.apply (inStep : s.InStep held) (exported : s.exported = true) {c : Call}
    (update : c.exports? = none) : (s.apply c).1.InStep (hear held (s.apply c).2) := by
  cases c with
  | setRate rate =>
    let next : Served := { s with rate }
    have exported : next.exported = true := exported
    refine inStep_hear exported fun p other => ?_
    cases p with
    | rate => exact absurd (List.mem_singleton.2 rfl) other
    | reading m => exact inStep (.reading m)
  | publish values =>
    let next : Served := { s with shown := values }
    have exported : next.exported = true := exported
    refine inStep_hear exported fun p other => ?_
    cases p with
    | rate => exact inStep .rate
    | reading m =>
      have same : (values.reading m).same (s.shown.reading m) = true := by
        simpa [Snapshot.mem_changed] using other
      rw [Reading.same_comm] at same
      exact (inStep (.reading m)).reading (Reading.agrees_of_same same)
  | exportObject => cases update
  | unexportObject => cases update

theorem InStep.applyAll (inStep : s.InStep held) (exported : s.exported = true)
    {calls : List Call} (updates : Updates calls) :
    (s.applyAll calls).1.InStep (hear held (s.applyAll calls).2) := by
  induction calls generalizing s held with
  | nil => exact inStep
  | cons c rest ih =>
    obtain ⟨update, updates⟩ := List.forall_mem_cons.1 updates
    have next := ih (inStep.apply exported update) ((exported_apply update).trans exported) updates
    rwa [← hear_append] at next

/-- While nobody can see the object, nothing is announced. -/
theorem silent_of_updates (hidden : s.exported = false) {calls : List Call}
    (updates : Updates calls) : (s.applyAll calls).2 = [] := by
  induction calls generalizing s with
  | nil => rfl
  | cons c rest ih =>
    obtain ⟨update, updates⟩ := List.forall_mem_cons.1 updates
    have later := ih ((exported_apply update).trans hidden) updates
    have now : (s.apply c).2 = [] := by
      cases c <;> simp [Served.apply, announce, hidden]
    change (s.apply c).2 ++ ((s.apply c).1.applyAll rest).2 = []
    rw [now, later, List.append_nil]

end Served

/-- The signals that a call has to lead to while the object is exported: one for the rate that is
set, and one for each reading that compares different from the previous one. -/
inductive Announces (previous : Snapshot) : Call → List Change → Prop
  | setRate (rate : UInt32) : Announces previous (.setRate rate) [⟨.rate, ofRate rate⟩]
  | publish {values : Snapshot} {changes : List Change}
      (order : (changes.map Change.property).Sublist (Measurement.all.map .reading))
      (announced : ∀ m, .reading m ∈ changes.map Change.property ↔
        (values.reading m).same (previous.reading m) = false)
      (carried : ∀ m v, ⟨.reading m, v⟩ ∈ changes → v = ofReading (values.reading m)) :
      Announces previous (.publish values) changes

namespace Served

variable {s : Served}

theorem announces_apply (exported : s.exported = true) {c : Call} (update : c.exports? = none) :
    Announces s.shown c (s.apply c).2 := by
  cases c with
  | setRate rate =>
    rw [Served.apply, announce, if_pos exported]
    exact .setRate rate
  | publish values =>
    have changes : (s.apply (.publish values)).2 =
        (values.changed s.shown).map fun m => ⟨.reading m, ofReading (values.reading m)⟩ := by
      rw [Served.apply, announce, if_pos exported, List.map_map]
      rfl
    rw [changes]
    constructor
    · rw [List.map_map]
      exact List.filter_sublist.map _
    · intro m
      simp [Snapshot.mem_changed]
    · intro m v mem
      obtain ⟨n, -, same⟩ := List.mem_map.1 mem
      injection same with property value
      injection property with measurement
      rw [← value, measurement]
  | exportObject => cases update
  | unexportObject => cases update

/-- The rate after some calls. -/
def latestRate (s : Served) (calls : List Call) : UInt32 :=
  (calls.reverse.findSome? Call.rate?).getD s.rate

/-- The snapshot after some calls. -/
def latest (s : Served) (calls : List Call) : Snapshot :=
  (calls.reverse.findSome? Call.shown?).getD s.shown

theorem shown_eq_latest (s : Served) (calls : List Call) :
    (s.applyAll calls).1.shown = s.latest calls := by
  rw [latest, ← shown_applyAll, List.reverse_reverse]

theorem rate_eq_latestRate (s : Served) (calls : List Call) :
    (s.applyAll calls).1.rate = s.latestRate calls := by
  rw [latestRate, ← rate_applyAll, List.reverse_reverse]

end Served

/-! ## Stations -/

namespace Station

variable {s : Station}

/-- Only of an exported object, a property can be read. -/
theorem exported_of_get {path property : String} {v : Value}
    (got : s.get path Bus.Name.signalInterface property = .ok v) : s.served.exported = true := by
  cases found : s.node path with
  | missing =>
    rw [get, refusal?, found] at got
    cases got
  | bare =>
    rw [get, refusal?, found] at got
    cases got
  | object =>
    rw [node] at found
    split at found
    next here => exact (Bool.and_eq_true_iff.1 here).2
    next => split at found <;> cases found

end Station

/-- Whoever has read all properties of the exported object and follows the change signals holds,
after each later update, values that agree with those that are served. Each rate and each reading
that compares different is announced once, and nothing else. Before the object is exported, nothing
is announced, and afterwards the latest values are served. -/
theorem change_signals_keep_in_step (station : Station) :
    (∀ held : Property → Value,
      (∀ p, station.get station.path Bus.Name.signalInterface p.name = .ok (held p)) →
      ∀ calls, Updates calls →
        let (now, changes) := station.absorb calls
        ∀ p, ∃ v, now.get now.path Bus.Name.signalInterface p.name = .ok v ∧
          Alike (hear held changes p) v) ∧
    (station.served.exported = true → ∀ calls c, Updates (calls ++ [c]) →
      ∃ changes, (station.absorb (calls ++ [c])).2 = (station.absorb calls).2 ++ changes ∧
        Announces (station.served.latest calls) c changes) ∧
    (station.served.exported = false → ∀ calls, Updates calls →
      let (now, changes) := station.absorb (calls ++ [.exportObject])
      (station.absorb calls).2 = [] ∧ changes = [] ∧
        now.get now.path Bus.Name.signalInterface Property.rate.name =
          .ok (ofRate (station.served.latestRate calls)) ∧
        ∀ m, now.get now.path Bus.Name.signalInterface (Property.reading m).name =
          .ok (ofReading ((station.served.latest calls).reading m))) := by
  refine ⟨?_, ?_, ?_⟩
  · intro held read calls updates p
    have exported := Station.exported_of_get (read .rate)
    have inStep : station.served.InStep held := fun p =>
      .inl (Except.ok.inj ((read p).symm.trans (Station.get_of_exported exported p)))
    have now := (Served.exported_of_updates updates).trans exported
    exact ⟨_, Station.get_of_exported now p, inStep.applyAll exported updates p⟩
  · intro exported calls c updates
    obtain ⟨updates, update⟩ := List.forall_mem_append.1 updates
    have still := (Served.exported_of_updates updates).trans exported
    have announces := Served.announces_apply still (update c (List.mem_singleton_self c))
    rw [Served.shown_eq_latest] at announces
    refine ⟨_, ?_, announces⟩
    change (station.served.applyAll (calls ++ [c])).2 = _
    rw [Served.applyAll_append]
    exact congrArg _ (List.append_nil _)
  · intro hidden calls updates
    have silent := Served.silent_of_updates hidden updates
    have applied : station.served.applyAll (calls ++ [.exportObject]) =
        ({ (station.served.applyAll calls).1 with exported := true }, []) := by
      rw [Served.applyAll_append, silent]
      rfl
    let now := (station.absorb (calls ++ [.exportObject])).1
    have exported : now.served.exported = true := congrArg (·.1.exported) applied
    have rate : now.served.rate = station.served.latestRate calls :=
      (congrArg (·.1.rate) applied).trans (Served.rate_eq_latestRate _ _)
    have shown : now.served.shown = station.served.latest calls :=
      (congrArg (·.1.shown) applied).trans (Served.shown_eq_latest _ _)
    refine ⟨silent, congrArg Prod.snd applied, ?_, fun m => ?_⟩
    · rw [← rate]
      exact Station.get_of_exported exported .rate
    · rw [← shown]
      exact Station.get_of_exported exported (.reading m)

/-- The peculiar snapshot with a positive zero instead of the negative one. -/
def unsigned : Snapshot := { peculiar with umts := some ⟨.zero, ⟨0xC024000000000000⟩⟩ }

/-- A subscriber hears of the NaN again but not of the other zero. Taken off, the object changes in
silence, and the changes are there when it is exported again. -/
theorem subscriber_of_peculiar :
    let calls := [.publish peculiar, .setRate 5, .publish unsigned]
    let (now, changes) := peculiarStation.absorb calls
    let (again, silence) :=
      (peculiarStation.absorb [.unexportObject]).1.absorb (calls ++ [.exportObject])
    (∀ p, ∃ v, now.get "/modem" Bus.Name.signalInterface p.name = .ok v ∧
      Alike (hear peculiarStation.served.get changes p) v) ∧
    hear peculiarStation.served.get changes (.reading .umtsRssi) =
      ofReading ⟨true, ⟨0x8000000000000000⟩⟩ ∧
    (∃ more, changes = (peculiarStation.absorb [.publish peculiar, .setRate 5]).2 ++ more ∧
      Announces peculiar (.publish unsigned) more) ∧
    silence = [] ∧ again.get "/modem" Bus.Name.signalInterface "Rate" = .ok (ofRate 5) := by
  intro calls
  have exported : peculiarStation.served.exported = true := by decide +kernel
  have held (p : Property) : peculiarStation.get "/modem" Bus.Name.signalInterface p.name =
      .ok (peculiarStation.served.get p) :=
    Station.get_of_exported exported p
  obtain ⟨follows, announced, -⟩ := change_signals_keep_in_step peculiarStation
  obtain ⟨-, -, served⟩ :=
    change_signals_keep_in_step (peculiarStation.absorb [.unexportObject]).1
  obtain ⟨-, silence, rate, -⟩ := served (by decide +kernel) calls (by decide +kernel)
  refine ⟨follows _ held calls (by decide +kernel), by decide +kernel, ?_, silence, rate⟩
  exact announced exported [.publish peculiar, .setRate 5] (.publish unsigned) (by decide +kernel)

end Modem.Published
