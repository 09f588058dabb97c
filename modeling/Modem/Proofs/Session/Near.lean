import Modem.Proofs.Session.Brisk

/-! # Requests on the interface and in the service

A request that acts on the interface directly is carried out when it is sent, and the device is
never asked. What a service makes of the same request comes to the same, and what it does for the
device has no part in it. -/

namespace Modem.Session

open Signal

/-! ## Worlds -/

/-- The creation of the object, the calls on it except for the values that are published, and the
authorizations. -/
def Event.controlled : Event → Bool
  | .created | .authorize _ => true
  | .call (.publish _) _ => false
  | .call _ _ => true
  | .query _ | .line _ => false

/-- Two worlds are the same, but for the device and the bus, for what the device has been asked, and
for what has been published and written to the log. -/
abbrev World.Near (w v : World) : Prop :=
  World.Agree Surroundings.Kin Event.controlled w { v with queriesBegun := w.queriesBegun }

namespace World

theorem queriesBegun_beginAuthorization (w : World) (who : Requester) :
    (w.beginAuthorization who).1.queriesBegun = w.queriesBegun := by
  rw [beginAuthorization, recordLines_eq]
  rfl

theorem queriesBegun_beginQuery (w : World) : w.beginQuery.1.queriesBegun = w.queriesBegun + 1 := by
  rw [beginQuery, recordLines_eq]
  rfl

/-- What the device has been asked has no part in an authorization. -/
theorem beginAuthorization_asked (w : World) (asked : Nat) (who : Requester) :
    { w with queriesBegun := asked }.beginAuthorization who =
      ({ (w.beginAuthorization who).1 with queriesBegun := asked },
        (w.beginAuthorization who).2) := by
  simp only [beginAuthorization, recordLines_eq]
  rfl

/-- Who hears less of the journal hears some of what who hears more does. -/
theorem said_of_fewer {few more : Event → Bool} (bare : ∀ event : Event, few event.bare = few event)
    (fewer : ∀ event, few event = true → more event = true) (w : World) :
    w.said few = (w.said more).filter fun entry => few entry.event := by
  rw [said, said, heard, heard, List.filter_map, List.filter_filter]
  congr 1
  refine List.filter_congr fun entry _ => ?_
  have same : few entry.bare.event = few entry.event := bare entry.event
  rw [Function.comp, same]
  cases here : few entry.event with
  | true => simp [fewer _ here]
  | false => rfl

namespace Near

variable {w v u : World}

theorem symm (near : w.Near v) : v.Near w :=
  ⟨near.now.symm, near.surroundings.symm, near.authorizationsBegun.symm, rfl, near.said.symm⟩

theorem trans (first : w.Near v) (second : v.Near u) : w.Near u where
  now := second.now.trans first.now
  surroundings :=
    { modem := second.surroundings.modem.trans first.surroundings.modem
      authorizer := second.surroundings.authorizer.trans first.surroundings.authorizer
      instant := first.surroundings.instant
      instantToo := second.surroundings.instantToo }
  authorizationsBegun := second.authorizationsBegun.trans first.authorizationsBegun
  queriesBegun := rfl
  said := second.said.trans first.said

theorem of_kin (kin : w.Kin v) : w.Near v where
  now := kin.now
  surroundings := kin.surroundings
  authorizationsBegun := kin.authorizationsBegun
  queriesBegun := rfl
  said := by
    have bare : ∀ event : Event, event.bare.controlled = event.controlled := by
      intro event
      cases event with
      | call c fault => cases c <;> rfl
      | _ => rfl
    have fewer : ∀ event : Event, event.controlled = true → event.scheduled = true := by
      intro event controlled
      cases event with
      | call c fault =>
        cases c with
        | publish values => cases controlled
        | _ => rfl
      | line line => cases controlled
      | _ => rfl
    have less := said_of_fewer bare fewer
    exact (less v).trans ((congrArg _ kin.said).trans (less w).symm)

/-- The device can be asked on one side only. -/
theorem asked (near : w.Near v) : w.beginQuery.1.Near v := by
  have begun : Agree Surroundings.Kin Event.controlled
      { w with queriesBegun := w.queriesBegun + 1 }
      { v with queriesBegun := w.queriesBegun + 1 } := { near with queriesBegun := rfl }
  have query : Event.controlled (.query (w.queriesBegun + 1)) = false := rfl
  have asked := (begun.left query).recordLines (fun _ => rfl)
    (w.surroundings.device w.queriesBegun).lines []
  rw [World.Near, queriesBegun_beginQuery]
  exact asked

theorem beginAuthorization (near : w.Near v) (who : Requester) :
    (w.beginAuthorization who).1.Near (v.beginAuthorization who).1 ∧
      (v.beginAuthorization who).2 = (w.beginAuthorization who).2 := by
  have begun := Agree.beginAuthorization near (fun _ => rfl) near.surroundings.authorizer who
  rw [beginAuthorization_asked v] at begun
  rw [World.Near, queriesBegun_beginAuthorization]
  exact begun

end Near

end World

/-- Whatever the service does for the device, the worlds stay near. What comes of the exports is
settled. -/
def directed (outcomes : List (Option Fault)) : Concord True where
  worlds := World.Near
  ahead w v := w.exports <:+ outcomes ∧ v.exports <:+ outcomes
  earlier := @World.exports_earlier outcomes
  now near := near.now
  modem near := near.surroundings.modem
  record near _ := World.Agree.record near _ _ rfl rfl
  left near _ := World.Agree.left near rfl
  right near _ := World.Agree.right near rfl
  call near c known :=
    have fault := World.Agree.fault near (fun _ => rfl) known.1 known.2
    ⟨World.Agree.beginCall near c (fun _ _ => by cases c <;> rfl) fault,
      (near.surroundings.instantToo _ c).trans (near.surroundings.instant _ c).symm, fault⟩
  authorize near who := near.beginAuthorization who
  query together := absurd trivial together
  answers := Surroundings.Kin
  surround near same := { near with surroundings := same }
  pass near _ := { near with now := rfl }

/-! ## Services -/

namespace Service

variable {outcomes : List (Option Fault)} {s s' t : Service}

/-- The service without the requests that wait in it, as if requests acted on the interface. -/
def settled (s : Service) : Service := { s with stage := .direct, queue := [], checks := [] }

theorem settled_carryOut (s : Service) (caller : Nat) (operation : Operation) :
    (s.carryOut ⟨.answer caller, operation⟩).settled =
      s.settled.perform (.answer caller) (s.interface.carryOut operation) := by
  unfold carryOut perform
  dsimp only [settled]
  split
  · rfl
  · rfl

/-- What has to do with the device only has no part in it. -/
theorem Beside.unnoticed (beside : s.Beside (undisturbed outcomes) s') (idle : s.work = none)
    (directly : s.settled.Beside (directed outcomes) t) :
    s'.settled.Beside (directed outcomes) t := by
  have rested := beside.idle idle
  have still := directly.idle idle
  obtain ⟨worlds, kin, -, -⟩ := beside
  obtain ⟨near, kinToo, -, -⟩ := directly
  have worldsToo := (World.Near.of_kin worlds).symm.trans near
  exact .mk (R := directed outcomes) worldsToo (kin.symm.trans kinToo) (.inl trivial)
    (by dsimp only [settled] at *; rw [rested, still]; exact .none)

theorem Beside.load (directly : s.settled.Beside (directed outcomes) t) (brisk : s.Brisk)
    {query : Query} (ready : .load query ∈ s.ready) :
    (s.take (.load query)).settled.Beside (directed outcomes) t := by
  rcases (brisk.tends outcomes ready).beside with beside | beside
  · exact beside.unnoticed brisk.idle directly
  · have asking : s.asking.settled.Beside (directed outcomes) t := by
      obtain ⟨near, kin, asked, works⟩ := directly
      exact .mk (s := s.asking.settled) (World.Near.asked near) kin asked works
    exact beside.unnoticed brisk.idle asking

/-! ## Requests -/

/-- A request that acts on the interface is carried out when it is sent. -/
theorem take_send_of_direct (direct : t.stage = .direct) (empty : t.queue = []) (caller : Nat)
    (request : Request) :
    (t.send caller request).take .request =
      t.perform (.answer caller) (t.interface.serve request) := by
  have fresh : Occurrence.request ≠ .resume := nofun
  have sent : t.send caller request = { t with queue := [⟨caller, request⟩] } := by
    simp only [send, direct, empty, List.nil_append]
  have same : { t with queue := [] } = t := by rw [← empty]
  have dispatched : t.dispatch ⟨caller, request⟩ = (t, some ⟨.answer caller, .serve request⟩) :=
    dispatch_other fun serving => by cases direct.symm.trans serving
  have prepared : { t with queue := [⟨caller, request⟩] }.prepare .request =
      (t, some ⟨.answer caller, .serve request⟩) := by
    rw [prepare_request rfl]
    exact (congrArg (fun u : Service => u.dispatch ⟨caller, request⟩) same).trans dispatched
  rw [sent, take_of_prepare fresh prepared]
  rfl

/-- A request that is carried out comes to the same in the service. -/
theorem Beside.served (directly : s.settled.Beside (directed outcomes) t) {caller : Nat}
    {request : Request} {rest : List Queued}
    (known : (directed outcomes).ahead
      ({ s with queue := rest }.carryOut ⟨.answer caller, .serve request⟩).world
      (t.perform (.answer caller) (t.interface.serve request)).world) :
    ({ s with queue := rest }.carryOut ⟨.answer caller, .serve request⟩).settled.Beside
      (directed outcomes) (t.perform (.answer caller) (t.interface.serve request)) := by
  have same := settled_carryOut { s with queue := rest } caller (.serve request)
  rw [same]
  refine directly.perform (.answer caller) ?_ ?_
  · exact Interface.beside_serve directly.interface request
  · exact same ▸ known

/-- Setting a request aside leaves a line in the log. -/
theorem Beside.setAside (directly : s.settled.Beside (directed outcomes) t) (line : Line)
    {queue : List Queued} {checks : List Check} :
    { s with world := s.world.record (.line line), queue, checks }.settled.Beside
      (directed outcomes) t := by
  obtain ⟨near, kin, asked, works⟩ := directly
  exact .mk (s := { s.settled with world := _ }) (World.Agree.left near rfl) kin asked works

theorem perform_authorize {who : Requester} {rest : Option Fault → Exchange (Interface × Answer)}
    (prompt : (t.world.beginAuthorization who).2.delay = 0) (purpose : Purpose) :
    t.perform purpose (.authorize who rest) =
      { t with world := (t.world.beginAuthorization who).1 }.perform purpose
        (rest (t.world.beginAuthorization who).2.refusal) := by
  simp only [perform, proceed, prompt, if_true]

/-- So does a Setup request when its authorization has ended. -/
theorem Beside.checked (directly : s.settled.Beside (directed outcomes) t)
    (prompt : t.world.surroundings.Prompt) {caller : Nat} {rate : UInt32} {who : Requester}
    {checks : List Check}
    (known : (directed outcomes).ahead
      ({ s with world := (s.world.beginAuthorization who).1, checks }.carryOut
        ⟨.answer caller, .conclude rate (s.world.beginAuthorization who).2.refusal⟩).world
      (t.perform (.answer caller) (t.interface.serve (.setup rate who))).world) :
    ({ s with world := (s.world.beginAuthorization who).1, checks }.carryOut
      ⟨.answer caller, .conclude rate (s.world.beginAuthorization who).2.refusal⟩).settled.Beside
        (directed outcomes) (t.perform (.answer caller) (t.interface.serve (.setup rate who))) := by
  obtain ⟨near, verdict⟩ := (directed outcomes).authorize directly.worlds who
  have same := settled_carryOut { s with world := (s.world.beginAuthorization who).1, checks }
    caller (.conclude rate (s.world.beginAuthorization who).2.refusal)
  have goes : t.perform (.answer caller) (t.interface.serve (.setup rate who)) = _ :=
    perform_authorize (prompt.authorizer _ _) (.answer caller)
  have interfaces := directly.interface
  have begun : { s.settled with world := (s.world.beginAuthorization who).1 }.Beside
      (directed outcomes) { t with world := (t.world.beginAuthorization who).1 } := by
    obtain ⟨-, kin, asked, works⟩ := directly
    exact .mk (s := { s.settled with world := _ }) near kin asked works
  rw [same, goes]
  refine begun.perform (.answer caller) ?_ ?_
  · dsimp only [settled] at verdict
    rw [verdict]
    cases (s.world.beginAuthorization who).2.refusal with
    | none => exact Interface.beside_setup interfaces rate
    | some fault => exact .left _ (.done ⟨interfaces, rfl⟩)
  · rw [← goes]
    exact same ▸ known

end Service

end Modem.Session
