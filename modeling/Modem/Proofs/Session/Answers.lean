import Modem.Proofs.Session.Findings

/-! # Answers to queries

Any number of queries can be under way, and they are answered in any order. An answer counts if
nothing has been torn down since its query was launched. What is shown is therefore fixed by the
history of what has been done, without a look at any counter. -/

namespace Modem.Session

open Signal

/-! ## Launches and teardowns -/

namespace Deed

/-- The deed stops the timer and disowns the queries under way. -/
def tearsDown (d : Deed) : Bool := d.found.tornDownBy d.turns d.operation

/-- The query is under way from this deed on. -/
def launches (d : Deed) (query : Query) : Bool :=
  d.left?.any fun left =>
    query ∈ left.reporting.inFlight && !(query ∈ d.found.reporting.inFlight : Bool)

theorem launches_iff {d : Deed} {left : Interface} {answer : Answer}
    (ended : d.rest = .done (left, answer)) (query : Query) :
    d.launches query = true ↔
      query ∈ left.reporting.inFlight ∧ query ∉ d.found.reporting.inFlight := by
  simp [launches, left?_of_ended ended]

theorem generation {d : Deed} {left : Interface} {answer : Answer}
    (ended : d.rest = .done (left, answer)) :
    left.reporting.generation =
      if d.tearsDown then d.found.reporting.generation + 1 else d.found.reporting.generation :=
  (effect ended).1.generation

end Deed

namespace History

variable {start last : Interface} {deeds : List Deed} {query : Query}

theorem generation (history : History start deeds last) :
    last.reporting.generation =
      start.reporting.generation + deeds.countP Deed.tearsDown := by
  induction history with
  | nil => rfl
  | @cons earlier d i answer before expected ended ih =>
    rw [Deed.generation ended, ih, List.countP_cons]
    cases d.tearsDown <;> simp [Nat.add_assoc]

/-- A query that is under way has been launched. -/
theorem launched (history : History start deeds last) (pending : query ∈ last.reporting.inFlight)
    (new : query ∉ start.reporting.inFlight) :
    ∃ between launch before,
      deeds = between ++ launch :: before ∧ launch.launches query = true := by
  induction history with
  | nil => exact absurd pending new
  | @cons earlier d i answer before expected ended ih =>
    by_cases old : query ∈ d.found.reporting.inFlight
    · obtain ⟨between, launch, rest, rfl, launches⟩ := ih old
      exact ⟨d :: between, launch, rest, rfl, launches⟩
    · exact ⟨[], d, earlier, rfl, (Deed.launches_iff ended query).2 ⟨pending, old⟩⟩

/-- A query is of the present generation if and only if nothing has been torn down since its
launch. -/
theorem current_iff {between before : List Deed} {launch : Deed}
    (history : History start (between ++ launch :: before) last)
    (launches : launch.launches query = true) :
    query.generation = last.reporting.generation ↔ ∀ e ∈ between, e.tearsDown = false := by
  obtain ⟨left, answer, -, expected, ended, onward⟩ := history.at_deed
  obtain ⟨mem, new⟩ := (Deed.launches_iff ended query).1 launches
  have launched : query.generation = left.reporting.generation :=
    (Deed.becomes ended expected).generation_of_launched mem new
  have count := onward.generation
  have none_iff : between.countP Deed.tearsDown = 0 ↔ ∀ e ∈ between, e.tearsDown = false := by
    simp [List.countP_eq_zero]
  rw [← none_iff]
  omega

end History

/-! ## What is shown -/

/-- Nothing has been torn down since the query was launched. -/
def stands (query : Query) : List Deed → Bool
  | [] => false
  | d :: earlier => d.launches query || !d.tearsDown && stands query earlier

theorem stands_iff (query : Query) (deeds : List Deed) :
    stands query deeds = true ↔
      ∃ between launch before, deeds = between ++ launch :: before ∧
        launch.launches query = true ∧ ∀ e ∈ between, e.tearsDown = false := by
  induction deeds with
  | nil => simp [stands]
  | cons d earlier ih =>
    rw [stands, Bool.or_eq_true, Bool.and_eq_true, Bool.not_eq_true', ih]
    constructor
    · rintro (launches | ⟨kept, between, launch, before, rfl, launches, untouched⟩)
      · exact ⟨[], d, earlier, rfl, launches, by simp⟩
      · exact ⟨d :: between, launch, before, rfl, launches, by simpa using ⟨kept, untouched⟩⟩
    · rintro ⟨between, launch, before, split, launches, untouched⟩
      cases between with
      | nil =>
        obtain ⟨rfl, -⟩ := List.cons.inj split
        exact .inl launches
      | cons e between =>
        obtain ⟨rfl, rfl⟩ := List.cons.inj split
        rw [List.forall_mem_cons] at untouched
        exact .inr ⟨untouched.1, between, launch, before, rfl, launches, untouched.2⟩

theorem History.stands_iff_current {start last : Interface} {deeds : List Deed} {query : Query}
    (history : History start deeds last) (pending : query ∈ last.reporting.inFlight)
    (new : query ∉ start.reporting.inFlight) :
    stands query deeds = true ↔ query.generation = last.reporting.generation := by
  rw [stands_iff]
  constructor
  · rintro ⟨between, launch, before, rfl, launches, untouched⟩
    exact (history.current_iff launches).2 untouched
  · intro current
    obtain ⟨between, launch, before, rfl, launches⟩ := history.launched pending new
    exact ⟨between, launch, before, rfl, launches, (history.current_iff launches).1 current⟩

/-- What a deed writes over the snapshot, after the deeds before it. -/
def Deed.written? (d : Deed) (earlier : List Deed) : Option Snapshot :=
  d.found.writtenBy d.turns (fun query => stands query earlier) d.operation

/-- The latest write. -/
def lastWritten? : List Deed → Option Snapshot
  | [] => none
  | d :: earlier => (d.written? earlier).or (lastWritten? earlier)

variable {config : Config} {supported : Bool}

theorem Deed.written?_eq {d : Deed} {earlier : List Deed}
    (before : History (.fresh config supported) earlier d.found) (expected : d.Expected) :
    d.written? earlier =
      d.found.writtenBy d.turns
        (fun query => query.generation = d.found.reporting.generation) d.operation := by
  unfold Deed.written? Interface.writtenBy
  split
  next query result loaded =>
    have pending := expected.pending loaded
    have current := before.stands_iff_current pending (by simp [Interface.fresh])
    simp only [current, decide_eq_true_eq]
  · rfl
  · rfl

theorem History.shown {deeds : List Deed} {last : Interface}
    (history : History (.fresh config supported) deeds last) :
    last.status.shown = (lastWritten? deeds).getD .empty := by
  induction history with
  | nil => rfl
  | @cons earlier d i answer before expected ended ih =>
    have shown := (Deed.effect ended).1.shown before.sound expected
    rw [← Deed.written?_eq before expected] at shown
    change i.reporting.shown = ((d.written? earlier).or (lastWritten? earlier)).getD .empty
    rw [shown]
    cases d.written? earlier with
    | some values => rfl
    | none => exact ih

/-- An answer to a query of the present generation is shown and published; any other answer leaves
nothing behind. -/
theorem Deed.status_of_loaded {d : Deed} {query : Query} {result : Except Fault Snapshot}
    {left : Interface} {answer : Answer} (loaded : d.operation = .loaded query result)
    (ended : d.rest = .done (left, answer)) (sound : d.found.reporting.Sound)
    (expected : d.Expected) :
    (query.generation = d.found.reporting.generation →
      left.status = { d.found.status with shown := Reporting.snapshotOf result } ∧
        Signal.calls d.turns = [.publish (Reporting.snapshotOf result)]) ∧
      (query.generation ≠ d.found.reporting.generation →
        left.status = d.found.status ∧ Signal.calls d.turns = []) := by
  have pending := expected.pending loaded
  obtain ⟨effect, called⟩ := Deed.effect ended
  rw [loaded] at effect called
  cases effect with
  | loaded query result =>
    constructor
    · intro current
      have attached := sound.attached_of_current pending current
      constructor
      · simp [Interface.status, Reporting.received, current, attached]
      · simpa [Interface.callsOf, current, Reporting.showing, attached] using called
    · intro stale
      constructor
      · simp [Interface.status, Reporting.received, stale]
      · simpa [Interface.callsOf, stale] using called

/-- An answer is applied exactly when nothing has been torn down since its query was launched,
whatever else has happened. So what is shown is the latest write at every moment. What is answered
is what the device has found for the query, which is on its way or has been handled, once. -/
theorem answers_apply_until_teardown {stage : Stage} {a : Account} {deeds : List Deed}
    {i : Interface} (reachable : Account.Reachable config supported stage a)
    (moment : a.Moment deeds i) :
    (∀ later d earlier query result, deeds = later ++ d :: earlier →
      d.operation = .loaded query result →
      ∃ left, d.left? = some left ∧
        (∃ between launch before, earlier = between ++ launch :: before ∧
          launch.launches query = true) ∧
        ∀ between launch before, earlier = between ++ launch :: before →
          launch.launches query = true →
          ((∀ e ∈ between, e.tearsDown = false) →
            left.status = { d.found.status with shown := Reporting.snapshotOf result } ∧
              Signal.calls d.turns = [.publish (Reporting.snapshotOf result)]) ∧
          ((∃ e ∈ between, e.tearsDown = true) →
            left.status = d.found.status ∧ Signal.calls d.turns = [])) ∧
      i.status.shown = (lastWritten? deeds).getD .empty ∧
      a.service.world.calls = (a.deeds.flatMap fun d => (Signal.calls d.turns).reverse) ∧
      Nonempty (Account.Past config supported stage a) ∧
      ∀ past : Account.Past config supported stage a,
        (past.findings.map Finding.query).Nodup ∧
        past.findings.Perm
          (a.service.loads.map Load.finding ++ a.deeds.filterMap Deed.finding?) ∧
        ∀ d ∈ deeds, ∀ query result, d.operation = .loaded query result →
          ⟨query, result⟩ ∈ past.findings := by
  have history := reachable.history_of_moment moment
  refine ⟨?_, history.shown, reachable.tracks.calls, reachable.nonempty_past, fun past => ?_⟩
  · intro later d earlier query result split loaded
    subst split
    obtain ⟨left, answer, before, expected, ended, -⟩ := history.at_deed
    have pending := expected.pending loaded
    have status := Deed.status_of_loaded loaded ended before.sound expected
    refine ⟨left, Deed.left?_of_ended ended,
      before.launched pending (by simp [Interface.fresh]), ?_⟩
    rintro between launch first rfl launches
    have current := before.current_iff launches
    constructor
    · intro kept
      exact status.1 (current.2 kept)
    · rintro ⟨e, mem, torn⟩
      apply status.2
      intro same
      rw [current.1 same e mem] at torn
      cases torn
  · have gathered := past.gathered
    refine ⟨gathered.once, gathered.places, fun d mem query result loaded => ?_⟩
    obtain ⟨e, begun, -, -, operation, -, -⟩ := moment.begun d mem
    exact gathered.mem_of_loaded begun (operation.symm.trans loaded)

/-- A change of the rate lets an answer through, and a teardown does not. Both answers are what the
device has found. -/
theorem answers_after_rate_change_and_disable :
    let values : Snapshot := { gsm := some ⟨.zero⟩ }
    let a := (Account.fresh { initialRate := 5 } true .serving
      (obliging .registered values)).afterAll
        [.send 0 .bringUp, .take .request, .send 1 .enable, .take .request,
          .send 2 (.setup 10 ⟨":1.5"⟩), .take .request, .take (.check 2), .take (.load ⟨0, 0⟩)]
    let b := a.afterAll [.send 3 .disable, .take .request, .take (.load ⟨1, 0⟩)]
    a.service.interface.status.shown = values ∧ b.service.interface.status.shown = .empty ∧
      ∀ d ∈ b.deeds, ∀ query result, d.operation = .loaded query result → result = .ok values := by
  intro values a b
  let before : Account.Past { initialRate := 5 } true .serving a :=
    (Account.Past.start rfl (obliging .registered values)).afterAll _ (by decide +kernel)
  let past : Account.Past { initialRate := 5 } true .serving b :=
    before.afterAll _ (by decide +kernel)
  have idle : a.service.work = none := Option.isNone_iff_eq_none.1 (by decide +kernel)
  have still : b.service.work = none := Option.isNone_iff_eq_none.1 (by decide +kernel)
  have first := answers_apply_until_teardown before.reachable (.idle idle)
  have second := answers_apply_until_teardown past.reachable (.idle still)
  have found : past.findings = [⟨⟨1, 0⟩, .ok values⟩, ⟨⟨0, 0⟩, .ok values⟩] := by
    decide +kernel
  refine ⟨first.2.1.trans (by decide +kernel), second.2.1.trans (by decide +kernel), ?_⟩
  intro d mem query result loaded
  have heard := (second.2.2.2.2 past).2.2 d mem query result loaded
  simp only [found, List.mem_cons, Finding.mk.injEq, List.not_mem_nil, or_false] at heard
  exact heard.elim And.right And.right

end Modem.Session
