import Modem.Proofs.Signal.Effect

/-! # Changes of reporting

There are few things that an operation can make of reporting. What holds while measurements are
reported is proved for each of them. -/

namespace Modem.Signal

/-! ## Reporting after a request -/

namespace Interface

theorem reporting_broughtUp (i : Interface) (fault : Option Fault) :
    (i.broughtUp fault).1.reporting =
      if i.lifecycle = .shutDown then i.reporting
      else
        { i.reporting with
          attached := true
          shown :=
            if i.reporting.supported && !i.exported then .empty else i.reporting.shown } := by
  unfold broughtUp
  by_cases gone : i.lifecycle = .shutDown
  · simp [gone]
  · by_cases supported : i.reporting.supported = true
    · by_cases exported : i.exported = true
      · simp [gone, supported, exported, opened]
      · cases fault <;> simp [gone, supported, exported, opened, exportedWith, Reporting.cleared]
    · simp [gone, supported, opened]

theorem reporting_enabled (i : Interface) (modem : State) (now : Nat) :
    (i.enabled modem now).1.reporting =
      if i.canEnable then i.reporting.scheduled modem now else i.reporting := by
  unfold enabled canEnable
  by_cases supported : i.reporting.supported = true
  · cases i.reporting.attached <;> simp [supported]
  · simp [supported]

theorem reporting_disabled (i : Interface) :
    i.disabled.1.reporting =
      if i.lifecycle = .shutDown then i.reporting else i.reporting.tornDown := by
  unfold disabled
  split <;> rfl

theorem reporting_shut (i : Interface) :
    i.shut.1.reporting =
      if i.lifecycle = .shutDown then i.reporting
      else { i.reporting.tornDown with attached := false } := by
  unfold shut
  split <;> rfl

theorem reporting_setUp (i : Interface) (rate : UInt32) (modem : State) (now : Nat) :
    (i.setUp rate modem now).1.reporting =
      if i.reporting.attached then { i.reporting with rate }.scheduled modem now
      else i.reporting := by
  unfold setUp
  cases attached : i.reporting.attached <;> simp [attached]

end Interface

/-! ## Changes -/

/-- The query that an operation answers. -/
def Operation.answered? : Operation → Option Query
  | .loaded query _ => some query
  | _ => none

namespace Reporting

/-- What an operation can make of reporting, and the query that it answers. -/
inductive Becomes (r : Reporting) : Option Query → Reporting → Prop
  | same : Becomes r none r
  | created (shown : Snapshot) (kept : shown = r.shown ∨ shown = .empty) :
      Becomes r none { r with attached := true, shown }
  | torn (rate : UInt32) (attached : Bool) : Becomes r none { r.tornDown with rate, attached }
  /-- The timer, if there is one, is left as it is. -/
  | rated (rate : UInt32) (on : rate ≠ 0) : Becomes r none { r with rate }
  | started (rate : UInt32) (now : Nat) (on : rate ≠ 0) (attached : r.attached = true)
      (supported : r.supported = true) : Becomes r none ({ r with rate }.started now)
  | ticked (timer : Timer) (now : Nat) (running : r.timer = some timer) :
      Becomes r none (launch { r with timer := some (timer.ticked now) })
  | received (query : Query) (result : Except Fault Snapshot) (pending : query ∈ r.inFlight) :
      Becomes r (some query) (r.received query result)

theorem becomes_scheduled {r : Reporting} (rate : UInt32) (modem : State) (now : Nat)
    (attached : r.attached = true) : r.Becomes none ({ r with rate }.scheduled modem now) := by
  unfold scheduled
  split
  next off => exact .torn rate r.attached
  next on =>
    split
    next wanted =>
      have supported : r.supported = true := by simp_all [wantsTimer]
      exact .started rate now on attached supported
    next => exact .rated rate on

theorem becomes_of_effect {i : Interface} {turns : List Turn} {operation : Operation}
    {result : Interface × Answer} (effect : Effect i turns operation result)
    (expected : ∀ query, operation.answered? = some query → query ∈ i.reporting.inFlight) :
    i.reporting.Becomes operation.answered? result.1.reporting := by
  cases effect with
  | bringUp fault =>
    rw [Interface.reporting_broughtUp]
    split
    · exact .same
    · exact .created _ (by split <;> simp)
  | enable state now _ =>
    rw [Interface.reporting_enabled]
    split
    next can =>
      have attached : i.reporting.attached = true := by simp_all [Interface.canEnable]
      exact becomes_scheduled i.reporting.rate state now attached
    · exact .same
  | disable =>
    rw [Interface.reporting_disabled]
    split
    · exact .same
    · exact .torn i.reporting.rate i.reporting.attached
  | shutDown =>
    rw [Interface.reporting_shut]
    split
    · exact .same
    · exact .torn i.reporting.rate false
  | refuse => exact .same
  | setup rate _ state now _ _ | grant rate state now _ =>
    rw [Interface.reporting_setUp]
    split
    next attached => exact becomes_scheduled rate state now attached
    · exact .same
  | status | reject => exact .same
  | tick now =>
    simp only [Interface.tick, Reporting.tick]
    split
    · exact .same
    next timer running => exact .ticked timer now running
  | loaded query result => exact .received query result (expected query rfl)

/-! ## Queries under way -/

theorem inFlight_launch (r : Reporting) :
    r.launch.inFlight = r.inFlight ∨
      r.launch.inFlight = r.inFlight ++ [⟨r.queriesStarted, r.generation⟩] := by
  unfold launch
  split
  · exact .inr rfl
  · exact .inl rfl

@[simp]
theorem timer_launch (r : Reporting) : r.launch.timer = r.timer := by
  unfold launch
  split <;> rfl

@[simp]
theorem rate_launch (r : Reporting) : r.launch.rate = r.rate := by
  unfold launch
  split <;> rfl

@[simp]
theorem shown_launch (r : Reporting) : r.launch.shown = r.shown := by
  unfold launch
  split <;> rfl

@[simp]
theorem attached_launch (r : Reporting) : r.launch.attached = r.attached := by
  unfold launch
  split <;> rfl

@[simp]
theorem supported_launch (r : Reporting) : r.launch.supported = r.supported := by
  unfold launch
  split <;> rfl

@[simp]
theorem generation_launch (r : Reporting) : r.launch.generation = r.generation := by
  unfold launch
  split <;> rfl

@[simp]
theorem timersStarted_launch (r : Reporting) : r.launch.timersStarted = r.timersStarted := by
  unfold launch
  split <;> rfl

/-- Each query under way was so before, or it is launched in the present generation. -/
theorem mem_inFlight_launch {r : Reporting} {query : Query} (mem : query ∈ r.launch.inFlight) :
    query ∈ r.inFlight ∨ query.generation = r.generation := by
  rcases inFlight_launch r with same | more
  · rw [same] at mem
    exact .inl mem
  · rw [more, List.mem_append, List.mem_singleton] at mem
    rcases mem with old | rfl
    · exact .inl old
    · exact .inr rfl

theorem mem_inFlight_of_mem {r : Reporting} {query : Query} (mem : query ∈ r.inFlight) :
    query ∈ r.launch.inFlight := by
  rcases inFlight_launch r with same | more
  · rwa [same]
  · rw [more]
    exact List.mem_append_left _ mem

@[simp]
theorem inFlight_received (r : Reporting) (query : Query) (result : Except Fault Snapshot) :
    (r.received query result).inFlight = r.inFlight.erase query := by
  unfold received
  dsimp only
  split <;> rfl

@[simp]
theorem timer_received (r : Reporting) (query : Query) (result : Except Fault Snapshot) :
    (r.received query result).timer = r.timer := by
  unfold received
  dsimp only
  split <;> rfl

@[simp]
theorem rate_received (r : Reporting) (query : Query) (result : Except Fault Snapshot) :
    (r.received query result).rate = r.rate := by
  unfold received
  dsimp only
  split <;> rfl

@[simp]
theorem attached_received (r : Reporting) (query : Query) (result : Except Fault Snapshot) :
    (r.received query result).attached = r.attached := by
  unfold received
  dsimp only
  split <;> rfl

@[simp]
theorem supported_received (r : Reporting) (query : Query) (result : Except Fault Snapshot) :
    (r.received query result).supported = r.supported := by
  unfold received
  dsimp only
  split <;> rfl

@[simp]
theorem generation_received (r : Reporting) (query : Query) (result : Except Fault Snapshot) :
    (r.received query result).generation = r.generation := by
  unfold received
  dsimp only
  split <;> rfl

@[simp]
theorem queriesStarted_received (r : Reporting) (query : Query) (result : Except Fault Snapshot) :
    (r.received query result).queriesStarted = r.queriesStarted := by
  unfold received
  dsimp only
  split <;> rfl

@[simp]
theorem timersStarted_received (r : Reporting) (query : Query) (result : Except Fault Snapshot) :
    (r.received query result).timersStarted = r.timersStarted := by
  unfold received
  dsimp only
  split <;> rfl

/-- Only an answer ends a query. -/
theorem Becomes.mem_inFlight {r s : Reporting} {answered : Option Query}
    (becomes : r.Becomes answered s) {query : Query} (mem : query ∈ r.inFlight)
    (other : answered ≠ some query) : query ∈ s.inFlight := by
  cases becomes with
  | same => exact mem
  | created => exact mem
  | torn => exact mem
  | rated => exact mem
  | started => exact mem_inFlight_of_mem mem
  | ticked => exact mem_inFlight_of_mem mem
  | received answered result =>
    have different : query ≠ answered := fun same => other (congrArg some same.symm)
    rw [inFlight_received]
    exact (List.mem_erase_of_ne different).2 mem

/-- A query that is launched belongs to the present generation, which does not end with it. -/
theorem Becomes.generation_of_launched {r s : Reporting} {answered : Option Query}
    (becomes : r.Becomes answered s) {query : Query} (mem : query ∈ s.inFlight)
    (new : query ∉ r.inFlight) : query.generation = s.generation := by
  cases becomes with
  | same => exact absurd mem new
  | created => exact absurd mem new
  | torn => exact absurd mem new
  | rated => exact absurd mem new
  | started rate now =>
    rcases mem_inFlight_launch mem with old | here
    · exact absurd old new
    · simpa [Reporting.started] using here
  | ticked timer now =>
    rcases mem_inFlight_launch mem with old | here
    · exact absurd old new
    · simpa using here
  | received answered result =>
    rw [inFlight_received] at mem
    exact absurd (List.mem_of_mem_erase mem) new

/-! ## What holds between operations -/

structure Sound (r : Reporting) : Prop where
  cleared : r.timer = none → r.shown = .empty
  /-- A query is never ahead, and without a timer every query is behind. -/
  launched : ∀ query ∈ r.inFlight, query.generation ≤ r.generation
  disowned : r.timer = none → ∀ query ∈ r.inFlight, query.generation < r.generation
  off : r.rate = 0 → r.timer = none
  attached : r.timer ≠ none → r.attached = true
  supported : r.timer ≠ none → r.supported = true

theorem sound_initial (supported : Bool) (rate : UInt32) : Sound { supported, rate } where
  cleared _ := rfl
  launched := by simp
  disowned := by simp
  off _ := rfl
  attached running := absurd rfl running
  supported running := absurd rfl running

theorem Sound.becomes {r s : Reporting} {answered : Option Query} (sound : r.Sound)
    (becomes : r.Becomes answered s) : s.Sound := by
  cases becomes with
  | same => exact sound
  | created shown kept =>
    have cleared : r.timer = none → shown = .empty := by
      intro none
      rcases kept with rfl | rfl
      · exact sound.cleared none
      · rfl
    exact { sound with cleared, attached := fun _ => rfl }
  | torn rate attached =>
    -- What was launched before the teardown is behind the generation that begins with it.
    have behind : ∀ query ∈ r.inFlight, query.generation < r.generation + 1 := by
      intro query mem
      exact Nat.lt_succ_of_le (sound.launched query mem)
    exact
      { cleared := fun _ => rfl
        launched := fun query mem => Nat.le_of_lt (behind query mem)
        disowned := fun _ => behind
        off := fun _ => rfl
        attached := fun running => absurd rfl running
        supported := fun running => absurd rfl running }
  | rated rate on => exact { sound with off := fun off => absurd off on }
  | started rate now on attached supported =>
    constructor
    · simp [Reporting.started]
    · intro query mem
      rcases mem_inFlight_launch mem with old | new
      · simpa [Reporting.started] using sound.launched query old
      · simp [Reporting.started, new]
    · simp [Reporting.started]
    · intro off
      exact absurd (by simpa [Reporting.started] using off) on
    · intro running
      simpa [Reporting.started] using attached
    · intro running
      simpa [Reporting.started] using supported
  | ticked timer now running =>
    have on : r.rate ≠ 0 := by
      intro off
      simp [sound.off off] at running
    have attached : r.attached = true := sound.attached (by simp [running])
    have supported : r.supported = true := sound.supported (by simp [running])
    constructor
    · simp
    · intro query mem
      rcases mem_inFlight_launch mem with old | new
      · simpa using sound.launched query old
      · simp [new]
    · simp
    · intro off
      exact absurd (by simpa using off) on
    · intro still
      simpa using attached
    · intro still
      simpa using supported
  | received query result pending =>
    constructor
    · intro none
      rw [timer_received] at none
      have behind := sound.disowned none query pending
      simp [Reporting.received, Nat.ne_of_lt behind, sound.cleared none]
    · intro other mem
      rw [inFlight_received] at mem
      simpa using sound.launched other (List.mem_of_mem_erase mem)
    · intro none other mem
      rw [timer_received] at none
      rw [inFlight_received] at mem
      simpa using sound.disowned none other (List.mem_of_mem_erase mem)
    · simpa using sound.off
    · simpa using sound.attached
    · simpa using sound.supported

/-- Only while a timer runs is a query of the present generation. -/
theorem Sound.attached_of_current {r : Reporting} (sound : r.Sound) {query : Query}
    (pending : query ∈ r.inFlight) (current : query.generation = r.generation) :
    r.attached = true := by
  apply sound.attached
  intro still
  exact Nat.ne_of_lt (sound.disowned still query pending) current

/-- Timers are counted, and none starts without being counted. -/
theorem Becomes.timersStarted {r s : Reporting} {answered : Option Query}
    (becomes : r.Becomes answered s) :
    r.timersStarted ≤ s.timersStarted ∧
      (s.timersStarted = r.timersStarted → r.timer = none → s.timer = none) := by
  cases becomes with
  | same => exact ⟨Nat.le_refl _, fun _ none => none⟩
  | created => exact ⟨Nat.le_refl _, fun _ none => none⟩
  | torn => exact ⟨Nat.le_refl _, fun _ _ => rfl⟩
  | rated => exact ⟨Nat.le_refl _, fun _ none => none⟩
  | started => exact ⟨by simp [Reporting.started], by simp [Reporting.started]⟩
  | ticked _ _ running => exact ⟨by simp, fun _ none => by simp [none] at running⟩
  | received => exact ⟨by simp, fun _ none => by simpa using none⟩

end Reporting

end Modem.Signal
