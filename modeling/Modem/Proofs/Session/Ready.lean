import Modem.Proofs.Session.Apart

/-! # What is ready without a caller

Whatever is ready for somebody else is ready without the caller as well. Where nothing is ready,
nothing becomes so when the caller is left out, as long as requests can still be sent. -/

namespace Modem.Session.Service

open Signal

/-! ## Without a caller -/

section

variable {audible : Event → Bool} {caller : Nat} {trace : List Event} {s t : Service}

theorem readyRequest_eq_nil_iff : s.readyRequest = [] ↔ s.queue = [] := by
  simp [readyRequest]

theorem Apart.readyChecks (apart : Apart audible caller trace s t) {asking : Nat}
    (other : asking ≠ caller) (ready : .check asking ∈ s.readyChecks) :
    .check asking ∈ t.readyChecks := by
  obtain @⟨world, worlds⟩ := apart
  rw [mem_readyChecks_iff] at ready ⊢
  obtain ⟨c, rfl, here | first⟩ := ready
  · refine ⟨c, rfl, .inl ?_⟩
    rw [mem_arrived_iff] at here ⊢
    obtain ⟨mem, arrived, arrives, due⟩ := here
    refine ⟨?_, arrived, arrives, ?_⟩
    · simp [without, mem, other]
    · exact Nat.le_trans due (Nat.le_of_eq worlds.now.symm)
  · refine ⟨c, rfl, .inr ?_⟩
    obtain ⟨rest, unbegun⟩ := List.head?_eq_some_iff.1 first
    have kept : ((s.without caller world).checks.filter fun c => c.arrival.isNone) =
        c :: rest.filter fun c => c.caller ≠ caller := by
      have swapped : ((s.without caller world).checks.filter fun c => c.arrival.isNone) =
          (s.checks.filter fun c => c.arrival.isNone).filter fun c => c.caller ≠ caller := by
        simp only [without, List.filter_filter, Bool.and_comm]
      rw [swapped, unbegun, List.filter_cons_of_pos (by simpa using other)]
    rw [kept, List.head?_cons]

theorem Apart.readyRequest (apart : Apart audible caller trace s t)
    (other : s.concerns caller .request = false) (ready : .request ∈ s.readyRequest) :
    .request ∈ t.readyRequest := by
  obtain ⟨worlds⟩ := apart
  rw [mem_readyRequest_iff] at ready ⊢
  refine ⟨rfl, ?_⟩
  cases queue : s.queue with
  | nil => exact absurd queue ready.2
  | cons queued rest =>
    have different : queued.caller ≠ caller := by simpa [concerns, queue] using other
    simp [without, queue, different]

theorem Apart.readyClose (apart : Apart audible caller trace s t) (ready : .close ∈ s.readyClose) :
    .close ∈ t.readyClose := by
  obtain ⟨worlds⟩ := apart
  rw [mem_readyClose_iff] at ready ⊢
  obtain ⟨-, shut, drained, alone⟩ := ready
  refine ⟨rfl, shut, ?_, fun c mem => alone c (List.mem_filter.1 mem).1⟩
  simp [without, drained]

theorem Apart.now (apart : Apart audible caller trace s t) : t.now = s.now := by
  obtain ⟨worlds⟩ := apart
  exact worlds.now

theorem Apart.readyTick (apart : Apart audible caller trace s t) : t.readyTick = s.readyTick := by
  have now := apart.now
  obtain ⟨worlds⟩ := apart
  unfold Service.readyTick
  rw [now]
  rfl

theorem Apart.readyLoads (apart : Apart audible caller trace s t) :
    t.readyLoads = s.readyLoads := by
  have now := apart.now
  obtain ⟨worlds⟩ := apart
  unfold Service.readyLoads
  rw [now]
  rfl

theorem Apart.work (apart : Apart audible caller trace s t) : t.work = s.work := by
  obtain ⟨worlds⟩ := apart
  rfl

theorem Apart.stage (apart : Apart audible caller trace s t) : t.stage = s.stage := by
  obtain ⟨worlds⟩ := apart
  rfl

/-- What is ready for somebody else, or for nobody, is ready without the caller. -/
theorem Apart.ready (apart : Apart audible caller trace s t) {occurrence : Occurrence}
    (other : s.concerns caller occurrence = false) (ready : occurrence ∈ s.ready) :
    occurrence ∈ t.ready := by
  unfold Service.ready at ready ⊢
  rw [apart.work, apart.stage, apart.now, apart.readyTick, apart.readyLoads]
  split at ready
  · exact ready
  · split at ready
    · obtain ⟨rfl, -⟩ := mem_readyRequest_iff.1 ready
      exact apart.readyRequest other ready
    · simp only [List.mem_append] at ready ⊢
      obtain (((request | check) | tick) | load) | close := ready
      · obtain ⟨rfl, -⟩ := mem_readyRequest_iff.1 request
        exact .inl (.inl (.inl (.inl (apart.readyRequest other request))))
      · obtain ⟨asking, -, rfl⟩ := List.mem_map.1 check
        have different : asking.caller ≠ caller := by simpa [concerns] using other
        exact .inl (.inl (.inl (.inr (apart.readyChecks different check))))
      · exact .inl (.inl (.inr tick))
      · exact .inl (.inr load)
      · obtain ⟨rfl, -⟩ := mem_readyClose_iff.1 close
        exact .inr (apart.readyClose close)
    · exact ready

/-! ## Promptness -/

/-- Somebody can still send a request, or the caller waits for nothing. -/
def Kept (s : Service) (caller : Nat) : Prop :=
  s.isOpen = true ∨ (s.share caller).queue = [] ∧ (s.share caller).checks = []

instance (s : Service) (caller : Nat) : Decidable (s.Kept caller) :=
  inferInstanceAs
    (Decidable (s.isOpen = true ∨ (s.share caller).queue = [] ∧ (s.share caller).checks = []))

/-- No authorization begins or ends now if each of them has begun and ends later. -/
theorem readyChecks_eq_nil_iff {s : Service} :
    s.readyChecks = [] ↔
      ∀ c ∈ s.checks, ∃ arrived, c.arrival = some arrived ∧ s.now < arrived.time := by
  have unbegun : (s.checks.filter fun c => c.arrival.isNone).take 1 = [] ↔
      ∀ c ∈ s.checks, c.arrival ≠ none := by
    simp [List.take_eq_nil_iff, List.filter_eq_nil_iff]
  have pending : arrived Check.arrival s.now s.checks = [] ↔
      ∀ c ∈ s.checks, ∀ arrived, c.arrival = some arrived → s.now < arrived.time := by
    simp [List.eq_nil_iff_forall_not_mem, mem_arrived_iff]
  rw [readyChecks, List.map_eq_nil_iff, List.append_eq_nil_iff, unbegun, pending]
  constructor
  · rintro ⟨later, begun⟩ c mem
    obtain ⟨arrived, arrives⟩ := Option.ne_none_iff_exists'.1 (begun c mem)
    exact ⟨arrived, arrives, later c mem arrived arrives⟩
  · intro later
    refine ⟨fun c mem arrived arrives => ?_, fun c mem none => ?_⟩
    · obtain ⟨same, there, due⟩ := later c mem
      obtain rfl := Option.some.inj (there.symm.trans arrives)
      exact due
    · obtain ⟨arrived, arrives, -⟩ := later c mem
      rw [none] at arrives
      cases arrives

/-- No tick is due if the timer is due later. -/
theorem readyTick_eq_nil_iff {s : Service} :
    s.readyTick = [] ↔ ∀ timer, s.interface.reporting.timer = some timer → s.now < timer.due := by
  unfold Service.readyTick
  cases s.interface.reporting.timer with
  | none => simp
  | some timer => simp [Timer.isDue]

/-- Whatever the service waits for comes no earlier than it wakes. -/
theorem le_of_early {s : Service} {time : Nat} (idle : s.work = none) (serving : s.stage = .serving)
    (early : ∀ wake ∈ s.wake?, time ≤ wake) :
    (∀ c ∈ s.checks, ∀ arrival, c.arrival = some arrival → time ≤ arrival.time) ∧
      (∀ timer, s.interface.reporting.timer = some timer → time ≤ timer.due) ∧
      ∀ l ∈ s.loads, time ≤ l.arrival.time := by
  have awake : ∀ n ∈ s.checks.filterMap (fun c => c.arrival.map Arrival.time) ++
      s.interface.reporting.timer.toList.map (fun t => t.due) ++
      s.loads.map (fun l => l.arrival.time), time ≤ n := by
    intro n mem
    obtain ⟨wake, minimum⟩ :=
      Option.isSome_iff_exists.1 (List.isSome_min?_of_ne_nil (List.ne_nil_of_mem mem))
    have wakes : s.wake? = some wake := by simp only [wake?, idle, serving, minimum]
    exact Nat.le_trans (early wake wakes) ((List.le_min?_iff minimum).1 (Nat.le_refl _) n mem)
  simp only [List.mem_append, List.mem_filterMap, List.mem_map, Option.mem_toList] at awake
  refine ⟨fun c mem arrival arrives => ?_, fun timer running => ?_, fun l mem => ?_⟩
  · exact awake _ (.inl (.inl ⟨c, mem, by rw [arrives]; rfl⟩))
  · exact awake _ (.inl (.inr ⟨timer, running, rfl⟩))
  · exact awake _ (.inr ⟨l, mem, rfl⟩)

/-- No answer arrives and no query reaches the device if each has done so and each arrives later. -/
theorem readyLoads_eq_nil_iff {s : Service} :
    s.readyLoads = [] ↔ s.unbegun = [] ∧ ∀ l ∈ s.loads, s.now < l.arrival.time := by
  have pending : arrived (fun l : Load => some l.arrival) s.now s.loads = [] ↔
      ∀ l ∈ s.loads, s.now < l.arrival.time := by
    simp [List.eq_nil_iff_forall_not_mem, mem_arrived_iff]
  rw [readyLoads, List.map_eq_nil_iff, List.append_eq_nil_iff, List.map_eq_nil_iff,
    List.take_eq_nil_iff, pending, and_comm]
  simp

theorem filter_ne_of_filter_eq_nil {α : Type} {asking : α → Nat} {things : List α}
    (nothing : things.filter (fun a => asking a = caller) = []) :
    things.filter (fun a => asking a ≠ caller) = things := by
  rw [List.filter_eq_nil_iff] at nothing
  rw [List.filter_eq_self]
  intro a mem
  simpa using nothing a mem

theorem Apart.unready (apart : Apart audible caller trace s t) (kept : s.Kept caller)
    (quiet : s.ready = []) : t.ready = [] := by
  have request : s.readyRequest = [] → t.readyRequest = [] := by
    obtain ⟨worlds⟩ := apart
    rw [readyRequest_eq_nil_iff, readyRequest_eq_nil_iff]
    intro queue
    simp [without, queue]
  have checks : s.readyChecks = [] → t.readyChecks = [] := by
    have now := apart.now
    obtain ⟨worlds⟩ := apart
    rw [readyChecks_eq_nil_iff, readyChecks_eq_nil_iff, now]
    intro later c mem
    exact later c (List.mem_filter.1 mem).1
  have close : s.readyClose = [] → t.readyClose = [] := by
    obtain @⟨world, worlds⟩ := apart
    rcases kept with opened | ⟨queue, checks⟩
    · simp [Service.readyClose, isOpen_without, opened]
    · have sameQueue : (s.without caller world).queue = s.queue :=
        filter_ne_of_filter_eq_nil queue
      have sameChecks : (s.without caller world).checks = s.checks :=
        filter_ne_of_filter_eq_nil checks
      simp only [Service.readyClose, sameQueue, sameChecks, isOpen_without, leavers_without,
        imp_self]
  unfold Service.ready at quiet ⊢
  rw [apart.work, apart.stage, apart.now, apart.readyTick, apart.readyLoads]
  split at quiet
  · exact quiet
  · split at quiet
    · exact request quiet
    · simp only [List.append_eq_nil_iff] at quiet ⊢
      obtain ⟨⟨⟨⟨noRequest, noCheck⟩, noTick⟩, noLoad⟩, noClose⟩ := quiet
      exact ⟨⟨⟨⟨request noRequest, checks noCheck⟩, noTick⟩, noLoad⟩, close noClose⟩
    · rfl

theorem le_of_min?_eq_some {fewer more : List Nat} (subset : ∀ n ∈ fewer, n ∈ more)
    {time least : Nat} (early : ∀ n, more.min? = some n → time ≤ n)
    (found : fewer.min? = some least) : time ≤ least := by
  have mem : least ∈ more := subset least (List.min?_mem found)
  obtain ⟨first, minimum⟩ :=
    Option.isSome_iff_exists.1 (List.isSome_min?_of_ne_nil (List.ne_nil_of_mem mem))
  exact (List.le_min?_iff minimum).1 (early first minimum) least mem

/-- Without the caller, nothing happens earlier. -/
theorem Apart.wakes (apart : Apart audible caller trace s t) {time : Nat}
    (early : ∀ wake, s.wake? = some wake → time ≤ wake) :
    ∀ wake, t.wake? = some wake → time ≤ wake := by
  obtain @⟨world, worlds⟩ := apart
  unfold wake? at early ⊢
  rw [work_without, stage_without]
  split at early
  next work busy => exact early
  next idle =>
    split at early
    next serving =>
      intro wake wakes
      refine le_of_min?_eq_some ?_ early wakes
      intro n mem
      simp only [without, List.mem_append, List.mem_filterMap] at mem ⊢
      obtain (⟨c, kept, arrives⟩ | tick) | load := mem
      · exact .inl (.inl ⟨c, (List.mem_filter.1 kept).1, arrives⟩)
      · exact .inl (.inr tick)
      · exact .inr load
    · exact early

end

end Modem.Session.Service
