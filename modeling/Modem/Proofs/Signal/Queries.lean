import Modem.Proofs.Signal.Change

/-! # Queries under way

Queries are numbered as they are launched, and each is under way once. An operation that answers no
query launches at most one, in the generation that it leaves. -/

namespace Modem.Signal.Reporting

variable {r s : Reporting} {answered : Option Query}

/-- Each query under way is counted, and under way once. -/
structure Numbered (r : Reporting) : Prop where
  once : r.inFlight.Nodup
  counted : ∀ query ∈ r.inFlight, query.number < r.queriesStarted

theorem numbered_initial (supported : Bool) (rate : UInt32) : Numbered { supported, rate } :=
  ⟨List.nodup_nil, nofun⟩

/-- The next query is not under way yet. -/
theorem Numbered.fresh (numbered : r.Numbered) (generation : Nat) :
    ⟨r.queriesStarted, generation⟩ ∉ r.inFlight :=
  fun mem => Nat.lt_irrefl _ (numbered.counted _ mem)

/-- What is launched between two states of reporting, in the order in which it is launched. -/
def launched (r s : Reporting) : List Query :=
  if s.queriesStarted = r.queriesStarted then [] else [⟨r.queriesStarted, s.generation⟩]

/-- Queries have been launched, at most one, and no other has begun or ended. -/
structure Launches (r s : Reporting) : Prop where
  inFlight : s.inFlight = r.inFlight ++ r.launched s
  counted : r.queriesStarted ≤ s.queriesStarted

theorem launches_of_same (inFlight : s.inFlight = r.inFlight)
    (queriesStarted : s.queriesStarted = r.queriesStarted) : r.Launches s where
  inFlight := by rw [launched, if_pos queriesStarted, inFlight, List.append_nil]
  counted := Nat.le_of_eq queriesStarted.symm

theorem launches_launch {q : Reporting} (inFlight : q.inFlight = r.inFlight)
    (queriesStarted : q.queriesStarted = r.queriesStarted) : r.Launches q.launch := by
  unfold launch
  split
  · exact ⟨by simp [launched, inFlight, queriesStarted], by simp [queriesStarted]⟩
  · exact launches_of_same inFlight queriesStarted

theorem Becomes.launches (becomes : r.Becomes none s) : r.Launches s := by
  cases becomes with
  | same => exact launches_of_same rfl rfl
  | created => exact launches_of_same rfl rfl
  | torn => exact launches_of_same rfl rfl
  | rated => exact launches_of_same rfl rfl
  | started rate now => exact launches_launch rfl rfl
  | ticked timer now => exact launches_launch rfl rfl

theorem queriesStarted_launch_le (r : Reporting) :
    r.launch.queriesStarted ≤ r.queriesStarted + 1 := by
  unfold launch
  split
  · exact Nat.le_refl _
  · exact Nat.le_succ _

theorem Becomes.queriesStarted_le (becomes : r.Becomes none s) :
    s.queriesStarted ≤ r.queriesStarted + 1 := by
  cases becomes with
  | same | created | torn | rated => exact Nat.le_succ _
  | started | ticked => exact queriesStarted_launch_le _

/-- The numbers of the queries under way go on with that of the query that is launched. -/
theorem Becomes.numbers (becomes : r.Becomes none s) :
    s.inFlight.map Query.number = r.inFlight.map Query.number ++
      List.range' r.queriesStarted (s.queriesStarted - r.queriesStarted) := by
  obtain ⟨inFlight, more⟩ := becomes.launches
  have one := becomes.queriesStarted_le
  rw [inFlight, List.map_append, launched]
  congr 1
  split
  next same => simp [same]
  next other =>
    have single : s.queriesStarted - r.queriesStarted = 1 := by omega
    simp [single]

theorem Launches.numbered (launches : r.Launches s) (numbered : r.Numbered) : s.Numbered := by
  obtain ⟨inFlight, more⟩ := launches
  unfold launched at inFlight
  split at inFlight
  next same =>
    rw [List.append_nil] at inFlight
    exact ⟨by rw [inFlight]; exact numbered.once, by rw [inFlight, same]; exact numbered.counted⟩
  next other =>
    constructor
    · rw [inFlight, List.nodup_append]
      refine ⟨numbered.once, List.nodup_cons.2 ⟨List.not_mem_nil, List.nodup_nil⟩, ?_⟩
      intro query mem new launched same
      obtain rfl := List.mem_singleton.1 launched
      exact numbered.fresh _ (same ▸ mem)
    · intro query mem
      rw [inFlight, List.mem_append, List.mem_singleton] at mem
      rcases mem with old | rfl
      · exact Nat.lt_of_lt_of_le (numbered.counted query old) more
      · exact Nat.lt_of_le_of_ne more (Ne.symm other)

/-- An answer ends a query. -/
theorem Numbered.erase (numbered : r.Numbered) {query : Query}
    (inFlight : s.inFlight = r.inFlight.erase query)
    (queriesStarted : s.queriesStarted = r.queriesStarted) : s.Numbered where
  once := by
    rw [inFlight]
    exact numbered.once.erase query
  counted other mem := by
    rw [inFlight] at mem
    rw [queriesStarted]
    exact numbered.counted other (List.mem_of_mem_erase mem)

end Modem.Signal.Reporting
