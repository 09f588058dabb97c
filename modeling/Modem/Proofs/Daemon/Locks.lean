import Mathlib.Data.String.Basic
import Modem.Bus.ObjectPath
import Modem.Daemon.Lock

/-! # Locks

The name of a lock file gives back the object path it is for, because an object path has one slash
in front, no empty element and no hyphen. So a daemon is kept out exactly by a daemon that holds the
lock for the same path, as long as the name is not too long for a file. -/

namespace Modem.Bus.ObjectPath

/-! ## Characters of paths -/

variable {started : Bool} {c : Char} {cs : List Char} {path : String}

theorem utf8Size_of_le {last : Char} (upTo : c.val ≤ last.val) (ascii : last.val ≤ 127) :
    c.utf8Size = 1 :=
  Char.utf8Size_eq_one_iff.2 (UInt32.le_trans upTo ascii)

theorem plain_of_isElementChar (element : isElementChar c = true) :
    c ≠ '-' ∧ c ≠ '\x00' ∧ c.utf8Size = 1 := by
  refine ⟨?_, ?_, ?_⟩
  · rintro rfl
    exact absurd element (by decide)
  · rintro rfl
    exact absurd element (by decide)
  · change (((c.isUpper || c.isLower) || c.isDigit) || decide (c = '_')) = true at element
    simp only [Bool.or_eq_true, decide_eq_true_eq] at element
    rcases element with ((upper | lower) | digit) | rfl
    · have range : 'A'.val ≤ c.val ∧ c.val ≤ 'Z'.val := of_decide_eq_true upper
      exact utf8Size_of_le range.2 (by decide)
    · have upTo : c.val ≤ 'z'.val := of_decide_eq_true (Bool.and_eq_true_iff.1 lower).2
      exact utf8Size_of_le upTo (by decide)
    · have upTo : c.val ≤ '9'.val := of_decide_eq_true (Bool.and_eq_true_iff.1 digit).2
      exact utf8Size_of_le upTo (by decide)
    · rfl

/-- No character of a path is a hyphen or NUL, and each is one byte. -/
theorem plain_of_elementsFrom (elements : elementsFrom started cs = true) (member : c ∈ cs) :
    c ≠ '-' ∧ c ≠ '\x00' ∧ c.utf8Size = 1 := by
  induction cs generalizing started with
  | nil => cases member
  | cons first rest ih =>
    rw [elementsFrom] at elements
    split at elements
    next slash =>
      obtain ⟨-, others⟩ := (Bool.and_eq_true _ _).mp elements
      rcases List.mem_cons.1 member with rfl | later
      · subst slash
        decide
      · exact ih others later
    next other =>
      obtain ⟨element, others⟩ := (Bool.and_eq_true _ _).mp elements
      rcases List.mem_cons.1 member with rfl | later
      · exact plain_of_isElementChar element
      · exact ih others later

/-- A path is a slash and what has no slash in front. -/
theorem exists_of_valid (valid : valid path = true) :
    ∃ rest, path.toList = '/' :: rest ∧ rest.head? ≠ some '/' ∧
      ∀ c ∈ rest, c ≠ '-' ∧ c ≠ '\x00' ∧ c.utf8Size = 1 := by
  rw [ObjectPath.valid] at valid
  cases chars : path.toList with
  | nil =>
    rw [chars] at valid
    cases valid
  | cons first rest =>
    rw [chars, validChars, Bool.and_eq_true, decide_eq_true_eq, Bool.or_eq_true,
      List.isEmpty_iff] at valid
    obtain ⟨rfl, rfl | elements⟩ := valid
    · exact ⟨[], rfl, by simp, by simp⟩
    · refine ⟨rest, rfl, ?_, fun c member => plain_of_elementsFrom elements member⟩
      -- an element that has no character yet cannot end
      cases rest with
      | nil => simp
      | cons second rest =>
        rw [List.head?_cons]
        rintro same
        obtain rfl := Option.some.inj same
        simp [elementsFrom] at elements

end Modem.Bus.ObjectPath

namespace Modem.Daemon

open Bus (ObjectPath.valid)

variable {path other : String}

/-! ## Names of lock files -/

theorem toList_lockName (path : String) :
    (lockName path).toList = "mmrs-signald-".toList ++ lockStem path ++ ".lock".toList := by
  simp only [lockName, String.toList_append, String.toList_ofList]

theorem lockStem_of_lockName (same : lockName path = lockName other) :
    lockStem path = lockStem other := by
  have chars := congrArg String.toList same
  rw [toList_lockName, toList_lockName] at chars
  exact List.append_cancel_left (List.append_cancel_right chars)

/-- A lock file is in the directory itself, whatever the path. -/
theorem slash_not_mem_lockName (path : String) : '/' ∉ (lockName path).toList := by
  rw [toList_lockName, List.mem_append, List.mem_append]
  rintro ((front | stem) | back)
  · exact absurd front (by decide)
  · exact slash_not_mem_lockStem path stem
  · exact absurd back (by decide)

/-- The stem of an object path is what follows its first slash, with hyphens for slashes. -/
theorem exists_of_valid (valid : ObjectPath.valid path = true) :
    ∃ rest, path.toList = '/' :: rest ∧
      lockStem path = rest.map (fun c => if c = '/' then '-' else c) ∧
      ∀ c ∈ rest, c ≠ '-' ∧ c ≠ '\x00' ∧ c.utf8Size = 1 := by
  obtain ⟨rest, chars, first, plain⟩ := Bus.ObjectPath.exists_of_valid valid
  refine ⟨rest, chars, ?_, plain⟩
  have trimmed : rest.dropWhile (fun c => decide (c = '/')) = rest := by
    cases rest with
    | nil => rfl
    | cons c rest =>
      refine List.dropWhile_cons_of_neg ?_
      rw [List.head?_cons] at first
      simpa using first
  rw [lockStem, chars, List.dropWhile_cons_of_pos (by decide), trimmed]

/-- The object path that a stem is for. -/
def pathOfStem (stem : List Char) : String :=
  String.ofList ('/' :: stem.map fun c => if c = '-' then '/' else c)

theorem pathOfStem_lockStem (valid : ObjectPath.valid path = true) :
    pathOfStem (lockStem path) = path := by
  obtain ⟨rest, chars, stem, plain⟩ := exists_of_valid valid
  have back : (rest.map fun c => if c = '/' then '-' else c).map
      (fun c => if c = '-' then '/' else c) = rest := by
    rw [List.map_map]
    refine (List.map_congr_left fun c member => ?_).trans (List.map_id rest)
    rw [Function.comp_apply, id]
    split
    next slash => rw [if_pos rfl, slash]
    next => rw [if_neg (plain c member).1]
  rw [pathOfStem, stem, back, ← chars, String.ofList_toList]

theorem lockName_injective (valid : ObjectPath.valid path = true)
    (valid' : ObjectPath.valid other = true) (same : lockName path = lockName other) :
    path = other := by
  rw [← pathOfStem_lockStem valid, lockStem_of_lockName same, pathOfStem_lockStem valid']

theorem contains_nul_lockName (valid : ObjectPath.valid path = true) :
    (lockName path).contains '\x00' = false := by
  obtain ⟨rest, -, stem, plain⟩ := exists_of_valid valid
  rw [String.contains_char_eq, decide_eq_false_iff_not, toList_lockName, List.mem_append,
    List.mem_append, stem]
  rintro ((front | middle) | back)
  · exact absurd front (by decide)
  · obtain ⟨c, member, same⟩ := List.mem_map.1 middle
    split at same
    · exact absurd same (by decide)
    · exact (plain c member).2.1 same
  · exact absurd back (by decide)

theorem utf8Len_eq_length {cs : List Char} (short : ∀ c ∈ cs, c.utf8Size = 1) :
    String.utf8Len cs = cs.length := by
  induction cs with
  | nil => rfl
  | cons c cs ih =>
    rw [String.utf8Len_cons, ih fun d member => short d (List.mem_cons_of_mem c member),
      short c List.mem_cons_self, List.length_cons]

/-- The slash in front makes room for all but seventeen bytes of what is around the stem. -/
theorem utf8ByteSize_lockName (valid : ObjectPath.valid path = true) :
    (lockName path).utf8ByteSize = path.length + 17 := by
  obtain ⟨rest, chars, stem, plain⟩ := exists_of_valid valid
  have short : String.utf8Len (lockStem path) = rest.length := by
    rw [stem, utf8Len_eq_length, List.length_map]
    intro d mapped
    obtain ⟨c, member, rfl⟩ := List.mem_map.1 mapped
    split
    · decide
    · exact (plain c member).2.2
  have long : path.length = rest.length + 1 := by
    rw [← String.length_toList, chars, List.length_cons]
  have front : "mmrs-signald-".utf8ByteSize = 13 := by decide
  have back : ".lock".utf8ByteSize = 5 := by decide
  have stemSize : (String.ofList (lockStem path)).utf8ByteSize = rest.length :=
    (String.utf8ByteSize_ofList _).trans short
  rw [lockName, String.utf8ByteSize_append, String.utf8ByteSize_append]
  omega

namespace LockDirectory

/-! ## One acquisition -/

variable {d : LockDirectory} {holder : Nat}

/-- The longest path whose lock file has a name that is not too long. -/
def maxPath : Nat := 238

theorem held_create {name : String} {created : LockDirectory}
    (done : d.create name = .ok created) : created.held = d.held := by
  rw [create] at done
  split at done
  · cases done
  · split at done
    · cases done
    · rw [← Except.ok.inj done]

/-- A lock is held from the moment it is got, and an acquisition changes nothing else about what
is held. -/
theorem held_acquire (d : LockDirectory) (holder : Nat) (path : String) :
    (d.acquire holder path).2 = .ok () ∧
        (d.acquire holder path).1.held = ⟨holder, lockName path⟩ :: d.held ∨
      (d.acquire holder path).2 ≠ .ok () ∧ (d.acquire holder path).1.held = d.held := by
  rw [acquire]
  split
  next => exact .inr ⟨nofun, rfl⟩
  next created done =>
    split
    · exact .inr ⟨nofun, held_create done⟩
    · exact .inl ⟨rfl, congrArg _ (held_create done)⟩

theorem create_of_fitting (valid : ObjectPath.valid path = true) (fits : path.length ≤ maxPath) :
    d.create (lockName path) = .ok { d with files := d.files.insert (lockName path) } := by
  have small : ¬maxName < (lockName path).utf8ByteSize := by
    rw [utf8ByteSize_lockName valid, maxName]
    rw [maxPath] at fits
    omega
  rw [create, contains_nul_lockName valid, if_neg Bool.false_ne_true, if_neg small]

theorem create_of_long (valid : ObjectPath.valid path = true) (long : maxPath < path.length) :
    d.create (lockName path) = .error .nameTooLong := by
  have large : maxName < (lockName path).utf8ByteSize := by
    rw [utf8ByteSize_lockName valid, maxName]
    rw [maxPath] at long
    omega
  rw [create, contains_nul_lockName valid, if_neg Bool.false_ne_true, if_pos large]

theorem acquire_of_long (valid : ObjectPath.valid path = true) (long : maxPath < path.length) :
    (d.acquire holder path).2 = .error .nameTooLong := by
  rw [acquire, create_of_long valid long]

theorem acquire_of_held (valid : ObjectPath.valid path = true) (fits : path.length ≤ maxPath)
    (held : ∃ h ∈ d.held, h.name = lockName path) :
    (d.acquire holder path).2 = .error (.taken path) := by
  have some : (d.held.any fun h => h.name = lockName path) = true := by
    simpa using held
  rw [acquire, create_of_fitting valid fits]
  dsimp only
  rw [if_pos some]

theorem acquire_of_free (valid : ObjectPath.valid path = true) (fits : path.length ≤ maxPath)
    (free : ¬∃ h ∈ d.held, h.name = lockName path) : (d.acquire holder path).2 = .ok () := by
  have none : ¬(d.held.any fun h => h.name = lockName path) = true := by
    simpa using free
  rw [acquire, create_of_fitting valid fits]
  dsimp only
  rw [if_neg none]

/-! ## Histories -/

/-- What a daemon does with the directory. -/
inductive Action where
  | acquire (holder : Nat) (path : String)
  | release (holder : Nat)
  deriving DecidableEq, Repr

/-- Whether the action is a release or is for the path. -/
def Action.concerns (path : String) : Action → Bool
  | .acquire _ other => other = path
  | .release _ => true

def act (d : LockDirectory) : Action → LockDirectory
  | .acquire holder path => (d.acquire holder path).1
  | .release holder => d.release holder

/-- The directory after a history, whose latest action comes first. -/
def after (start : LockDirectory) : List Action → LockDirectory
  | [] => start
  | action :: earlier => (start.after earlier).act action

/-- The holder has got the lock for the path, and has not released it since. -/
def HeldBy (start : LockDirectory) (history : List Action) (holder : Nat) (path : String) : Prop :=
  ∃ later earlier, history = later ++ .acquire holder path :: earlier ∧
    ((start.after earlier).acquire holder path).2 = .ok () ∧ .release holder ∉ later

/-- Somebody has a lock for the path that is not released. -/
def Unreleased (start : LockDirectory) (history : List Action) (path : String) : Prop :=
  ∃ holder, start.HeldBy history holder path

variable {start : LockDirectory} {history earlier : List Action} {action : Action} {h : Hold}

/-- What one action leaves held: the lock that it gets, and all but what it releases. -/
theorem mem_held_act : h ∈ (d.act action).held ↔
    (∃ path, action = .acquire h.holder path ∧ h.name = lockName path ∧
      (d.acquire h.holder path).2 = .ok ()) ∨ action ≠ .release h.holder ∧ h ∈ d.held := by
  obtain ⟨holder, name⟩ := h
  cases action with
  | release who =>
    have other : holder ≠ who ↔ Action.release who ≠ .release holder := by
      rw [Ne, Ne, Action.release.injEq, eq_comm]
    rw [act, release, List.mem_filter, decide_eq_true_eq, other, and_comm]
    exact (or_iff_right fun ⟨_, acquired, _⟩ => Action.noConfusion acquired).symm
  | acquire who path =>
    have kept : .acquire who path ≠ Action.release holder := Action.noConfusion
    rw [act]
    rcases d.held_acquire who path with ⟨got, held⟩ | ⟨refused, held⟩
    · rw [held, List.mem_cons, Hold.mk.injEq]
      constructor
      · rintro (⟨rfl, rfl⟩ | member)
        · exact .inl ⟨path, rfl, rfl, got⟩
        · exact .inr ⟨kept, member⟩
      · rintro (⟨path, ⟨⟩, rfl, -⟩ | ⟨-, member⟩)
        · exact .inl ⟨rfl, rfl⟩
        · exact .inr member
    · rw [held]
      constructor
      · exact fun member => .inr ⟨kept, member⟩
      · rintro (⟨path, ⟨⟩, -, got⟩ | ⟨-, member⟩)
        · exact absurd got refused
        · exact member

theorem heldBy_cons : start.HeldBy (action :: earlier) holder path ↔
    action = .acquire holder path ∧ ((start.after earlier).acquire holder path).2 = .ok () ∨
      action ≠ .release holder ∧ start.HeldBy earlier holder path := by
  constructor
  · rintro ⟨later, before, split, got, kept⟩
    cases later with
    | nil =>
      obtain ⟨rfl, rfl⟩ := List.cons.inj split
      exact .inl ⟨rfl, got⟩
    | cons latest later =>
      obtain ⟨rfl, rfl⟩ := List.cons.inj split
      rw [List.mem_cons, not_or] at kept
      exact .inr ⟨Ne.symm kept.1, later, before, rfl, got, kept.2⟩
  · rintro (⟨rfl, got⟩ | ⟨other, later, before, rfl, got, kept⟩)
    · exact ⟨[], earlier, rfl, got, List.not_mem_nil⟩
    · refine ⟨action :: later, before, rfl, got, ?_⟩
      rw [List.mem_cons, not_or]
      exact ⟨Ne.symm other, kept⟩

/-- What is held at the end of a history is what has been got and not released. -/
theorem mem_held_after (unheld : start.held = []) : h ∈ (start.after history).held ↔
    ∃ path, h.name = lockName path ∧ start.HeldBy history h.holder path := by
  induction history with
  | nil =>
    rw [after, unheld]
    constructor
    · exact fun member => absurd member List.not_mem_nil
    · rintro ⟨path, -, later, before, split, -⟩
      exact absurd split (by simp)
  | cons action earlier ih =>
    rw [after, mem_held_act, ih]
    simp only [heldBy_cons]
    constructor
    · rintro (⟨path, rfl, name, got⟩ | ⟨other, path, name, held⟩)
      · exact ⟨path, name, .inl ⟨rfl, got⟩⟩
      · exact ⟨path, name, .inr ⟨other, held⟩⟩
    · rintro ⟨path, name, ⟨rfl, got⟩ | ⟨other, held⟩⟩
      · exact .inl ⟨path, rfl, name, got⟩
      · exact .inr ⟨other, path, name, held⟩

/-! ## One lock for each path -/

section Valid

variable (unheld : start.held = [])
  (paths : ∀ holder path, .acquire holder path ∈ history → ObjectPath.valid path = true)
  (valid : ObjectPath.valid path = true)
include unheld paths valid

/-- A lock file is locked exactly if somebody has the lock for the very path. -/
theorem unreleased_iff : start.Unreleased history path ↔
    ∃ h ∈ (start.after history).held, h.name = lockName path := by
  constructor
  · rintro ⟨holder, held⟩
    exact ⟨⟨holder, lockName path⟩, (mem_held_after unheld).2 ⟨path, rfl, held⟩, rfl⟩
  · rintro ⟨h, member, name⟩
    obtain ⟨other, named, held⟩ := (mem_held_after unheld).1 member
    obtain ⟨later, before, split, -⟩ := id held
    have acquired : .acquire h.holder other ∈ history := split ▸ by simp
    obtain rfl := lockName_injective (paths _ _ acquired) valid (named.symm.trans name)
    exact ⟨h.holder, held⟩

theorem acquire_after_of_unreleased (fits : path.length ≤ maxPath)
    (taken : start.Unreleased history path) :
    ((start.after history).acquire holder path).2 = .error (.taken path) :=
  acquire_of_held valid fits ((unreleased_iff unheld paths valid).1 taken)

theorem acquire_after_of_released (fits : path.length ≤ maxPath)
    (free : ¬start.Unreleased history path) :
    ((start.after history).acquire holder path).2 = .ok () :=
  acquire_of_free valid fits fun held => free ((unreleased_iff unheld paths valid).2 held)

/-- What an acquisition comes to is told by whether a lock for the path is unreleased. -/
theorem acquire_after_congr {history' : List Action}
    (paths' : ∀ holder path, .acquire holder path ∈ history' → ObjectPath.valid path = true)
    (same : start.Unreleased history path ↔ start.Unreleased history' path) (holder : Nat) :
    ((start.after history).acquire holder path).2 =
      ((start.after history').acquire holder path).2 := by
  by_cases fits : path.length ≤ maxPath
  · by_cases taken : start.Unreleased history path
    · rw [acquire_after_of_unreleased unheld paths valid fits taken,
        acquire_after_of_unreleased unheld paths' valid fits (same.1 taken)]
    · rw [acquire_after_of_released unheld paths valid fits taken,
        acquire_after_of_released unheld paths' valid fits (mt same.2 taken)]
  · rw [acquire_of_long valid (Nat.lt_of_not_le fits),
      acquire_of_long valid (Nat.lt_of_not_le fits)]

/-- Who holds the lock for a path is told by the releases and by what is done for that path. -/
theorem heldBy_filter : start.HeldBy (history.filter (·.concerns path)) holder path ↔
    start.HeldBy history holder path := by
  induction history generalizing holder with
  | nil => rfl
  | cons action earlier ih =>
    have before (holder : Nat) (path : String) (acquired : .acquire holder path ∈ earlier) :=
      paths holder path (List.mem_cons_of_mem action acquired)
    have kept (holder : Nat) : start.HeldBy (earlier.filter (·.concerns path)) holder path ↔
        start.HeldBy earlier holder path := ih before
    have alike := acquire_after_congr unheld
      (fun _ _ acquired => before _ _ (List.mem_filter.1 acquired).1) valid before
      (exists_congr kept) holder
    cases concerned : action.concerns path with
    | true =>
      rw [List.filter_cons_of_pos concerned, heldBy_cons, heldBy_cons, kept, alike]
    | false =>
      have other : action ≠ .acquire holder path ∧ action ≠ .release holder := by
        constructor
        all_goals
          rintro rfl
          simp [Action.concerns] at concerned
      rw [List.filter_cons_of_neg (by simp [concerned]), heldBy_cons, kept]
      exact ((or_iff_right fun got => other.1 got.1).trans (and_iff_right other.2)).symm

/-- An acquisition succeeds exactly if the path fits and no lock for the same path is unreleased. It
is refused in no other way than these two, and what is done for other paths makes no difference to
it. -/
theorem one_lock_for_each_path (holder : Nat) :
    (((start.after history).acquire holder path).2 = .ok () ↔
      path.length ≤ maxPath ∧ ¬start.Unreleased history path) ∧
    (((start.after history).acquire holder path).2 = .error (.taken path) ↔
      path.length ≤ maxPath ∧ start.Unreleased history path) ∧
    (((start.after history).acquire holder path).2 = .error .nameTooLong ↔
      maxPath < path.length) ∧
    ((start.after (history.filter (·.concerns path))).acquire holder path).2 =
      ((start.after history).acquire holder path).2 ∧
    (∀ other, ObjectPath.valid other = true → lockName path = lockName other → path = other) ∧
    ∀ text, '/' ∉ (lockName text).toList := by
  have alone := acquire_after_congr unheld
    (fun _ _ acquired => paths _ _ (List.mem_filter.1 acquired).1) valid paths
    (exists_congr fun _ => heldBy_filter unheld paths valid) holder
  have apart (other : String) (valid' : ObjectPath.valid other = true)
      (same : lockName path = lockName other) := lockName_injective valid valid' same
  refine ⟨?_, ?_, ?_, alone, apart, slash_not_mem_lockName⟩
  all_goals
    rcases Nat.lt_or_ge maxPath path.length with long | fits
    · simp [acquire_of_long valid long, long, Nat.not_le_of_lt long]
    · by_cases taken : start.Unreleased history path
      · simp [acquire_after_of_unreleased unheld paths valid fits taken, fits, taken]
      · simp [acquire_after_of_released unheld paths valid fits taken, fits, taken]

end Valid

/-- A daemon is kept out by the one that holds the lock for its path, whoever holds the root. -/
theorem refused_beside_root :
    let history : List Action := [.acquire 1 "/", .acquire 0 "/a"]
    (∀ holder path, .acquire holder path ∈ history → ObjectPath.valid path = true) ∧
      ((({} : LockDirectory).after history).acquire 2 "/a").2 = .error (.taken "/a") := by
  intro history
  have valid : ObjectPath.valid "/a" = true ∧ ObjectPath.valid "/" = true := by decide
  have paths (holder : Nat) (path : String) (acquired : .acquire holder path ∈ history) :
      ObjectPath.valid path = true := by
    simp only [history, List.mem_cons, Action.acquire.injEq, List.not_mem_nil, or_false] at acquired
    rcases acquired with ⟨-, rfl⟩ | ⟨-, rfl⟩
    · exact valid.2
    · exact valid.1
  have fits : "/a".length ≤ maxPath := by decide
  have got : ((({} : LockDirectory).after []).acquire 0 "/a").2 = .ok () :=
    acquire_of_free valid.1 fits (by simp [after])
  have held : ({} : LockDirectory).HeldBy history 0 "/a" :=
    ⟨[.acquire 1 "/"], [], rfl, got, by simp⟩
  exact ⟨paths, (one_lock_for_each_path rfl paths valid.1 2).2.1.2 ⟨fits, 0, held⟩⟩

/-- A path that is one character too long. -/
def longPath : String := String.ofList ('/' :: List.replicate maxPath 'x')

theorem length_longPath : longPath.length = maxPath + 1 := by
  rw [longPath, String.length_ofList, List.length_cons, List.length_replicate]

theorem elementsFrom_replicate (started : Bool) (n : Nat) :
    Bus.ObjectPath.elementsFrom started (List.replicate (n + 1) 'x') = true := by
  induction n generalizing started with
  | zero => cases started <;> rfl
  | succ n ih => exact ih true

theorem valid_longPath : ObjectPath.valid longPath = true := by
  have elements : Bus.ObjectPath.elementsFrom false (List.replicate maxPath 'x') = true :=
    elementsFrom_replicate false 237
  rw [ObjectPath.valid, longPath, String.toList_ofList, Bus.ObjectPath.validChars, elements,
    Bool.or_true]
  rfl

/-- Nobody holds a lock, and still there is none to be got for a path that is too long. -/
theorem free_path_refused :
    ObjectPath.valid longPath = true ∧ ¬({} : LockDirectory).Unreleased [] longPath ∧
      ((({} : LockDirectory).after []).acquire 0 longPath).2 ≠ .ok () := by
  refine ⟨valid_longPath, ?_, ?_⟩
  · rintro ⟨holder, later, earlier, split, -⟩
    exact absurd split (by simp)
  · rw [acquire_of_long valid_longPath (by rw [length_longPath]; exact Nat.lt_succ_self _)]
    nofun

end LockDirectory

end Modem.Daemon
