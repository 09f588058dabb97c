/-! # Locks

One daemon serves one modem: it holds a lock file that is named after the path of the modem. The
file stays when the lock is released. -/

namespace Modem.Daemon

/-- Slashes at the front are left out, and the others become hyphens. -/
def lockStem (path : String) : List Char :=
  (path.toList.dropWhile (· = '/')).map fun c => if c = '/' then '-' else c

def lockName (path : String) : String :=
  "mmrs-signald-" ++ String.ofList (lockStem path) ++ ".lock"

theorem slash_not_mem_lockStem (path : String) : '/' ∉ lockStem path := by
  simp only [lockStem, List.mem_map, not_exists, not_and]
  intro c _ same
  split at same
  · exact absurd same (by decide)
  · rename_i other
    exact other same

inductive LockFault where
  | nulInName
  | nameTooLong
  | taken (path : String)
  deriving DecidableEq, Repr

namespace LockFault

def message : LockFault → String
  | nulInName => "Failed to create lock file: file name contained an unexpected NUL byte"
  | nameTooLong => "Failed to create lock file: File name too long (os error 36)"
  | taken path => "Another instance is already serving " ++ path

end LockFault

/-! ## The lock directory -/

/-- A lock that is held, with a number for its holder. -/
structure Hold where
  holder : Nat
  name : String
  deriving DecidableEq, Repr

structure LockDirectory where
  /-- The names of the files, each once. -/
  files : List String := []
  held : List Hold := []
  deriving DecidableEq, Repr

namespace LockDirectory

/-- The names in growing order. -/
def listing (d : LockDirectory) : List String := d.files.mergeSort fun a b => a ≤ b

/-- The longest name of a file, in bytes. -/
def maxName : Nat := 255

def create (d : LockDirectory) (name : String) : Except LockFault LockDirectory :=
  if name.contains '\x00' then .error .nulInName
  else if maxName < name.utf8ByteSize then .error .nameTooLong
  else .ok { d with files := d.files.insert name }

/-- Creates the file for a path and locks it. The file is there even if the lock is not got. -/
def acquire (d : LockDirectory) (holder : Nat) (path : String) :
    LockDirectory × Except LockFault Unit :=
  let name := lockName path
  match d.create name with
  | .error fault => (d, .error fault)
  | .ok d =>
    if d.held.any fun h => h.name = name then (d, .error (.taken path))
    else ({ d with held := ⟨holder, name⟩ :: d.held }, .ok ())

def release (d : LockDirectory) (holder : Nat) : LockDirectory :=
  { d with held := d.held.filter fun h => h.holder ≠ holder }

end LockDirectory

end Modem.Daemon
