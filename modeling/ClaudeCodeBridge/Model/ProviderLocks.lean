import ClaudeCodeBridge.Program.AdvisoryLocks

/-!
# Provider locks

`ProviderLock` of `lib/provider_core/runtime_lock.py`, on POSIX: the locks of one provider and
scope share a lock file.  A lock is acquired by an advisory lock on the file, which then gets the
process id of the holder; who is refused looks once whether the process in the file is dead, and
then takes the file away and makes it anew.

A step is one call into the system.  A process may die between any two steps, which closes what it
has open; its id is not given again.  How long a wait may take is left open.
-/

set_option autoImplicit false

namespace ClaudeCodeBridge.Model.ProviderLocks

open Program

abbrev Pid := ℕ

/-- What the lock file has, as the stale check reads it. -/
inductive Content where
  | empty
  | pid (pid : Pid)
  /-- No number. -/
  | other
  deriving DecidableEq

/-- `try_acquire`, or `acquire` with its flag. -/
inductive Mode where
  | once
  | waiting (stale_checked : Bool)
  deriving DecidableEq

/-- What a lock does next. -/
inductive Doing where
  | idle
  /-- `_try_acquire_once`. -/
  | locking (mode : Mode)
  /-- It has the advisory lock. -/
  | writing
  /-- `_check_stale_lock`. -/
  | reading (mode : Mode)
  | testing (mode : Mode) (pid : Pid)
  | unlinking (mode : Mode)
  | reclosing (mode : Mode)
  | reopening (mode : Mode)
  /-- `_try_acquire_once` again, with the file made anew. -/
  | relocking (mode : Mode)
  | giving_up
  /-- `release`. -/
  | unlocking
  | closing
  deriving DecidableEq

structure Lock where
  fd : Option ℕ
  acquired : Bool
  doing : Doing
  /-- The descriptor of the last call that returned `True`, until a `release` starts. -/
  held : Option ℕ
  deriving DecidableEq

/-- `ProviderLock(..)`. -/
def Lock.new : Lock := { fd := none, acquired := false, doing := .idle, held := none }

structure State (ι : Type) where
  files : FileTable ι Content
  locks : ι → Lock
  alive : Pid → Bool

variable {ι : Type} [DecidableEq ι]

def State.set (s : State ι) (o : ι) (lock : Lock) : State ι :=
  { s with locks := Function.update s.locks o lock }

/-- After the first refusal: `acquire` checks for a stale lock once. -/
def Mode.refused : Mode → Doing
  | once => .reading .once
  | waiting false => .reading (.waiting true)
  | waiting true => .locking (.waiting true)

/-- Not stale, or refused again. -/
def Mode.failed : Mode → Doing
  | once => .giving_up
  | waiting stale_checked => .locking (.waiting stale_checked)

/-- What the stale check does about the content of the lock file. -/
def Mode.checked (mode : Mode) : Option Content → Doing
  | some (.pid pid) => .testing mode pid
  | some .empty => mode.failed
  | some .other => mode.failed
  | none => mode.failed

/-- `os.open(.., O_CREAT | O_RDWR)`. -/
def State.open_file (s : State ι) (o : ι) (doing : Doing) : State ι :=
  let opened := s.files.open_named .empty o
  { s.set o { s.locks o with fd := some opened.2, doing := doing } with files := opened.1 }

def State.close_file (s : State ι) (o : ι) (fd : ℕ) (lock : Lock) : State ι :=
  { s.set o lock with files := s.files.close fd }

/-- The pid is in the file: the call returns `True`. -/
def State.write_pid (s : State ι) (o : ι) (pid : Pid) (fd : ℕ) : State ι :=
  { s.set o { fd := some fd, acquired := true, doing := .idle, held := some fd } with
    files := s.files.write fd (.pid pid) }

/-- `release` up to its first call into the system. -/
def Lock.begin_release (lock : Lock) : Lock :=
  match lock.fd with
  | none => { lock with held := none }
  | some _ => { lock with doing := if lock.acquired then .unlocking else .closing, held := none }

/-- A step of the lock of a living process. -/
inductive Move (pid : ι → Pid) (s : State ι) (o : ι) : State ι → Prop where
  | try_acquire (h : (s.locks o).doing = .idle) : Move pid s o (s.open_file o (.locking .once))
  | acquire (h : (s.locks o).doing = .idle) :
    Move pid s o (s.open_file o (.locking (.waiting false)))
  | lock (mode : Mode) (fd : ℕ) (files : FileTable ι Content)
    (h : (s.locks o).doing = .locking mode) (hfd : (s.locks o).fd = some fd)
    (hlock : s.files.flock fd = some files) :
    Move pid s o { s.set o { s.locks o with doing := .writing } with files := files }
  | refused (mode : Mode) (fd : ℕ) (h : (s.locks o).doing = .locking mode)
    (hfd : (s.locks o).fd = some fd) (hlock : s.files.flock fd = none) :
    Move pid s o (s.set o { s.locks o with doing := mode.refused })
  /-- The deadline of `acquire`. -/
  | time_up (stale_checked : Bool) (h : (s.locks o).doing = .locking (.waiting stale_checked)) :
    Move pid s o (s.set o { s.locks o with doing := .giving_up })
  | write_pid (fd : ℕ) (h : (s.locks o).doing = .writing) (hfd : (s.locks o).fd = some fd) :
    Move pid s o (s.write_pid o (pid o) fd)
  | read (mode : Mode) (h : (s.locks o).doing = .reading mode) :
    Move pid s o (s.set o { s.locks o with doing := mode.checked s.files.read_named })
  | test (mode : Mode) (found : Pid) (h : (s.locks o).doing = .testing mode found) :
    Move pid s o (s.set o
      { s.locks o with doing := if s.alive found then mode.failed else .unlinking mode })
  | unlink (mode : Mode) (h : (s.locks o).doing = .unlinking mode) :
    Move pid s o { s.set o { s.locks o with doing := .reclosing mode } with
      files := s.files.unlink }
  | reclose (mode : Mode) (fd : ℕ) (h : (s.locks o).doing = .reclosing mode)
    (hfd : (s.locks o).fd = some fd) :
    Move pid s o (s.close_file o fd { s.locks o with doing := .reopening mode })
  | reopen (mode : Mode) (h : (s.locks o).doing = .reopening mode) :
    Move pid s o (s.open_file o (.relocking mode))
  | relock (mode : Mode) (fd : ℕ) (files : FileTable ι Content)
    (h : (s.locks o).doing = .relocking mode) (hfd : (s.locks o).fd = some fd)
    (hlock : s.files.flock fd = some files) :
    Move pid s o { s.set o { s.locks o with doing := .writing } with files := files }
  | refused_again (mode : Mode) (fd : ℕ) (h : (s.locks o).doing = .relocking mode)
    (hfd : (s.locks o).fd = some fd) (hlock : s.files.flock fd = none) :
    Move pid s o (s.set o { s.locks o with doing := mode.failed })
  | give_up (fd : ℕ) (h : (s.locks o).doing = .giving_up) (hfd : (s.locks o).fd = some fd) :
    Move pid s o (s.close_file o fd { s.locks o with fd := none, doing := .idle })
  | release (h : (s.locks o).doing = .idle) : Move pid s o (s.set o (s.locks o).begin_release)
  | unlock (fd : ℕ) (h : (s.locks o).doing = .unlocking) (hfd : (s.locks o).fd = some fd) :
    Move pid s o { s.set o { s.locks o with doing := .closing } with
      files := s.files.unlock fd }
  | close (fd : ℕ) (h : (s.locks o).doing = .closing) (hfd : (s.locks o).fd = some fd) :
    Move pid s o (s.close_file o fd
      { s.locks o with fd := none, acquired := false, doing := .idle })

/-- A process dies. -/
def State.die (s : State ι) (pid : ι → Pid) (dead : Pid) : State ι :=
  { s with
    files := s.files.drop fun o => pid o = dead
    alive := Function.update s.alive dead false }

inductive Step (pid : ι → Pid) : State ι → State ι → Prop where
  | move (s t : State ι) (o : ι) (halive : s.alive (pid o) = true) (h : Move pid s o t) :
    Step pid s t
  | die (s : State ι) (dead : Pid) : Step pid s (s.die pid dead)

/-- Before any call; the lock file may be left over, with any content. -/
structure Initial (s : State ι) : Prop where
  locks : ∀ o, s.locks o = Lock.new
  opened : ∀ d, s.files.opened d = none
  locked : ∀ i, s.files.locked i = none

/-- An `acquire` or `try_acquire` returned `True`, and no `release` has started since. -/
def Holds (pid : ι → Pid) (s : State ι) (o : ι) : Prop :=
  s.alive (pid o) = true ∧ (s.locks o).held.isSome = true

end ClaudeCodeBridge.Model.ProviderLocks
