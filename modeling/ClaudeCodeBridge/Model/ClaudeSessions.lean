import ClaudeCodeBridge.Program.ByteLines
import ClaudeCodeBridge.Program.JsonText

/-!
# Claude session logs

Claude writes a log of JSON lines for each of its sessions.  A reader selects the session to read,
the one that it prefers or a newer one, and reads what has been appended to it since its offset,
with the unfinished line that it carries over.

What a line says is a function of its text alone, and so is whether a log belongs to a side
chain; both are parameters.  Paths stand for themselves.
-/

set_option autoImplicit false

namespace ClaudeCodeBridge.Model.ClaudeSession

open Program

def newline : UInt8 := 0x0A

/-- What `bytes.strip` takes away. -/
def is_space (byte : UInt8) : Bool := byte = 0x20 || 0x09 ≤ byte && byte ≤ 0x0D

def strip (raw : Bytes) : Bytes := ((raw.dropWhile is_space).reverse.dropWhile is_space).reverse

/-- What the JSON of a line says, and whether the entries of a log are a side chain's. -/
structure LogText (ε : Type) where
  /-- `structured_event` of the entry of a line, if there is any. -/
  event : Bytes → Option ε
  session_is_sidechain : Bytes → Option Bool

variable {ε : Type} (text : LogText ε)

/-- `_parse_jsonl_entry`, and `structured_event` of its result. -/
def LogText.parse_jsonl_entry (raw : Bytes) : Option ε :=
  if strip raw = [] then none else text.event (strip raw)

def split_buffer_lines (carry data : Bytes) : List Bytes × Bytes :=
  let buffer := carry ++ data
  if openLine newline buffer = [] then (linesOf newline buffer ++ [[]], [])
  else (linesOf newline buffer, openLine newline buffer)

/-- `read_incremental_jsonl`, of the bytes of a file that is there. -/
def LogText.read_incremental_jsonl (log : Bytes) (offset : ℕ) (carry : Bytes) :
    List ε × ℕ × Bytes :=
  let offset' := if log.length < offset then 0 else offset
  let carry' := if log.length < offset then [] else carry
  let data := log.drop offset'
  let split := split_buffer_lines carry' data
  (split.1.filterMap text.parse_jsonl_entry, offset' + data.length, split.2)

structure SessionFile where
  path : ℕ
  log : Bytes
  mtime : ℕ
  belongs : Bool
  /-- It is directly in the project's current directory, and not hidden. -/
  listed : Bool
  /-- It is directly in a directory of a project, and not hidden. -/
  found : Bool
  deriving DecidableEq

/-- The session files, in the order in which a directory lists them, the session that the index
names, and whether any project may be scanned. -/
structure Disk where
  files : List SessionFile
  index : Option ℕ
  allow_any_project_scan : Bool
  deriving DecidableEq

def Disk.file (disk : Disk) (path : ℕ) : Option SessionFile :=
  disk.files.find? fun file => file.path = path

def Disk.log (disk : Disk) (path : ℕ) : Option Bytes := (disk.file path).map SessionFile.log

structure LogReader where
  preferred_session : Option ℕ
  preferred_session_locked : Bool
  deriving DecidableEq

def Disk.session_belongs_to_current_project (disk : Disk) (path : ℕ) : Bool :=
  ((disk.file path).map SessionFile.belongs).getD false

def Disk.parse_sessions_index (disk : Disk) : Option ℕ :=
  disk.index.filter disk.session_belongs_to_current_project

def newest_first (files : List SessionFile) : List SessionFile :=
  files.insertionSort fun a b => b.mtime ≤ a.mtime

def LogText.best_project_session (sessions : List SessionFile) : Option SessionFile :=
  ((sessions.find? fun file => text.session_is_sidechain file.log = some false).or
    (sessions.find? fun file => text.session_is_sidechain file.log = none)).or sessions.head?

def LogText.scan_latest_session (disk : Disk) : Option ℕ :=
  (text.best_project_session (newest_first (disk.files.filter SessionFile.listed))).map
    SessionFile.path

def scan_latest_session_any_project (disk : Disk) : Option ℕ :=
  (((disk.files.filter SessionFile.found).insertionSort fun a b =>
    a.mtime ≤ b.mtime).getLast?).map SessionFile.path

def newer_candidate (disk : Disk) (preferred : SessionFile) (index_session scanned : Option ℕ) :
    Option ℕ :=
  [index_session, scanned].findSome? fun candidate =>
    (candidate.bind disk.file).bind fun file =>
      if preferred.mtime < file.mtime then some file.path else none

def LogText.preferred_session (disk : Disk) (reader : LogReader) : Option ℕ × LogReader :=
  match reader.preferred_session with
  | none => (none, reader)
  | some preferred =>
    if disk.session_belongs_to_current_project preferred = false then
      (none, { preferred_session := none, preferred_session_locked := false })
    else
      match disk.file preferred with
      | none => (none, reader)
      | some file =>
        if reader.preferred_session_locked then (some preferred, reader)
        else
          match newer_candidate disk file disk.parse_sessions_index
              (text.scan_latest_session disk) with
          | some candidate => (some candidate, { reader with preferred_session := some candidate })
          | none => (some preferred, reader)

/-- What `latest_session` finds where no session is preferred. -/
def LogText.unpreferred_session (disk : Disk) : Option ℕ :=
  (disk.parse_sessions_index.or (text.scan_latest_session disk)).or
    (if disk.allow_any_project_scan then scan_latest_session_any_project disk else none)

def LogText.latest_session (disk : Disk) (reader : LogReader) : Option ℕ × LogReader :=
  match text.preferred_session disk reader with
  | (some preferred, reader) => (some preferred, reader)
  | (none, reader) =>
    if reader.preferred_session_locked then (none, reader)
    else
      match text.unpreferred_session disk with
      | some session => (some session, { reader with preferred_session := some session })
      | none => (none, reader)

def LogReader.set_preferred_session (disk : Disk) (path : ℕ) (reader : LogReader) : LogReader :=
  if disk.session_belongs_to_current_project path then
    { preferred_session := some path, preferred_session_locked := true }
  else reader

def LogReader.allow_preferred_session_rotation (reader : LogReader) : LogReader :=
  { reader with preferred_session_locked := false }

structure ReaderState where
  session_path : Option ℕ
  offset : ℕ
  carry : Bytes
  deriving DecidableEq

def LogText.capture_state (disk : Disk) (reader : LogReader) : ReaderState × LogReader :=
  let (session, reader) := text.latest_session disk reader
  ({ session_path := session
     offset := ((session.bind disk.log).map List.length).getD 0
     carry := [] }, reader)

/-- The state of a poll that has found its session, as `poll_session_loop` leaves it. -/
def ReaderState.select (session : ℕ) (log : Bytes) (state : ReaderState) : ReaderState :=
  if state.session_path = some session then state
  else { session_path := some session, offset := log.length, carry := [] }

/-- What a poll has done: the session, its log as it was read, what the log was when the session
was first selected by the poll, and the entries that are returned. -/
structure Poll (ε : Type) where
  session : ℕ
  log : Bytes
  first_seen : Option Bytes
  entries : List ε

/-- `read_new_entries` of a selected session. -/
def LogText.read_new_entries (session : ℕ) (log : Bytes) (state : ReaderState) :
    List ε × ReaderState :=
  let result := text.read_incremental_jsonl log state.offset state.carry
  (result.1, { session_path := some session, offset := result.2.1, carry := result.2.2 })

/-- The disk and the reader of a submission, and its polls so far. -/
structure Watch (ε : Type) where
  disk : Disk
  reader : LogReader
  state : ReaderState
  polls : List (Poll ε)

/-- What a poll does that has selected a session: `seen` is its log then, `log` when it is read. -/
def LogText.read_session (session : ℕ) (seen log : Bytes) (later : Disk) (reader : LogReader)
    (watch : Watch ε) : Watch ε :=
  let result := text.read_new_entries session log (watch.state.select session seen)
  { disk := later
    reader := reader
    state := result.2
    polls := watch.polls ++
      [{ session := session
         log := log
         first_seen := if watch.state.session_path = some session then none else some seen
         entries := result.1 }] }

/-- `try_get_entries`: the session is selected on one disk and read on another, a little later.
Where there is no session, nothing is returned. -/
def LogText.try_get_entries (later : Disk) (watch : Watch ε) : Watch ε :=
  let (selected, reader) := text.latest_session watch.disk watch.reader
  match selected with
  | none => { watch with disk := later, reader := reader }
  | some session =>
    match watch.disk.log session, later.log session with
    | some seen, some log => text.read_session session seen log later reader watch
    | _, _ => { watch with disk := later, reader := reader }

/-- Logs are only appended to, and stay. -/
def Disk.GrowsTo (disk later : Disk) : Prop :=
  ∀ path log, disk.log path = some log → ∃ more, later.log path = some (log ++ more)

/-- The watch of a submission from when its prompt is sent. -/
def LogText.watch (disk : Disk) (reader : LogReader) : Watch ε :=
  let (state, reader) := text.capture_state disk reader
  { disk := disk, reader := reader, state := state, polls := [] }

/-- What happens next: logs grow, the reader is bound to a session or may rotate, or it polls. -/
inductive Moves : Watch ε → Watch ε → Prop
  | grow (watch : Watch ε) (later : Disk) :
    watch.disk.GrowsTo later → Moves watch { watch with disk := later }
  | set_preferred_session (watch : Watch ε) (path : ℕ) :
    Moves watch { watch with reader := watch.reader.set_preferred_session watch.disk path }
  | allow_preferred_session_rotation (watch : Watch ε) :
    Moves watch { watch with reader := watch.reader.allow_preferred_session_rotation }
  | poll (watch : Watch ε) (later : Disk) :
    watch.disk.GrowsTo later → Moves watch (text.try_get_entries later watch)

def Watch.since_selected (session : ℕ) (watch : Watch ε) : List (Poll ε) :=
  (watch.polls.reverse.takeWhile fun poll => poll.session = session).reverse

def LogText.entries (log : Bytes) : List ε := (linesOf newline log).filterMap text.parse_jsonl_entry

/-- Nothing of an entry is in the log: its lines hold none, and what follows them is blank. -/
def LogText.Unbegun (log : Bytes) : Prop :=
  text.entries log = [] ∧ (openLine newline log).all is_space = true

end ClaudeCodeBridge.Model.ClaudeSession
