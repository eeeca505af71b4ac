import ClaudeCodeBridge.Model.RelayCrypto
import ClaudeCodeBridge.Program.KeyedLog
import ClaudeCodeBridge.Program.Retention

/-!
# Mobile notifications

`lib/mobile_gateway/notifications.py`: the journals of completions and invalidations, the
state file from which their changes are told, and the events after a cursor.  Journals and
state are replaced as whole files, and the process may stop before either replacement.

A record with a text that `splitlines` divides, json writing only NEL, LS and PS as they are,
is in no line of its file and is dropped by the next reader (`read_events`).  A text with a
surrogate is not written, and the call stops before its journal.

An id is its sequence number, with or without `resync`.  The keys that the source joins
from project, agent and epoch are tuples here, since project ids are hexadecimal and agent
names hold letters, digits, `_` and `-`.
-/

set_option autoImplicit false

namespace ClaudeCodeBridge.Model.Notification

open Program
open Model.Relay (strip)

inductive Activity where
  | active
  | idle
  | failed
  | unknown
  deriving DecidableEq

def Activity.text : Activity → Text
  | .active => asciiText "active"
  | .idle => asciiText "idle"
  | .failed => asciiText "failed"
  | .unknown => asciiText "unknown"

/-- `str.lower` of ASCII capitals; another one with an ASCII lower-case letter is only the
Kelvin sign, and no name of a state holds a `k`. -/
def lower (text : Text) : Text :=
  text.map fun c => if 65 ≤ c.val ∧ c.val ≤ 90 then Fin.ofNat 0x110000 (c.val + 32) else c

def canonical_activity_state (value : Text) : Activity :=
  let state := lower (strip value)
  if state ∈ [asciiText "active", asciiText "pending"] then .active
  else if state ∈ [asciiText "idle", asciiText "free"] then .idle
  else if state ∈ [asciiText "exception", asciiText "failed"] then .failed
  else .unknown

structure NotificationSnapshot where
  project_id : Text
  project_short_name : Text
  namespace_epoch : Option ℤ
  agent : Text
  activity_state : Text
  observed_at : Text
  deriving DecidableEq

/-- No NEL, LS or PS. -/
def one_line (text : Text) : Bool := text.all fun c => c.val ∉ [0x85, 0x2028, 0x2029]

def NotificationSnapshot.one_line (snapshot : NotificationSnapshot) : Bool :=
  [snapshot.project_id, snapshot.project_short_name, snapshot.agent, snapshot.observed_at].all
    Notification.one_line

structure InvalidationSnapshot extends NotificationSnapshot where
  conversation_fingerprint : Text
  deriving DecidableEq

/-- The project and the agent. -/
abbrev SnapshotKey := Text × Text

def NotificationSnapshot.snapshot_key (snapshot : NotificationSnapshot) : SnapshotKey :=
  (snapshot.project_id, snapshot.agent)

inductive EventId where
  | event (sequence : ℕ)
  | resync (sequence : ℕ)
  deriving DecidableEq

/-- `_event_sequence_from_id`. -/
def EventId.sequence : EventId → ℕ
  | .event sequence => sequence
  | .resync sequence => sequence

inductive EventKind where
  | task_completed
  | project_summary_changed
  | agent_activity_changed
  | conversation_changed
  | resync_required
  deriving DecidableEq

/-- A fingerprint stands for its digest. -/
inductive DedupeKey where
  | completion (project_id : Text) (namespace_epoch : Option ℤ) (agent : Text)
      (completion_sequence : ℕ)
  | invalidation (kind : EventKind) (project_id : Text) (namespace_epoch : Option ℤ)
      (agent : Text) (fingerprint : Text)
  | resync (newest : ℕ)
  deriving DecidableEq

structure Event where
  id : EventId
  kind : EventKind
  project_id : Text
  project_short_name : Text
  agent : Text
  completed_at : Text
  dedupe_key : DedupeKey
  namespace_epoch : Option ℤ := none
  scope : Option Text := none
  activity_state : Option Activity := none
  deriving DecidableEq

/-- `_event_sequence`. -/
def Event.sequence (event : Event) : ℕ := event.id.sequence

/-- The other texts of a record have only ASCII characters or repeat these. -/
def Event.one_line (event : Event) : Bool :=
  [event.project_id, event.project_short_name, event.agent, event.completed_at].all
    Notification.one_line

/-- `_events_from_records(_read_jsonl(path))`. -/
def read_events (journal : List Event) : List Event := journal.filter Event.one_line

abbrev RecordKey := Text × Text × EventKind × Option ℤ

/-- The key of an invalidation, `none` for another event. -/
def Event.invalidation_record_key (event : Event) : Option RecordKey :=
  if event.kind ∈ [.project_summary_changed, .agent_activity_changed, .conversation_changed] then
    some (event.project_id, event.agent, event.kind, event.namespace_epoch)
  else none

def next_sequence_after (events : List Event) : ℕ := maxRank Event.sequence events + 1

/-- The limits that the constructor is given. -/
structure Limits where
  recent : ℤ
  completion : ℤ
  deriving DecidableEq

def Limits.recent_limit (limits : Limits) : ℕ := (max 1 limits.recent).toNat

def Limits.completion_limit (limits : Limits) : ℕ :=
  (max (max 1 limits.recent) limits.completion).toNat

structure AgentState where
  namespace_epoch : Option ℤ
  activity_state : Activity
  completion_sequence : ℕ
  deriving DecidableEq

structure InvalidationState where
  namespace_epoch : Option ℤ
  activity_state : Activity
  conversation_fingerprint : Text
  deriving DecidableEq

structure NotificationState where
  next_event_sequence : ℕ
  agents : SnapshotKey → Option AgentState
  invalidations : SnapshotKey → Option InvalidationState

/-- The files of the store. -/
structure NotificationStore where
  /-- The mixed journal of earlier versions, which is only read. -/
  legacy : List Event
  completion_journal : List Event
  invalidation_journal : List Event
  state : NotificationState
  /-- Every event of a call that got as far as to write its journal. -/
  emitted : List Event
  /-- The snapshots of the calls of `sync_snapshots` that got as far. -/
  given : List NotificationSnapshot

namespace NotificationStore

/-- A new directory. -/
def empty : NotificationStore :=
  { legacy := []
    completion_journal := []
    invalidation_journal := []
    state := { next_event_sequence := 1, agents := fun _ => none, invalidations := fun _ => none }
    emitted := []
    given := [] }

variable (limits : Limits)

def completion_events (store : NotificationStore) : List Event :=
  let current := read_events store.completion_journal
  if current ≠ [] then current
  else
    lastOnes limits.completion_limit
      ((read_events store.legacy).filter fun event => event.kind = .task_completed)

def invalidation_events (store : NotificationStore) : List Event :=
  let current := read_events store.invalidation_journal
  if current ≠ [] then current
  else
    lastOnes limits.recent_limit
      ((read_events store.legacy).filter fun event => event.kind ≠ .task_completed)

/-- Where a call stops, if it does. -/
inductive Stop where
  | before_events
  | before_state
  deriving DecidableEq

end NotificationStore

def is_task_completion_transition (prior : Option AgentState) (activity_state : Activity)
    (namespace_epoch : Option ℤ) : Bool :=
  match prior with
  | none => false
  | some prior =>
    prior.activity_state = .active && activity_state ∈ [.idle, .failed] &&
      prior.namespace_epoch.isSome && prior.namespace_epoch = namespace_epoch

def dedupe_key (snapshot : NotificationSnapshot) (completion_sequence : ℕ) : DedupeKey :=
  .completion snapshot.project_id snapshot.namespace_epoch snapshot.agent completion_sequence

/-- What the loop of `sync_snapshots` changes. -/
structure CompletionPass where
  next_event_sequence : ℕ
  agents : SnapshotKey → Option AgentState
  completions : List Event
  existing : List DedupeKey
  emitted : List Event

namespace CompletionPass

/-- `_next_event_id`, which never gives 0. -/
def next_sequence (pass : CompletionPass) : ℕ := max 1 pass.next_event_sequence

def completion_event (sequence : ℕ) (snapshot : NotificationSnapshot) (key : DedupeKey) : Event :=
  { id := .event sequence
    kind := .task_completed
    project_id := snapshot.project_id
    project_short_name := snapshot.project_short_name
    agent := snapshot.agent
    completed_at := snapshot.observed_at
    dedupe_key := key }

/-- The event of a transition, unless its key is there already. -/
def complete (pass : CompletionPass) (snapshot : NotificationSnapshot) (key : DedupeKey) :
    CompletionPass :=
  if key ∈ pass.existing then pass
  else
    let event := completion_event pass.next_sequence snapshot key
    { pass with
      next_event_sequence := pass.next_sequence + 1
      completions := pass.completions ++ [event]
      existing := key :: pass.existing
      emitted := pass.emitted ++ [event] }

def record (pass : CompletionPass) (key : SnapshotKey) (state : AgentState) : CompletionPass :=
  { pass with agents := Function.update pass.agents key (some state) }

def step (pass : CompletionPass) (snapshot : NotificationSnapshot) : CompletionPass :=
  let activity_state := canonical_activity_state snapshot.activity_state
  let key := snapshot.snapshot_key
  let prior := pass.agents key
  let completion_sequence := (prior.map fun prior => prior.completion_sequence).getD 0
  if is_task_completion_transition prior activity_state snapshot.namespace_epoch then
    let completion_sequence := completion_sequence + 1
    (pass.complete snapshot (dedupe_key snapshot completion_sequence)).record key
      ⟨snapshot.namespace_epoch, activity_state, completion_sequence⟩
  else pass.record key ⟨snapshot.namespace_epoch, activity_state, completion_sequence⟩

end CompletionPass

namespace NotificationStore

variable (limits : Limits)

/-- The state at the start of the loop of `sync_snapshots`. -/
def completion_pass (store : NotificationStore) : CompletionPass :=
  let completions := store.completion_events limits
  { next_event_sequence := max store.state.next_event_sequence
      (next_sequence_after (completions ++ store.invalidation_events limits))
    agents := store.state.agents
    completions := completions
    existing := completions.map fun event => event.dedupe_key
    emitted := [] }

def sync_snapshots (store : NotificationStore) (snapshots : List NotificationSnapshot)
    (stop : Option Stop) : NotificationStore :=
  let pass := snapshots.foldl CompletionPass.step (store.completion_pass limits)
  let written := { store with
    completion_journal := lastOnes limits.completion_limit pass.completions
    emitted := store.emitted ++ pass.emitted
    given := store.given ++ snapshots }
  let state := { store.state with
    next_event_sequence := pass.next_event_sequence
    agents := pass.agents }
  match stop with
  | some .before_events => store
  | some .before_state => written
  | none => { written with state := state }

end NotificationStore

/-- What the loops of `sync_invalidations` change. -/
structure InvalidationPass where
  next_event_sequence : ℕ
  agents : SnapshotKey → Option InvalidationState
  /-- The records by their keys. -/
  records : List Event
  emitted : List Event
  /-- The last changed snapshot of each project. -/
  summary_changed : List InvalidationSnapshot

namespace InvalidationPass

def next_sequence (pass : InvalidationPass) : ℕ := max 1 pass.next_event_sequence

/-- `_next_invalidation_event`. -/
def invalidation_event (sequence : ℕ) (snapshot : InvalidationSnapshot) (kind : EventKind)
    (scope : String) (agent : Text) : Event :=
  let activity_state := canonical_activity_state snapshot.activity_state
  let fingerprint :=
    if kind = .agent_activity_changed then activity_state.text
    else snapshot.conversation_fingerprint
  { id := .event sequence
    kind := kind
    project_id := snapshot.project_id
    project_short_name := snapshot.project_short_name
    agent := agent
    completed_at := snapshot.observed_at
    dedupe_key :=
      .invalidation kind snapshot.project_id snapshot.namespace_epoch agent fingerprint
    namespace_epoch := snapshot.namespace_epoch
    scope := some (asciiText scope)
    activity_state := if kind = .agent_activity_changed then some activity_state else none }

/-- A new event stands for its key. -/
def invalidate (pass : InvalidationPass) (snapshot : InvalidationSnapshot) (kind : EventKind)
    (scope : String) (agent : Text) : InvalidationPass :=
  let event := invalidation_event pass.next_sequence snapshot kind scope agent
  { pass with
    next_event_sequence := pass.next_sequence + 1
    records := upsert Event.invalidation_record_key event pass.records
    emitted := pass.emitted ++ [event] }

def note_summary (pass : InvalidationPass) (snapshot : InvalidationSnapshot) : InvalidationPass :=
  { pass with
    summary_changed := upsert (fun snapshot => snapshot.project_id) snapshot pass.summary_changed }

def record (pass : InvalidationPass) (key : SnapshotKey) (state : InvalidationState) :
    InvalidationPass :=
  { pass with agents := Function.update pass.agents key (some state) }

def step (pass : InvalidationPass) (snapshot : InvalidationSnapshot) : InvalidationPass :=
  let activity_state := canonical_activity_state snapshot.activity_state
  let key := snapshot.snapshot_key
  match pass.agents key with
  | none =>
    pass.record key ⟨snapshot.namespace_epoch, activity_state, snapshot.conversation_fingerprint⟩
  | some prior =>
    let activity_changed := activity_state ≠ .unknown ∧ prior.activity_state ≠ activity_state ∨
      prior.namespace_epoch ≠ snapshot.namespace_epoch
    let pass :=
      if activity_changed then
        (pass.invalidate snapshot .agent_activity_changed "agent" snapshot.agent).note_summary
          snapshot
      else pass
    let pass :=
      if prior.conversation_fingerprint ≠ snapshot.conversation_fingerprint then
        pass.invalidate snapshot .conversation_changed "conversation" snapshot.agent
      else pass
    let activity_state := if activity_state = .unknown then prior.activity_state else activity_state
    pass.record key ⟨snapshot.namespace_epoch, activity_state, snapshot.conversation_fingerprint⟩

/-- One project whose agents have changed. -/
def summarize (pass : InvalidationPass) (snapshot : InvalidationSnapshot) : InvalidationPass :=
  pass.invalidate snapshot .project_summary_changed "project" []

end InvalidationPass

namespace NotificationStore

variable (limits : Limits)

/-- The state at the start of the loops of `sync_invalidations`. -/
def invalidation_pass (store : NotificationStore) : InvalidationPass :=
  let records := collapse Event.invalidation_record_key
    ((store.invalidation_events limits).filter fun event => event.invalidation_record_key.isSome)
  { next_event_sequence := max store.state.next_event_sequence
      (next_sequence_after (store.completion_events limits ++ records))
    agents := store.state.invalidations
    records := records
    emitted := []
    summary_changed := [] }

def sync_invalidations (store : NotificationStore) (snapshots : List InvalidationSnapshot)
    (stop : Option Stop) : NotificationStore :=
  let pass := snapshots.foldl InvalidationPass.step (store.invalidation_pass limits)
  let pass := pass.summary_changed.foldl InvalidationPass.summarize pass
  let written := { store with
    invalidation_journal := lastOnes limits.recent_limit (sortedBy Event.sequence pass.records)
    emitted := store.emitted ++ pass.emitted }
  let state := { store.state with
    next_event_sequence := pass.next_event_sequence
    invalidations := pass.agents }
  match stop with
  | some .before_events => store
  | some .before_state => written
  | none => { written with state := state }

/-- Both journals. -/
def events (store : NotificationStore) : List Event :=
  sortedBy Event.sequence (store.completion_events limits ++ store.invalidation_events limits)

def resync_event (newest : ℕ) : Event :=
  { id := .resync newest
    kind := .resync_required
    project_id := []
    project_short_name := []
    agent := []
    completed_at := asciiText "1970-01-01T00:00:00Z"
    dedupe_key := .resync newest
    scope := some (asciiText "resync") }

def events_since (store : NotificationStore) (cursor : Option EventId) : List Event :=
  let events := store.events limits
  match cursor with
  | none => lastOnes limits.recent_limit events
  | some (.resync sequence) => events.filter fun event => sequence < event.sequence
  | some (.event sequence) =>
    let later := events.filter fun event => sequence < event.sequence
    if events.any fun event => event.id = .event sequence then later
    else
      let newest :=
        if events = [] then max (store.state.next_event_sequence - 1) sequence
        else maxRank Event.sequence events
      later ++ [resync_event newest]

end NotificationStore

/-- A client that resumes from the last event it has received. -/
structure Client where
  cursor : Option EventId
  received : List Event

def Client.receive (client : Client) (response : List Event) : Client :=
  { cursor := match response.getLast? with
      | none => client.cursor
      | some event => some event.id
    received := client.received ++ response }

structure Journal where
  store : NotificationStore
  client : Client

namespace Journal

inductive Step where
  | sync_snapshots (snapshots : List NotificationSnapshot) (stop : Option NotificationStore.Stop)
  | sync_invalidations (snapshots : List InvalidationSnapshot)
      (stop : Option NotificationStore.Stop)
  | poll

/-- The texts of the snapshots stay in one line. -/
def Step.one_line : Step → Bool
  | .sync_snapshots snapshots _ => snapshots.all NotificationSnapshot.one_line
  | .sync_invalidations snapshots _ =>
    snapshots.all fun snapshot => snapshot.toNotificationSnapshot.one_line
  | .poll => true

def start : Journal := { store := .empty, client := { cursor := none, received := [] } }

variable (limits : Limits)

def step (journal : Journal) : Step → Journal
  | .sync_snapshots snapshots stop =>
    { journal with store := journal.store.sync_snapshots limits snapshots stop }
  | .sync_invalidations snapshots stop =>
    { journal with store := journal.store.sync_invalidations limits snapshots stop }
  | .poll =>
    { journal with
      client := journal.client.receive (journal.store.events_since limits journal.client.cursor) }

def run (steps : List Step) (journal : Journal) : Journal := steps.foldl (step limits) journal

end Journal

end ClaudeCodeBridge.Model.Notification
