import ClaudeCodeBridge.Program.Prog
import ClaudeCodeBridge.Program.KeyedLog

/-!
# The files of one mailbox

The mailbox kernel keeps three files for each agent: the inbox, an append-only JSONL
of inbound events in which a later line supersedes the earlier ones with its event
id; the delivery lease, a JSON file that is removed on release; and the mailbox
summary, a JSON file that caches what the other two say.  This file has their
records and the store methods through which everything else reads and writes them;
each method call is one atomic access, except `MailboxStore.compare_and_save`, which
is a load followed by a save.

Ids are opaque to the code and stand as naturals, as do timestamps, which the code
only compares.
-/

set_option autoImplicit false

namespace ClaudeCodeBridge.Model

open Program

abbrev AgentName := ℕ
abbrev EventId := ℕ
abbrev MessageId := ℕ
abbrev AttemptId := ℕ
abbrev ReplyId := ℕ
abbrev JobId := ℕ
abbrev Timestamp := ℕ

/-- The exceptions the modelled functions raise, with their texts. -/
inductive Failure where
  | valueError (text : String)
  | dispatchError (text : String)
  deriving DecidableEq

inductive InboundEventType where
  | task_request | task_reply | completion_notice | retry_signal | system_signal
  | barrier_release
  deriving DecidableEq

inductive InboundEventStatus where
  | created | queued | delivering | consumed | superseded | abandoned
  deriving DecidableEq

inductive LeaseState where
  | acquired | released | expired | orphaned
  deriving DecidableEq

inductive MailboxState where
  | idle | delivering | blocked | recovering | degraded
  deriving DecidableEq

/-- `job:<id>`, or `reply:<id>` with an optional `delivery:<id>` token. -/
inductive PayloadRef where
  | job (job_id : JobId)
  | reply (reply_id : ReplyId) (delivery_job_id : Option JobId)
  deriving DecidableEq

structure InboundEventRecord where
  inbound_event_id : EventId
  agent_name : AgentName
  event_type : InboundEventType
  message_id : MessageId
  attempt_id : Option AttemptId
  payload_ref : Option PayloadRef
  priority : ℕ
  status : InboundEventStatus
  created_at : Timestamp
  started_at : Option Timestamp
  finished_at : Option Timestamp
  deriving DecidableEq

structure DeliveryLease where
  agent_name : AgentName
  inbound_event_id : EventId
  lease_version : ℕ
  acquired_at : Timestamp
  last_progress_at : Option Timestamp
  expires_at : Option Timestamp
  lease_state : LeaseState
  deriving DecidableEq

/-- The six `head_*` fields of a mailbox summary. -/
structure SummaryHead where
  head_inbound_event_id : Option EventId
  head_event_type : Option InboundEventType
  head_status : Option InboundEventStatus
  head_message_id : Option MessageId
  head_attempt_id : Option AttemptId
  head_payload_ref : Option PayloadRef
  deriving DecidableEq

/-- Which code path wrote a summary. -/
inductive SummarySource where
  | incremental_upsert | transition_claim | transition_terminal | transition_rewrite_head
  | history_refresh
  deriving DecidableEq

/-- `mbx_<agent>`. -/
inductive MailboxId where
  | mbx (agent_name : AgentName)
  deriving DecidableEq

structure MailboxRecord extends SummaryHead where
  mailbox_id : MailboxId
  agent_name : AgentName
  summary_version : ℕ
  summary_source : SummarySource
  summary_refreshed_at : Timestamp
  active_inbound_event_id : Option EventId
  queue_depth : ℕ
  pending_reply_count : ℕ
  last_inbound_started_at : Option Timestamp
  last_inbound_finished_at : Option Timestamp
  mailbox_state : MailboxState
  lease_version : ℕ
  updated_at : Timestamp
  deriving DecidableEq

/-- `_TERMINAL_EVENT_STATES`. -/
def InboundEventStatus.terminal : InboundEventStatus → Bool
  | consumed | superseded | abandoned => true
  | created | queued | delivering => false

/-- `_CLAIMABLE_EVENT_STATES`. -/
def InboundEventStatus.claimable : InboundEventStatus → Bool
  | created | queued => true
  | delivering | consumed | superseded | abandoned => false

/-- The files of one mailbox.  `lease_saves` is a history variable: it lists every
lease record ever written, oldest first, and no function reads it. -/
structure MailboxFiles where
  inbox : List InboundEventRecord
  lease : Option DeliveryLease
  summary : Option MailboxRecord
  lease_saves : List DeliveryLease
  deriving DecidableEq

/-- No file written yet. -/
def MailboxFiles.empty : MailboxFiles := ⟨[], none, none, []⟩

/-- The accesses to the files of one mailbox, by name.  Loads of the summary are told
apart by what the caller wants from them: its counts (`load_summary`), the version that a
transition expects to replace (`load_expected`), the fields that a rebuild does not
recompute (`load_rebuilt`), the lease version, the version to compare. -/
inductive MailboxAccess where
  | load_summary | load_expected | load_rebuilt | load_lease_version | compare_version
  | reload_summary
  | save_summary
  | append_event (record : InboundEventRecord)
  | scan_inbox | find_event
  | load_lease | save_lease | remove_lease
  deriving DecidableEq

/-- A function of the mailbox kernel, over the files of one mailbox. -/
abbrev MailboxM := Prog MailboxAccess MailboxFiles Failure

namespace MailboxStore

/-- `load`, named by what the caller wants from the record. -/
def load (access : MailboxAccess) : MailboxM (Option MailboxRecord) :=
  Prog.read access fun m => m.summary

def save (record : MailboxRecord) : MailboxM Unit :=
  Prog.write .save_summary fun m => { m with summary := some record }

/-- A load followed by a save: not atomic. -/
def compare_and_save (record : MailboxRecord) (expected_summary_version : Option ℕ) :
    MailboxM Bool := do
  let current ← load .compare_version
  if current.map (fun c => c.summary_version) ≠ expected_summary_version then
    return false
  else
    save record
    return true

end MailboxStore

namespace InboundEventStore

def append (record : InboundEventRecord) : MailboxM Unit :=
  Prog.write (.append_event record) fun m => { m with inbox := m.inbox ++ [record] }

def list_agent : MailboxM (List InboundEventRecord) := Prog.read .scan_inbox fun m => m.inbox

def get_latest (inbound_event_id : EventId) : MailboxM (Option InboundEventRecord) :=
  Prog.read .find_event fun m => latest? (fun r => r.inbound_event_id) inbound_event_id m.inbox

def get_latest_for_attempt (attempt_id : AttemptId) : MailboxM (Option InboundEventRecord) :=
  Prog.read .find_event fun m => latest? (fun r => r.attempt_id) (some attempt_id) m.inbox

end InboundEventStore

namespace DeliveryLeaseStore

def load : MailboxM (Option DeliveryLease) := Prog.read .load_lease fun m => m.lease

def save (record : DeliveryLease) : MailboxM Unit :=
  Prog.write .save_lease fun m =>
    { m with lease := some record, lease_saves := m.lease_saves ++ [record] }

def remove : MailboxM Unit := Prog.write .remove_lease fun m => { m with lease := none }

end DeliveryLeaseStore

end ClaudeCodeBridge.Model
