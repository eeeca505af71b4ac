import ClaudeCodeBridge.Model.DispatcherState
import ClaudeCodeBridge.Model.MessageBureau

/-!
# The stores of the dispatcher

What `JobDispatcher` works on: the append-only logs of jobs, job events, submissions and
callback edges, the message bureau, and `DispatcherState` in memory.  One access reads or
appends one record, or reads or replaces the state in memory; the accesses of the bureau
keep their own grain.  The names are the source's (`lib/ccbd/services/dispatcher_runtime`
`records.py`, `lib/jobs/store.py`, `lib/message_bureau/callback_edges.py`).

What the daemon asks of the world outside its stores (the clock, the agents that are
alive, the provider executions, the texts it composes) is an `DispatcherEnvironment`, which each
operation brings with it.
-/

set_option autoImplicit false

namespace ClaudeCodeBridge.Model

open Program

/-- The types of the job events, with the payload keys that modelled code reads. -/
inductive JobEventType where
  | job_accepted | job_queued | job_started
  | job_completed | job_cancelled | job_failed | job_incomplete
  | job_cancel_requested | completion_terminal | job_delegated_chain
  | job_retry_scheduled | job_retry_failed | job_retry_exhausted
  | job_retry_skipped_nonretryable
  | callback_edge_created | chain_continuation_submitted
  | provider_start_attempt | provider_start_failed | provider_start_skipped
  | provider_submission_missing | provider_submission_created
  | preclaim_provider_failure_deferred | execution_restore_failed
  | reply_delivery_scheduled (inbound_event_id : EventId)
  | reply_delivery_consumed (inbound_event_id : EventId)
  | reply_delivery_terminal_after_delivery (inbound_event_id : EventId)
  | reply_delivery_abandoned (inbound_event_id : EventId)
  | reply_delivery_requeued (inbound_event_id : EventId)
  | reply_delivery_pending_stall_repaired (inbound_event_id : EventId)
  deriving DecidableEq

structure JobEvent where
  job_id : JobId
  agent_name : AgentName
  type : JobEventType
  timestamp : Timestamp
  deriving DecidableEq

structure SubmissionRecord where
  submission_id : SubmissionId
  from_actor : Actor
  task_id : Option ℕ
  job_ids : List JobId
  created_at : Timestamp
  updated_at : Timestamp
  deriving DecidableEq

inductive CallbackEdgeState where
  | pending | child_completed | continuation_submitted | done | failed | timed_out
  deriving DecidableEq

/-- `_TERMINAL_CALLBACK_STATES`. -/
def CallbackEdgeState.terminal : CallbackEdgeState → Bool
  | continuation_submitted | done | failed | timed_out => true
  | pending | child_completed => false

/-- `{DONE, FAILED, TIMED_OUT}`. -/
def CallbackEdgeState.closed : CallbackEdgeState → Bool
  | done | failed | timed_out => true
  | pending | child_completed | continuation_submitted => false

structure CallbackEdgeRecord where
  edge_id : EdgeId
  parent_job_id : JobId
  parent_message_id : MessageId
  parent_agent : AgentName
  child_job_id : JobId
  child_message_id : MessageId
  callback_target_agent : AgentName
  original_caller : Actor
  original_task_id : Option ℕ
  state : CallbackEdgeState
  child_reply_id : Option ReplyId
  child_status : Option JobStatus
  continuation_job_id : Option JobId
  continuation_message_id : Option MessageId
  created_at : Timestamp
  updated_at : Timestamp
  /-- The keys of `diagnostics` from here on. -/
  child_agent : AgentName
  parent_body : String
  child_body : String
  allowed_chain_targets : List AgentName
  bind_chain_workspace_tree : Bool
  failure_reason : Option String
  failure_detail : Option String
  deriving DecidableEq

/-- What the dispatcher reads of an agent's specification. -/
structure AgentSpec where
  name : AgentName
  provider : ProviderName
  dispatch_disabled : Bool
  /-- `queue_policy is QueuePolicy.REJECT_WHEN_BUSY`. -/
  reject_when_busy : Bool
  deriving DecidableEq

structure DispatcherConfig where
  agents : List AgentSpec
  max_callback_depth : ℕ
  known_mailboxes : List AgentName
  deriving DecidableEq

/-- `config.agents`, as it is iterated over. -/
def DispatcherConfig.agent_names (config : DispatcherConfig) : List AgentName :=
  config.agents.map fun spec => spec.name

/-- What a provider start came to. -/
inductive StartOutcome where
  | raised
  | missing
  /-- `passive` stands for the submission modes `error` and `passive`. -/
  | submitted (passive : Bool)
  deriving DecidableEq

/-- The verdict of `draft_preclaim`. -/
inductive PreclaimOutcome where
  | allowed | blocked
  | terminal_failure (reason : String)
  deriving DecidableEq

/-- What a restored execution came to. -/
inductive RestoreOutcome where
  | restored
  | terminal_pending (decision : TerminalDecision)
  | abandoned (decision : TerminalDecision)
  deriving DecidableEq

/-- What the dispatcher asks of the world outside its stores. -/
structure DispatcherEnvironment where
  /-- The clock and the lifetime of a delivery lease. -/
  service : MailboxKernelService
  drain_blocks : AgentName → Bool
  /-- `registry.list_alive`. -/
  list_alive : List AgentName
  /-- The agent has a runtime slot in which a job may be started. -/
  runnable : AgentName → Bool
  /-- The tree of the parent's workspace, by `git`. -/
  bind_workspace_tree : JobRecord → Except Failure Unit
  preclaim : JobRecord → PreclaimOutcome
  should_start : JobRecord → Bool
  start : JobRecord → StartOutcome
  /-- The job is among the executions in memory. -/
  live : JobId → Bool
  /-- A file of the job's execution is there. -/
  persisted : JobId → Bool
  persisted_decision : JobId → Option TerminalDecision
  restore : JobRecord → RestoreOutcome
  /-- What the provider had replied when the job was cancelled. -/
  cancel_reply : JobId → String
  /-- `snapshot.state.anchor_seen` when the job was cancelled. -/
  cancel_anchor_seen : JobId → Bool
  /-- `_pending_delivery_is_stalled`. -/
  pending_stalled : JobRecord → Bool
  /-- `merge_terminal_decision` and what else completes a decision. -/
  settle : JobRecord → TerminalDecision → CompletionDecision
  /-- `is_retryable_failure`. -/
  retryable : RetryPolicy → JobRecord → CompletionDecision → Bool
  /-- `_should_retry_with_continue`. -/
  retry_with_continue : JobRecord → Bool
  /-- `with_retry_failure_reply`. -/
  retry_failure_reply : CompletionDecision → CompletionDecision
  /-- `with_timeout_inspection_reply`, or `with_nonretryable_api_failure_reply` with its
  event. -/
  failure_reply : CompletionDecision → Option (CompletionDecision × Bool)
  /-- `_empty_result_notice_decision`. -/
  result_notice : JobRecord → CompletionDecision → Option CompletionDecision
  /-- `_running_stale_reason`. -/
  running_stale_reason : JobRecord → Option String
  /-- `format_reply_delivery_body`. -/
  reply_delivery_body : ReplyRecord → String
  /-- `_continuation_body`. -/
  continuation_body : CallbackEdgeRecord → JobRecord → CompletionDecision → String

def DispatcherEnvironment.clock (env : DispatcherEnvironment) : Timestamp := env.service.clock

structure DispatcherStore where
  jobs : List JobRecord
  events : List JobEvent
  submissions : List SubmissionRecord
  edges : List CallbackEdgeRecord
  bureau : BureauStore
  state : DispatcherState
  /-- The jobs that `ExecutionService.start` was called with, one entry a call. -/
  starts : List JobId
  /-- The jobs that `record_reply` was called with, one entry a call; like `starts`, no
  function reads it. -/
  replied : List JobId

/-- The accesses to the stores of the dispatcher, by name. -/
inductive DispatcherAccess where
  | append_job (job : JobRecord) | find_job | list_jobs
  | append_event (event : JobEvent) | read_events
  | append_submission | find_submission
  | append_edge (edge : CallbackEdgeRecord) | find_edge
  | read_state | update_state
  | start_execution (job_id : JobId)
  | record_reply (job_id : JobId)
  | bureau (access : BureauAccess)

abbrev DispatcherM := Prog DispatcherAccess DispatcherStore Failure

/-- What the stores are when the project is new. -/
def DispatcherStore.empty (agent_names : List AgentName) : DispatcherStore :=
  { jobs := []
    events := []
    submissions := []
    edges := []
    bureau := BureauStore.empty
    state := DispatcherState.init agent_names
    starts := []
    replied := [] }

/-- A call of the message bureau. -/
def onBureau {α : Type} (p : BureauM α) : DispatcherM α :=
  p.zoom .bureau (fun s => s.bureau) fun bureau s => { s with bureau := bureau }

theorem run_onBureau {α : Type} (p : BureauM α) (s : DispatcherStore) :
    (onBureau p).run s = ((p.run s.bureau).1, { s with bureau := (p.run s.bureau).2 }) := by
  refine Prog.run_zoom ?_ ?_ ?_ p s
  · exact fun _ _ => rfl
  · exact fun _ _ _ => rfl
  · exact fun _ => rfl

/-- `dispatcher._new_id`. -/
def dispatcher_new_id : DispatcherM ℕ := onBureau new_id

namespace JobStore

def append (job : JobRecord) : DispatcherM Unit :=
  Prog.write (.append_job job) fun s => { s with jobs := s.jobs ++ [job] }

def list_agent (agent_name : AgentName) : DispatcherM (List JobRecord) :=
  Prog.read .list_jobs fun s => Model.list_agent s.jobs agent_name

/-- `get_latest` and `get_latest_target`. -/
def get_latest (agent_name : AgentName) (job_id : JobId) : DispatcherM (Option JobRecord) :=
  Prog.read .find_job fun s => latest? (fun r => r.job_id) job_id (Model.list_agent s.jobs agent_name)

end JobStore

namespace JobEventStore

def append (event : JobEvent) : DispatcherM Unit :=
  Prog.write (.append_event event) fun s => { s with events := s.events ++ [event] }

/-- `read_since_target` from the first line on. -/
def read_target (agent_name : AgentName) : DispatcherM (List JobEvent) :=
  Prog.read .read_events fun s => s.events.filter fun e => e.agent_name = agent_name

end JobEventStore

namespace SubmissionStore

def append (record : SubmissionRecord) : DispatcherM Unit :=
  Prog.write .append_submission fun s => { s with submissions := s.submissions ++ [record] }

def get_latest (submission_id : SubmissionId) : DispatcherM (Option SubmissionRecord) :=
  Prog.read .find_submission fun s =>
    latest? (fun r => r.submission_id) submission_id s.submissions

end SubmissionStore

namespace CallbackEdgeStore

/-- `list_latest` of a log of edges. -/
def latestEdges (edges : List CallbackEdgeRecord) : List CallbackEdgeRecord :=
  collapse (fun r => r.edge_id) edges

def append (record : CallbackEdgeRecord) : DispatcherM Unit :=
  Prog.write (.append_edge record) fun s => { s with edges := s.edges ++ [record] }

def list_latest : DispatcherM (List CallbackEdgeRecord) :=
  Prog.read .find_edge fun s => latestEdges s.edges

def get_latest (edge_id : EdgeId) : DispatcherM (Option CallbackEdgeRecord) :=
  Prog.read .find_edge fun s => latest? (fun r => r.edge_id) edge_id s.edges

def get_latest_for_child_job (child_job_id : JobId) : DispatcherM (Option CallbackEdgeRecord) :=
  Prog.read .find_edge fun s =>
    (latestEdges s.edges).find? fun r => r.child_job_id = child_job_id

def get_latest_for_child_message (child_message_id : MessageId) :
    DispatcherM (Option CallbackEdgeRecord) :=
  Prog.read .find_edge fun s =>
    (latestEdges s.edges).find? fun r => r.child_message_id = child_message_id

def get_latest_for_parent_job (parent_job_id : JobId) : DispatcherM (Option CallbackEdgeRecord) :=
  Prog.read .find_edge fun s =>
    (latestEdges s.edges).find? fun r => r.parent_job_id = parent_job_id

/-- `update`, the changes already made. -/
def update (record : CallbackEdgeRecord) : DispatcherM CallbackEdgeRecord := do
  append record
  return record

end CallbackEdgeStore

def onState {α : Type} (g : DispatcherState → α) : DispatcherM α :=
  Prog.read .read_state fun s => g s.state

/-- Replace the state in memory. -/
def updateState (f : DispatcherState → DispatcherState) : DispatcherM Unit :=
  Prog.write .update_state fun s => { s with state := f s.state }

/-- The loop of `get_job` over the agents: what it finds it remembers. -/
def find_job (job_id : JobId) : List AgentName → DispatcherM (Option JobRecord)
  | [] => return none
  | candidate :: candidates => do
    let record ← JobStore.get_latest candidate job_id
    match record with
    | some record =>
      updateState fun s => s.remember_job job_id candidate
      return some record
    | none => find_job job_id candidates

def get_job (config : DispatcherConfig) (job_id : JobId) : DispatcherM (Option JobRecord) := do
  let target ← onState fun s => s.target_for_job job_id
  match target with
  | some target => JobStore.get_latest target job_id
  | none => find_job job_id config.agent_names

def append_job (record : JobRecord) : DispatcherM Unit := do
  JobStore.append record
  updateState fun s => s.record record

def append_event (record : JobRecord) (type : JobEventType) (timestamp : Timestamp) :
    DispatcherM Unit :=
  JobEventStore.append ⟨record.job_id, record.agent_name, type, timestamp⟩

/-- The job ids of the pending events of a mailbox (`fifo_order.py`). -/
def mailbox_pending_job_order (events : List InboundEventRecord) : List JobId :=
  events.filterMap fun event =>
    match event.event_type, event.payload_ref with
    | .task_request, some (.job job_id) => some job_id
    | .task_reply, some (.reply _ delivery_job_id) => delivery_job_id
    | _, _ => none

/-- `rebuild_dispatcher_state`, as a function of the stores. -/
def rebuilt_state (config : DispatcherConfig) (s : DispatcherStore) : DispatcherState :=
  DispatcherState.rebuild (list_agent s.jobs) config.agent_names fun agent_name =>
    mailbox_pending_job_order
      (MailboxKernel.pendingOf (MailboxKernel.standing (s.bureau.mailboxes agent_name).inbox))

/-- The daemon stops, and a new one starts on the same files. -/
def restarted (config : DispatcherConfig) (s : DispatcherStore) : DispatcherStore :=
  { s with state := rebuilt_state config s }

end ClaudeCodeBridge.Model
