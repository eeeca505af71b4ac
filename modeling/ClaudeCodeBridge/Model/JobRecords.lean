import ClaudeCodeBridge.Model.MailboxStore

/-!
# Jobs and the requests behind them

The job records of the dispatcher (`lib/ccbd/api_models_runtime`), with the request
envelope and the completion decision they carry.  An option dictionary of the source is
a structure of the keys that modelled code reads; an agent is its own target, as
`TargetKind` has no other member.
-/

set_option autoImplicit false

namespace ClaudeCodeBridge.Model

abbrev EdgeId := ℕ
abbrev SubmissionId := ℕ
abbrev ProviderName := String

/-- What `str.strip` takes off. -/
def isSpaceChar (c : Char) : Bool :=
  let n := c.toNat
  (9 ≤ n && n ≤ 13) || (28 ≤ n && n ≤ 32) || n = 0x85 || n = 0xA0 || n = 0x1680
    || (0x2000 ≤ n && n ≤ 0x200A) || n = 0x2028 || n = 0x2029 || n = 0x202F || n = 0x205F
    || n = 0x3000

/-- `NON_AGENT_ACTORS` and the agents. -/
inductive Actor where
  | agent (name : AgentName)
  | cmd | user | system | manual | email | maintenance_heartbeat
  deriving DecidableEq, Repr

inductive DeliveryScope where
  | single | broadcast
  deriving DecidableEq

inductive MessageType where
  | ask | reply_delivery | chain_continuation
  | other (name : String)
  deriving DecidableEq

inductive RouteMode where
  | chain | chain_continuation
  deriving DecidableEq

structure RouteOptions where
  mode : Option RouteMode
  chain_edge_id : Option EdgeId
  chain_parent_job_id : Option JobId
  notify_sender : Bool
  /-- A job that is restricted to these names them, any other none. -/
  allowed_chain_targets : List AgentName
  bind_chain_workspace_tree : Bool
  deriving DecidableEq

/-- `{}`. -/
def RouteOptions.empty : RouteOptions := ⟨none, none, none, false, [], false⟩

/-- What a request may name in `reply_to`; the ids of the three kinds are disjoint. -/
inductive ReplyTo where
  | attempt (id : AttemptId)
  | job (id : JobId)
  | message (id : MessageId)
  deriving DecidableEq

structure MessageEnvelope where
  /-- `none` is `all`. -/
  to_agent : Option AgentName
  from_actor : Actor
  body : String
  task_id : Option ℕ
  reply_to : Option ReplyTo
  message_type : MessageType
  delivery_scope : DeliveryScope
  silence_on_success : Bool
  route_options : RouteOptions
  deriving DecidableEq

inductive JobStatus where
  | accepted | queued | running | completed | cancelled | failed | incomplete
  deriving DecidableEq, Repr

/-- The statuses with a terminal event (`_terminal_event_by_status`). -/
def JobStatus.terminal : JobStatus → Bool
  | completed | cancelled | failed | incomplete => true
  | accepted | queued | running => false

/-- `_PENDING_STATES`. -/
def JobStatus.pending : JobStatus → Bool
  | accepted | queued => true
  | running | completed | cancelled | failed | incomplete => false

inductive CompletionStatus where
  | completed | cancelled | failed | incomplete
  deriving DecidableEq

/-- `JobStatus(decision.status.value)`. -/
def CompletionStatus.toJobStatus : CompletionStatus → JobStatus
  | completed => .completed
  | cancelled => .cancelled
  | failed => .failed
  | incomplete => .incomplete

inductive CompletionSourceKind where
  | protocol_event_stream | structured_result_stream | session_event_log | session_snapshot
  | terminal_text
  deriving DecidableEq

/-- The values of the two keys of `diagnostics` that name a completion's source. -/
inductive CompletionSource where
  | kind (source_kind : CompletionSourceKind)
  | provider_event_stream | terminal_capture | provider_native_log
  | herdr_agent_state | herdr_agent_state_ref
  | other (name : String)
  deriving DecidableEq

/-- The keys of an option dictionary `diagnostics` that modelled code reads. -/
structure Diagnostics where
  /-- The prompt of a reply delivery reached the provider. -/
  delivery_accepted : Bool
  /-- Without it a reply is no notice. -/
  notice_kind : Option String
  error_type : Option String
  completion_source_kind : Option CompletionSource
  completion_source : Option CompletionSource
  deriving DecidableEq

/-- `{}`. -/
def Diagnostics.empty : Diagnostics := ⟨false, none, none, none, none⟩

structure CompletionDecision where
  terminal : Bool
  status : CompletionStatus
  reason : String
  reply : String
  anchor_seen : Bool
  /-- `source_cursor.source_kind`. -/
  source_kind : Option CompletionSourceKind
  finished_at : Option Timestamp
  diagnostics : Diagnostics
  deriving DecidableEq

/-- What `complete` accepts. -/
abbrev TerminalDecision := { decision : CompletionDecision // decision.terminal = true }

structure ProviderOptions where
  no_wrap : Bool
  reply_delivery : Bool
  reply_delivery_inbound_event_id : Option EventId
  reply_delivery_reply_id : Option ReplyId
  deriving DecidableEq

/-- `{}`. -/
def ProviderOptions.empty : ProviderOptions := ⟨false, false, none, none⟩

structure JobRecord where
  job_id : JobId
  submission_id : Option SubmissionId
  agent_name : AgentName
  provider : ProviderName
  request : MessageEnvelope
  status : JobStatus
  terminal_decision : Option CompletionDecision
  cancel_requested_at : Option Timestamp
  created_at : Timestamp
  updated_at : Timestamp
  provider_options : ProviderOptions
  deriving DecidableEq

end ClaudeCodeBridge.Model
