import ClaudeCodeBridge.Model.JobRecords
import ClaudeCodeBridge.Model.MailboxCalls

/-!
# The message bureau

`lib/message_bureau`: messages, the attempts to have them answered, and the replies, each
an append-only log, beside the mailboxes through which requests and replies travel.
Every record function here appends to a log and to a mailbox and then moves the mailbox
summary.  `new_id` draws from a counter: the ids of the source are random and never
repeat.
-/

set_option autoImplicit false

namespace ClaudeCodeBridge.Model

open Program

inductive MessageState where
  | created | queued | dispatching | running | partially_replied | completed | incomplete
  | failed | cancelled | dead_letter
  deriving DecidableEq

inductive AttemptState where
  | pending | delivering | running | waiting_completion | reply_ready | stalled
  | runtime_dead | failed | incomplete | cancelled | superseded | dead_letter | completed
  deriving DecidableEq

inductive ReplyTerminalStatus where
  | completed | incomplete | failed | cancelled
  deriving DecidableEq

inductive RetryMode where
  | auto | manual
  deriving DecidableEq

/-- The keys of `retry_policy`. -/
structure RetryPolicy where
  mode : RetryMode
  max_attempts : Option ℕ
  retryable_reasons : List String
  retry_runtime_when_resume_supported : Option Bool
  retryable_runtime_reasons : List String
  deriving DecidableEq

/-- The policy of a message that `record_submission` appends. -/
def RetryPolicy.submission : RetryPolicy :=
  { mode := .auto
    max_attempts := some 3
    retryable_reasons := ["api_error", "transport_error"]
    retry_runtime_when_resume_supported := some true
    retryable_runtime_reasons := ["pane_dead", "pane_unavailable"] }

/-- `{'mode': 'manual'}`. -/
def RetryPolicy.manual : RetryPolicy := ⟨.manual, none, [], none, []⟩

structure MessageRecord where
  message_id : MessageId
  origin_message_id : Option MessageId
  from_actor : Actor
  target_scope : DeliveryScope
  target_agents : List AgentName
  message_class : MessageType
  retry_policy : RetryPolicy
  priority : ℕ
  submission_id : Option SubmissionId
  created_at : Timestamp
  updated_at : Timestamp
  message_state : MessageState
  deriving DecidableEq

structure AttemptRecord where
  attempt_id : AttemptId
  message_id : MessageId
  agent_name : AgentName
  provider : ProviderName
  job_id : JobId
  retry_index : ℕ
  started_at : Timestamp
  updated_at : Timestamp
  attempt_state : AttemptState
  deriving DecidableEq

structure ReplyRecord where
  reply_id : ReplyId
  message_id : MessageId
  attempt_id : AttemptId
  agent_name : AgentName
  terminal_status : ReplyTerminalStatus
  reply : String
  /-- `diagnostics['notice']`. -/
  notice : Bool
  finished_at : Timestamp
  deriving DecidableEq

/-- `_TERMINAL_ATTEMPT_STATES`. -/
def AttemptState.terminal : AttemptState → Bool
  | completed | incomplete | failed | cancelled | superseded | dead_letter => true
  | pending | delivering | running | waiting_completion | reply_ready | stalled
  | runtime_dead => false

structure BureauStore where
  messages : List MessageRecord
  attempts : List AttemptRecord
  replies : List ReplyRecord
  mailboxes : Mailboxes
  /-- Every id below it has been given out. -/
  next_id : ℕ

/-- No record and no mailbox yet. -/
def BureauStore.empty : BureauStore := ⟨[], [], [], Mailboxes.empty, 0⟩

/-- The accesses to the stores of the bureau, by name. -/
inductive BureauAccess where
  | new_id
  | append_message | find_message
  | append_attempt | find_attempt | list_attempts
  | append_reply (reply : ReplyRecord) | find_reply | list_replies
  | mailbox (agent_name : AgentName) (access : MailboxAccess)
  deriving DecidableEq

abbrev BureauM := Prog BureauAccess BureauStore Failure

/-- A mailbox kernel call from the bureau. -/
def onMailbox {α : Type} (agent_name : AgentName) (p : MailboxM α) : BureauM α :=
  (atMailbox agent_name p).zoom (fun l => .mailbox l.1 l.2) (fun s => s.mailboxes)
    (fun mailboxes s => { s with mailboxes := mailboxes })

theorem run_onMailbox {α : Type} (agent_name : AgentName) (p : MailboxM α) (s : BureauStore) :
    (onMailbox agent_name p).run s =
      ((p.run (s.mailboxes agent_name)).1,
        { s with
          mailboxes := Function.update s.mailboxes agent_name
            (p.run (s.mailboxes agent_name)).2 }) := by
  refine (Prog.run_zoom ?_ ?_ ?_ _ s).trans ?_
  · exact fun _ _ => rfl
  · exact fun _ _ _ => rfl
  · exact fun _ => rfl
  · rw [run_atMailbox]

def new_id : BureauM ℕ :=
  Prog.update .new_id (fun s => s.next_id) fun s => { s with next_id := s.next_id + 1 }

namespace MessageStore

def append (record : MessageRecord) : BureauM Unit :=
  Prog.write .append_message fun s => { s with messages := s.messages ++ [record] }

def get_latest (message_id : MessageId) : BureauM (Option MessageRecord) :=
  Prog.read .find_message fun s => latest? (fun r => r.message_id) message_id s.messages

end MessageStore

namespace AttemptStore

def append (record : AttemptRecord) : BureauM Unit :=
  Prog.write .append_attempt fun s => { s with attempts := s.attempts ++ [record] }

def get_latest (attempt_id : AttemptId) : BureauM (Option AttemptRecord) :=
  Prog.read .find_attempt fun s => latest? (fun r => r.attempt_id) attempt_id s.attempts

def get_latest_by_job_id (job_id : JobId) : BureauM (Option AttemptRecord) :=
  Prog.read .find_attempt fun s => latest? (fun r => r.job_id) job_id s.attempts

def list_message (message_id : MessageId) : BureauM (List AttemptRecord) :=
  Prog.read .list_attempts fun s => s.attempts.filter fun r => r.message_id = message_id

end AttemptStore

namespace ReplyStore

def append (record : ReplyRecord) : BureauM Unit :=
  Prog.write (.append_reply record) fun s => { s with replies := s.replies ++ [record] }

def get_latest (reply_id : ReplyId) : BureauM (Option ReplyRecord) :=
  Prog.read .find_reply fun s => latest? (fun r => r.reply_id) reply_id s.replies

def list_message (message_id : MessageId) : BureauM (List ReplyRecord) :=
  Prog.read .list_replies fun s => s.replies.filter fun r => r.message_id = message_id

end ReplyStore

namespace MessageBureau

variable (service : MailboxKernelService)

def resolve_origin_message_id (reply_to : Option ReplyTo) : BureauM (Option MessageId) := do
  match reply_to with
  | none => return none
  | some (.attempt id) =>
    let attempt ← AttemptStore.get_latest id
    return attempt.map fun a => a.message_id
  | some (.job id) =>
    let attempt ← AttemptStore.get_latest_by_job_id id
    return attempt.map fun a => a.message_id
  | some (.message id) =>
    let message ← MessageStore.get_latest id
    return message.map fun m => m.message_id

def set_message_state (message_id : MessageId) (next_state : MessageState)
    (updated_at : Timestamp) : BureauM Unit := do
  let current ← MessageStore.get_latest message_id
  match current with
  | none => return ()
  | some current =>
    if current.message_state = next_state then return ()
    else
      MessageStore.append { current with updated_at := updated_at, message_state := next_state }

/-- `max` over the attempts of one agent, plus one. -/
def next_retry_index (message_id : MessageId) (agent_name : AgentName) : BureauM ℕ := do
  let attempts ← AttemptStore.list_message message_id
  return (attempts.filter fun r => r.agent_name = agent_name).foldl
    (fun latest r => max latest (r.retry_index + 1)) 0

def terminal_replies (replies : List ReplyRecord) : List ReplyRecord :=
  let terminal := replies.filter fun reply => !reply.notice
  if terminal.isEmpty then replies else terminal

/-- `_reply_terminal_state`, for the statuses of at least one reply. -/
def reply_terminal_state (statuses : List ReplyTerminalStatus) : MessageState :=
  if statuses.all fun s => s = .completed then .completed
  else if statuses.all fun s => s = .cancelled then .cancelled
  else if statuses.contains .failed then .failed
  else if statuses.contains .incomplete then .incomplete
  else .completed

/-- `_attempt_terminal_state`, for the states of at least one attempt. -/
def attempt_terminal_state (states : List AttemptState) : MessageState :=
  match states.dedup with
  | [.completed] => .completed
  | [.failed] => .failed
  | [.cancelled] => .cancelled
  | [_] => .incomplete
  | _ =>
    if states.contains .failed then .failed
    else if states.contains .incomplete then .incomplete
    else .completed

def next_message_state (attempts : List AttemptRecord) (replies : List ReplyRecord) :
    MessageState :=
  if attempts.any fun a => !a.attempt_state.terminal then
    if replies.isEmpty then .running else .partially_replied
  else
    let statuses := (terminal_replies replies).map fun reply => reply.terminal_status
    if statuses.isEmpty then
      attempt_terminal_state (attempts.map fun a => a.attempt_state)
    else reply_terminal_state statuses

def refresh_message_state (message_id : MessageId) (updated_at : Timestamp) : BureauM Unit := do
  let message ← MessageStore.get_latest message_id
  match message with
  | none => return ()
  | some _ =>
    let records ← AttemptStore.list_message message_id
    let attempts := collapse (fun r => r.attempt_id) records
    if attempts.isEmpty then return ()
    else
      let replies ← ReplyStore.list_message message_id
      set_message_state message_id (next_message_state attempts replies) updated_at

/-- The request event that `record_submission` and `record_retry_attempt` append. -/
def request_event (inbound_event_id : EventId) (job : JobRecord) (message_id : MessageId)
    (attempt_id : AttemptId) (created_at : Timestamp) : InboundEventRecord :=
  { inbound_event_id := inbound_event_id
    agent_name := job.agent_name
    event_type := .task_request
    message_id := message_id
    attempt_id := some attempt_id
    payload_ref := some (.job job.job_id)
    priority := 100
    status := .queued
    created_at := created_at
    started_at := none
    finished_at := none }

def pending_attempt (attempt_id : AttemptId) (message_id : MessageId) (job : JobRecord)
    (retry_index : ℕ) (accepted_at : Timestamp) : AttemptRecord :=
  { attempt_id := attempt_id
    message_id := message_id
    agent_name := job.agent_name
    provider := job.provider
    job_id := job.job_id
    retry_index := retry_index
    started_at := accepted_at
    updated_at := accepted_at
    attempt_state := .pending }

def queue_request (job : JobRecord) (message_id : MessageId) (attempt_id : AttemptId)
    (accepted_at : Timestamp) : BureauM Unit := do
  let inbound_event_id ← new_id
  onMailbox job.agent_name (InboundEventStore.append
    (request_event inbound_event_id job message_id attempt_id accepted_at))
  let _ ← onMailbox job.agent_name (MailboxKernel.apply_incremental_summary_update service
    job.agent_name 1 0 none none none (some accepted_at))

/-- `origin_message_id or p`. -/
def origin_or (origin_message_id : Option MessageId) (p : BureauM (Option MessageId)) :
    BureauM (Option MessageId) :=
  match origin_message_id with
  | some origin => pure (some origin)
  | none => p

def record_submission (request : MessageEnvelope) (jobs : List JobRecord)
    (submission_id : Option SubmissionId) (accepted_at : Timestamp)
    (origin_message_id : Option MessageId) : BureauM (Option MessageId) := do
  if jobs.isEmpty then
    return none
  else
    let message_id ← new_id
    let origin ← origin_or origin_message_id (resolve_origin_message_id request.reply_to)
    MessageStore.append
      { message_id := message_id
        origin_message_id := origin
        from_actor := request.from_actor
        target_scope := request.delivery_scope
        target_agents := jobs.map fun job => job.agent_name
        message_class := request.message_type
        retry_policy := .submission
        priority := 100
        submission_id := submission_id
        created_at := accepted_at
        updated_at := accepted_at
        message_state := .queued }
    Prog.forEach jobs fun job => do
      let attempt_id ← new_id
      AttemptStore.append (pending_attempt attempt_id message_id job 0 accepted_at)
      queue_request service job message_id attempt_id accepted_at
    return some message_id

def claimable_request_job_ids (agent_name : AgentName) : BureauM (List JobId) := do
  let event ← onMailbox agent_name (MailboxKernel.peek_next (some .task_request))
  match event.bind fun e => e.payload_ref with
  | some (.job job_id) => return [job_id]
  | _ => return []

/-- Append the inbound event of a recorded attempt if the process stopped before that. -/
def restore_inbound (job : JobRecord) (message_id : MessageId) (existing : AttemptRecord) :
    BureauM Unit := do
  let inbound ← onMailbox job.agent_name
    (InboundEventStore.get_latest_for_attempt existing.attempt_id)
  match inbound with
  | some _ => return ()
  | none =>
    let inbound_event_id ← new_id
    onMailbox job.agent_name (InboundEventStore.append (request_event inbound_event_id job
      message_id existing.attempt_id existing.started_at))

def record_retry_attempt (message_id : MessageId) (job : JobRecord)
    (accepted_at : Timestamp) : BureauM AttemptId := do
  let message ← MessageStore.get_latest message_id
  match message with
  | none => Prog.raise (.valueError s!"message not found: {message_id}")
  | some _ =>
    let existing ← AttemptStore.get_latest_by_job_id job.job_id
    match existing with
    | some existing =>
      if existing.message_id ≠ message_id then
        Prog.raise (.valueError
          s!"retry job {job.job_id} is already bound to message {existing.message_id}")
      else if existing.attempt_state ≠ .pending then
        return existing.attempt_id
      else
        restore_inbound job message_id existing
        -- the process may have stopped before the derived views were written
        let _ ← onMailbox job.agent_name
          (MailboxKernel.rebuild_mailbox_summary service job.agent_name (some accepted_at))
        set_message_state message_id .queued accepted_at
        return existing.attempt_id
    | none =>
      let retry_index ← next_retry_index message_id job.agent_name
      let attempt_id ← new_id
      AttemptStore.append (pending_attempt attempt_id message_id job retry_index accepted_at)
      queue_request service job message_id attempt_id accepted_at
      set_message_state message_id .queued accepted_at
      return attempt_id

def is_reply_delivery (job : JobRecord) : Bool :=
  job.request.message_type = .reply_delivery || job.provider_options.reply_delivery

def resolve_inbound_for_attempt_start (job : JobRecord) (attempt_id : AttemptId) :
    BureauM (Option InboundEventRecord) := do
  let byAttempt := onMailbox job.agent_name (InboundEventStore.get_latest_for_attempt attempt_id)
  if is_reply_delivery job then
    match job.provider_options.reply_delivery_inbound_event_id with
    | none => byAttempt
    | some inbound_event_id =>
      let inbound ← onMailbox job.agent_name (InboundEventStore.get_latest inbound_event_id)
      match inbound with
      | some inbound => return some inbound
      | none => byAttempt
  else
    byAttempt

def mark_attempt_started (job : JobRecord) (started_at : Timestamp) : BureauM Unit := do
  let attempt ← AttemptStore.get_latest_by_job_id job.job_id
  match attempt with
  | none => return ()
  | some attempt =>
    AttemptStore.append { attempt with updated_at := started_at, attempt_state := .running }
    let inbound ← resolve_inbound_for_attempt_start job attempt.attempt_id
    match inbound.filter fun inbound => !inbound.status.terminal with
    | some inbound =>
      if inbound.status = .delivering then
        set_message_state attempt.message_id .running started_at
      else
        let _ ← onMailbox job.agent_name (MailboxKernel.claim service job.agent_name
          inbound.inbound_event_id (some started_at))
        set_message_state attempt.message_id .running started_at
    | none =>
      set_message_state attempt.message_id .running started_at
      let _ ← onMailbox job.agent_name
        (MailboxKernel.rebuild_mailbox_summary service job.agent_name (some started_at))

def attempt_state_for_status : JobStatus → AttemptState
  | .completed => .completed
  | .failed => .failed
  | .incomplete => .incomplete
  | .cancelled => .cancelled
  | .accepted | .queued | .running => .incomplete

/-- The inbound event of an attempt that ended is abandoned when the job was cancelled
before delivery, else consumed. -/
def finish_inbound (job : JobRecord) (inbound : Option InboundEventRecord)
    (finished_at : Timestamp) : BureauM Unit := do
  match inbound.filter fun inbound => !inbound.status.terminal with
  | some inbound =>
    if inbound.status.claimable && job.status = .cancelled then
      let _ ← onMailbox job.agent_name (MailboxKernel.abandon service job.agent_name
        inbound.inbound_event_id (some finished_at))
    else
      let _ ← onMailbox job.agent_name (MailboxKernel.consume service job.agent_name
        inbound.inbound_event_id (some finished_at))
  | none =>
    let _ ← onMailbox job.agent_name
      (MailboxKernel.rebuild_mailbox_summary service job.agent_name (some finished_at))

def record_attempt_terminal (job : JobRecord) (finished_at : Timestamp) : BureauM Unit := do
  let attempt ← AttemptStore.get_latest_by_job_id job.job_id
  match attempt with
  | none => return ()
  | some attempt =>
    AttemptStore.append { attempt with
      updated_at := finished_at
      attempt_state := attempt_state_for_status job.status }
    let inbound ← onMailbox job.agent_name
      (InboundEventStore.get_latest_for_attempt attempt.attempt_id)
    finish_inbound service job inbound finished_at
    refresh_message_state attempt.message_id finished_at

/-- The reply event that `queue_reply_delivery` appends. -/
def reply_event (inbound_event_id : EventId) (caller_mailbox : AgentName) (message_id : MessageId)
    (attempt_id : AttemptId) (reply_id : ReplyId) (finished_at : Timestamp) : InboundEventRecord :=
  { inbound_event_id := inbound_event_id
    agent_name := caller_mailbox
    event_type := .task_reply
    message_id := message_id
    attempt_id := some attempt_id
    payload_ref := some (.reply reply_id none)
    priority := 10
    status := .queued
    created_at := finished_at
    started_at := none
    finished_at := none }

def queue_reply_delivery (caller_mailbox : AgentName) (message_id : MessageId)
    (attempt_id : AttemptId) (reply_id : ReplyId) (finished_at : Timestamp) :
    BureauM Unit := do
  let inbound_event_id ← new_id
  onMailbox caller_mailbox (InboundEventStore.append (reply_event inbound_event_id
    caller_mailbox message_id attempt_id reply_id finished_at))
  let _ ← onMailbox caller_mailbox (MailboxKernel.apply_incremental_summary_update service
    caller_mailbox 1 1 none none none (some finished_at))

/-- `_record_consumed_completion_notice`: an event that is terminal from the start. -/
def record_consumed_completion_notice (caller_mailbox : AgentName) (message_id : MessageId)
    (attempt_id : AttemptId) (reply_id : ReplyId) (finished_at : Timestamp) :
    BureauM Unit := do
  let inbound_event_id ← new_id
  onMailbox caller_mailbox (InboundEventStore.append
    { reply_event inbound_event_id caller_mailbox message_id attempt_id reply_id finished_at
      with
      event_type := .completion_notice
      status := .consumed
      started_at := some finished_at
      finished_at := some finished_at })

def reply_status_for_job : JobStatus → ReplyTerminalStatus
  | .completed => .completed
  | .failed => .failed
  | .incomplete => .incomplete
  | .cancelled => .cancelled
  | .accepted | .queued | .running => .incomplete

/-- `not text.strip()`. -/
def blank (text : String) : Bool := text.toList.all isSpaceChar

/-- `delivered_reply_text`; the hidden result of a silenced job names the job only. -/
def delivered_reply_text (job : JobRecord) (decision : CompletionDecision) : String :=
  if job.status ≠ .completed then decision.reply
  else if ¬job.request.silence_on_success then decision.reply
  else
    let task := (job.request.task_id.map fun task_id => s!" task={task_id}").getD ""
    s!"CCB_COMPLETE from={job.agent_name} status=completed job={job.job_id}" ++ task
      ++ " result=hidden"

/-- `mailbox_actor`: the mailbox of a known agent. -/
def mailbox_actor (known_mailboxes : List AgentName) : Actor → Option AgentName
  | .agent name => if name ∈ known_mailboxes then some name else none
  | _ => none

/-- Put the reply into the caller's mailbox, if the caller has one; the notice of an empty
cancellation is consumed from the start. -/
def deliver_reply (caller_mailbox : Option AgentName) (empty_cancel_notice : Bool)
    (attempt : AttemptRecord) (reply_id : ReplyId) (finished_at : Timestamp) :
    BureauM Unit := do
  match caller_mailbox with
  | none => return ()
  | some caller_mailbox =>
    if empty_cancel_notice then
      record_consumed_completion_notice caller_mailbox attempt.message_id
        attempt.attempt_id reply_id finished_at
    else
      queue_reply_delivery service caller_mailbox attempt.message_id attempt.attempt_id
        reply_id finished_at

def record_reply (known_mailboxes : List AgentName) (job : JobRecord)
    (decision : CompletionDecision) (finished_at : Timestamp) (deliver_to_caller : Bool) :
    BureauM (Option ReplyId) := do
  let attempt ← AttemptStore.get_latest_by_job_id job.job_id
  match attempt with
  | none => return none
  | some attempt =>
    let reply_text := delivered_reply_text job decision
    let empty_cancel_notice := job.status = .cancelled && blank reply_text
    let reply_id ← new_id
    ReplyStore.append
      { reply_id := reply_id
        message_id := attempt.message_id
        attempt_id := attempt.attempt_id
        agent_name := job.agent_name
        terminal_status := reply_status_for_job job.status
        reply := reply_text
        notice := empty_cancel_notice || decision.diagnostics.notice_kind.isSome
        finished_at := finished_at }
    let caller_mailbox :=
      if deliver_to_caller then mailbox_actor known_mailboxes job.request.from_actor else none
    deliver_reply service caller_mailbox empty_cancel_notice attempt reply_id finished_at
    refresh_message_state attempt.message_id finished_at
    return some reply_id

def record_notice (known_mailboxes : List AgentName) (job : JobRecord) (reply : String)
    (finished_at : Timestamp) (terminal_status : ReplyTerminalStatus)
    (deliver_to_actor : Option Actor) : BureauM (Option ReplyId) := do
  let attempt ← AttemptStore.get_latest_by_job_id job.job_id
  match attempt with
  | none => return none
  | some attempt =>
    let reply_id ← new_id
    ReplyStore.append
      { reply_id := reply_id
        message_id := attempt.message_id
        attempt_id := attempt.attempt_id
        agent_name := job.agent_name
        terminal_status := terminal_status
        reply := reply
        notice := true
        finished_at := finished_at }
    deliver_reply service
      (mailbox_actor known_mailboxes (deliver_to_actor.getD job.request.from_actor)) false
      attempt reply_id finished_at
    refresh_message_state attempt.message_id finished_at
    return some reply_id

end MessageBureau

end ClaudeCodeBridge.Model
