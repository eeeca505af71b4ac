import ClaudeCodeBridge.Model.Submission

/-!
# Completing and cancelling jobs

`finalization_runtime`, `finalization_retry_runtime`, `cancellation.py` and
`reply_delivery_runtime/terminal.py`: what the dispatcher does when a job ends.  Under the
chain lock it appends the terminal record and tells the message bureau, which may retry the
job, answer its caller or move its result chain on; after that it settles the inbound event
of a reply delivery.

A completion ends with a new look for reply deliveries, which may itself complete a job:
`complete_job` has that look as its parameter `prepare`.
-/

set_option autoImplicit false

namespace ClaudeCodeBridge.Model

open Program

namespace Completion

variable (config : DispatcherConfig) (env : DispatcherEnvironment)

open Callbacks

structure RetryableFailureContext where
  message_id : MessageId
  attempt_id : AttemptId
  attempt_number : ℕ
  max_attempts : ℕ

/-- `max(safe_int(retry_policy.get('max_attempts'), 1), 1)`. -/
def RetryPolicy.attempt_limit (policy : RetryPolicy) : ℕ := max (policy.max_attempts.getD 1) 1

def retryable_failure_context (job : JobRecord) (decision : Model.CompletionDecision) :
    DispatcherM (Option RetryableFailureContext) := do
  let attempt ← onBureau (AttemptStore.get_latest_by_job_id job.job_id)
  match attempt with
  | none => return none
  | some attempt =>
    let message ← onBureau (MessageStore.get_latest attempt.message_id)
    match message with
    | none => return none
    | some message =>
      if message.retry_policy.mode ≠ .auto then return none
      else if !env.retryable message.retry_policy job decision then return none
      else
        return some {
          message_id := attempt.message_id
          attempt_id := attempt.attempt_id
          attempt_number := attempt.retry_index + 1
          max_attempts := RetryPolicy.attempt_limit message.retry_policy }

def automatic_retry_plan (job : JobRecord) (decision : Model.CompletionDecision) :
    DispatcherM (Option RetryableFailureContext) := do
  let context ← retryable_failure_context env job decision
  return context.filter fun context => context.attempt_number < context.max_attempts

/-- `schedule_automatic_retry`: the decision for the reply, if it is a new one, and whether a
retry was scheduled. -/
def schedule_automatic_retry (current terminal : JobRecord) (decision : Model.CompletionDecision)
    (finished_at : Timestamp) : DispatcherM (Option Model.CompletionDecision × Bool) := do
  let auto_retry ← automatic_retry_plan env current decision
  match auto_retry with
  | none => return (none, false)
  | some _ =>
    let retried ← ((Submission.retry_attempt config env (.job current.job_id)).bind fun receipt =>
      return some receipt).tryCatch fun _ => return none
    match retried with
    | none =>
      append_event terminal .job_retry_failed finished_at
      return (some (env.retry_failure_reply decision), false)
    | some _ =>
      append_event terminal .job_retry_scheduled finished_at
      return (none, true)

def reply_decision_without_automatic_retry (current terminal : JobRecord)
    (decision : Model.CompletionDecision) (finished_at : Timestamp) :
    DispatcherM (Option Model.CompletionDecision) := do
  let retryable_failure ← retryable_failure_context env current decision
  match retryable_failure with
  | some _ =>
    append_event terminal .job_retry_exhausted finished_at
    return some (env.retry_failure_reply decision)
  | none =>
    match env.failure_reply decision with
    | none => return none
    | some (reply_decision, nonretryable) =>
      if nonretryable then
        append_event terminal .job_retry_skipped_nonretryable finished_at
      return some reply_decision

/-- `_terminal_event_by_status`. -/
def terminal_event (status : CompletionStatus) : JobEventType :=
  match status with
  | .completed => .job_completed
  | .cancelled => .job_cancelled
  | .failed => .job_failed
  | .incomplete => .job_incomplete

def terminal_record (current : JobRecord) (decision : Model.CompletionDecision)
    (finished_at : Timestamp) : JobRecord :=
  { current with
    status := decision.status.toJobStatus
    terminal_decision := some decision
    updated_at := finished_at }

def persist_terminal_completion (current : JobRecord) (decision : TerminalDecision)
    (finished_at : Timestamp) : DispatcherM (JobRecord × Model.CompletionDecision) := do
  let terminal_decision := env.settle current decision
  append_event current .completion_terminal finished_at
  let terminal := terminal_record current terminal_decision finished_at
  append_job terminal
  append_event terminal (terminal_event terminal_decision.status) finished_at
  updateState fun s => s.clear_active_for current.agent_name current.job_id
  return (terminal, terminal_decision)

def job_with_unsilenced_reply (job : JobRecord) : JobRecord :=
  { job with request := { job.request with silence_on_success := false } }

def should_deliver_to_caller (job : JobRecord) : Bool :=
  !(job.status = .completed && job.request.silence_on_success)

/-- The call of `message_bureau.record_reply`. -/
def record_reply (job : JobRecord) (decision : Model.CompletionDecision) (finished_at : Timestamp)
    (deliver_to_caller : Bool) : DispatcherM (Option ReplyId) := do
  Prog.write (.record_reply job.job_id) fun s => { s with replied := s.replied ++ [job.job_id] }
  onBureau (MessageBureau.record_reply env.service config.known_mailboxes job decision finished_at
    deliver_to_caller)

def record_terminal_result (terminal : JobRecord) (decision : Model.CompletionDecision)
    (finished_at : Timestamp) (deliver_to_caller : Bool) : DispatcherM Unit := do
  let child_edge ← callback_child_edge terminal
  match child_edge with
  | some child_edge =>
    let reply_id ← record_reply config env (job_with_unsilenced_reply terminal) decision finished_at
      false
    let _ ← submit_callback_continuation config env child_edge terminal reply_id decision
      finished_at
    mark_callback_done terminal finished_at
  | none =>
    let _ ← record_reply config env terminal decision finished_at deliver_to_caller
    mark_callback_done terminal finished_at

def empty_result_notice_decision (terminal : JobRecord) (decision : Model.CompletionDecision)
    (deliver_to_caller : Bool) : DispatcherM (Option Model.CompletionDecision) := do
  if !deliver_to_caller then
    return none
  else
    let child_edge ← callback_child_edge terminal
    match child_edge with
    | some _ => return none
    | none => return env.result_notice terminal decision

def persist_reply_decision (terminal : JobRecord) (reply_decision : Model.CompletionDecision) :
    DispatcherM JobRecord := do
  let terminal := { terminal with terminal_decision := some reply_decision }
  append_job terminal
  return terminal

/-- The reply decision before the notice for an empty result, if it is a new one. -/
def rewritten_decision (current terminal : JobRecord) (decision : Model.CompletionDecision)
    (retry_failure : Option Model.CompletionDecision) (finished_at : Timestamp) :
    DispatcherM (Option Model.CompletionDecision) :=
  match retry_failure with
  | some reply_decision => return some reply_decision
  | none => reply_decision_without_automatic_retry env current terminal decision finished_at

/-- The part of `record_message_bureau_completion` after the decision on a retry. -/
def record_final_result (current terminal : JobRecord) (decision : Model.CompletionDecision)
    (retry_failure : Option Model.CompletionDecision) (finished_at : Timestamp) :
    DispatcherM JobRecord := do
  let rewritten ← rewritten_decision env current terminal decision retry_failure finished_at
  let notice ← empty_result_notice_decision env terminal (rewritten.getD decision)
    (should_deliver_to_caller terminal)
  match notice <|> rewritten with
  | none =>
    record_terminal_result config env terminal decision finished_at
      (should_deliver_to_caller terminal)
    return terminal
  | some reply_decision =>
    let terminal ← persist_reply_decision terminal reply_decision
    record_terminal_result config env terminal reply_decision finished_at
      (should_deliver_to_caller terminal)
    return terminal

/-- `record_message_bureau_completion`: the terminal record and whether a retry was
scheduled. -/
def record_message_bureau_completion (current terminal : JobRecord)
    (decision : Model.CompletionDecision) (finished_at : Timestamp) :
    DispatcherM (JobRecord × Bool) := do
  onBureau (MessageBureau.record_attempt_terminal env.service terminal finished_at)
  if MessageBureau.is_reply_delivery current then
    return (terminal, false)
  else
    let parent_edge ← delegated_parent_edge terminal
    match parent_edge.filter fun edge => !edge.state.closed with
    | some parent_edge =>
      let terminal ← persist_delegated_terminal_job terminal finished_at
      mark_parent_message_waiting parent_edge finished_at
      return (terminal, false)
    | none =>
      let scheduled ← schedule_automatic_retry config env current terminal decision finished_at
      if scheduled.2 then
        return (terminal, true)
      else
        let terminal ← record_final_result config env current terminal decision scheduled.1
          finished_at
        return (terminal, false)

/-- The edge of a cancelled parent, where there is one, has failed. -/
def terminalize_parent_edge (parent_edge : Option CallbackEdgeRecord) (finished_at : Timestamp) :
    DispatcherM Unit :=
  match parent_edge with
  | some parent_edge => terminalize_cancelled_parent_edge parent_edge finished_at
  | none => return ()

def record_message_bureau_cancellation (terminal : JobRecord) (decision : Model.CompletionDecision)
    (finished_at : Timestamp) (record_reply : Bool) : DispatcherM Unit := do
  onBureau (MessageBureau.record_attempt_terminal env.service terminal finished_at)
  if !record_reply then
    return ()
  else
    let parent_edge ← delegated_parent_edge terminal
    terminalize_parent_edge parent_edge finished_at
    record_terminal_result config env terminal decision finished_at true

def rewrite_reply_head (agent_name : AgentName) (inbound_event_id : EventId) (reply_id : ReplyId)
    (delivery_job_id : Option JobId) (updated_at : Timestamp) : DispatcherM Unit := do
  let _ ← onBureau (onMailbox agent_name (MailboxKernel.rewrite_head env.service agent_name
    inbound_event_id (some (.reply reply_id delivery_job_id)) .queued (some updated_at) true))

def delivery_reached_processing (job : JobRecord) : Bool :=
  job.terminal_decision.any fun terminal =>
    terminal.anchor_seen || terminal.diagnostics.delivery_accepted

def isRequeue (inbound_event_id : EventId) (event : JobEvent) : Bool :=
  event.type = .reply_delivery_requeued inbound_event_id

def transport_requeue_count (agent_name : AgentName) (inbound_event_id : EventId) :
    DispatcherM ℕ := do
  let events ← JobEventStore.read_target agent_name
  return events.countP (isRequeue inbound_event_id)

inductive Disposition where
  | consumed | abandoned | requeued
  deriving DecidableEq

/-- `_MAX_PRE_DELIVERY_TRANSPORT_REQUEUES`. -/
def max_pre_delivery_transport_requeues : ℕ := 3

def terminal_disposition (job : JobRecord) (inbound_event_id : EventId) :
    DispatcherM Disposition := do
  if job.status = .cancelled then
    return .consumed
  else if delivery_reached_processing job then
    return .consumed
  else
    let count ← transport_requeue_count job.agent_name inbound_event_id
    return if count ≥ max_pre_delivery_transport_requeues then .abandoned else .requeued

/-- `consume` of the inbound event of a delivery, with its job event. -/
def consume_delivery (job : JobRecord) (inbound_event_id : EventId) (type : JobEventType)
    (finished_at : Timestamp) : DispatcherM Unit := do
  let _ ← onBureau (onMailbox job.agent_name (MailboxKernel.consume env.service job.agent_name
    inbound_event_id (some finished_at)))
  append_event job type finished_at

/-- What becomes of an inbound event whose delivery ended. -/
def settle_delivery (job : JobRecord) (inbound_event_id : EventId) (reply_id : ReplyId)
    (finished_at : Timestamp) : DispatcherM Unit := do
  if job.status = .completed then
    consume_delivery env job inbound_event_id (.reply_delivery_consumed inbound_event_id)
      finished_at
  else
    let disposition ← terminal_disposition job inbound_event_id
    match disposition with
    | .consumed =>
      consume_delivery env job inbound_event_id
        (.reply_delivery_terminal_after_delivery inbound_event_id) finished_at
    | .abandoned =>
      consume_delivery env job inbound_event_id (.reply_delivery_abandoned inbound_event_id)
        finished_at
    | .requeued =>
      rewrite_reply_head env job.agent_name inbound_event_id reply_id none finished_at
      append_event job (.reply_delivery_requeued inbound_event_id) finished_at

def resolve_reply_delivery_terminal (job : JobRecord) (finished_at : Timestamp) :
    DispatcherM Unit := do
  if !MessageBureau.is_reply_delivery job then
    return ()
  else
    match job.provider_options.reply_delivery_inbound_event_id,
        job.provider_options.reply_delivery_reply_id with
    | some inbound_event_id, some reply_id =>
      let current ← onBureau (onMailbox job.agent_name
        (InboundEventStore.get_latest inbound_event_id))
      match current with
      | none => return ()
      | some _ => settle_delivery env job inbound_event_id reply_id finished_at
    | _, _ => return ()

def maybe_notify_sender (job : JobRecord) : DispatcherM Unit := do
  if !job.request.route_options.notify_sender then
    return ()
  else
    let notice_body := s!"CCB job {job.job_id} for agent `{job.agent_name}` has finished with status: {repr job.status}.\nUse `ccb trace {job.job_id}` to view the full result."
    let _ ← onBureau (MessageBureau.record_notice env.service config.known_mailboxes job notice_body
      job.updated_at (if job.status = .completed then .completed else .failed)
      (some job.request.from_actor))

/-- What a completion does under the chain lock; `none` when the job was terminal. -/
def complete_locked (job_id : JobId) (decision : TerminalDecision) :
    DispatcherM (JobRecord × Option (Timestamp × Bool)) := do
  let current ← get_job config job_id
  match current with
  | none => raiseDispatch s!"unknown job: {job_id}"
  | some current =>
    if current.status.terminal then
      return (current, none)
    else
      let finished_at := decision.val.finished_at.getD env.clock
      let (terminal, decision) ← persist_terminal_completion env current decision finished_at
      let (terminal, retry_scheduled) ← record_message_bureau_completion config env current terminal
        decision finished_at
      return (terminal, some (finished_at, retry_scheduled))

/-- `complete_job`; the end of the execution and the webhook are no part of this. -/
def complete_job (prepare : DispatcherM Unit) (job_id : JobId) (decision : TerminalDecision) :
    DispatcherM JobRecord := do
  let (terminal, outcome) ← Prog.withLock (complete_locked config env job_id decision)
  match outcome with
  | none => return terminal
  | some (finished_at, retry_scheduled) =>
    resolve_reply_delivery_terminal env terminal finished_at
    if retry_scheduled then
      return terminal
    else
      maybe_notify_sender config env terminal
      prepare
      return terminal

/-- The decision of `cancel_with_decision`. -/
def cancel_decision (reply : String) (anchor_seen : Bool) (cancelled_at : Timestamp) :
    Model.CompletionDecision :=
  { terminal := true
    status := .cancelled
    reason := "cancel_info"
    reply := reply
    anchor_seen := anchor_seen
    source_kind := none
    finished_at := some cancelled_at
    diagnostics := Diagnostics.empty }

/-- What a cancellation does under the chain lock; `none` when the job was cancelled. -/
def cancel_locked (current : JobRecord) (cancelled_at : Timestamp) (reply : String)
    (record_reply : Bool) : DispatcherM (Option JobRecord) := do
  let latest ← get_job config current.job_id
  match latest with
  | none => raiseDispatch s!"unknown job: {current.job_id}"
  | some latest =>
    if latest.status = .cancelled then
      return none
    else if latest.status.terminal then
      raiseDispatch s!"job is already terminal: {repr latest.status}"
    else
      let decision := cancel_decision reply (env.cancel_anchor_seen latest.job_id) cancelled_at
      append_event latest .completion_terminal cancelled_at
      let terminal := { terminal_record latest decision cancelled_at with
        cancel_requested_at := some cancelled_at }
      append_job terminal
      append_event terminal .job_cancelled cancelled_at
      updateState fun s => s.remove_queued_for latest.agent_name latest.job_id
      updateState fun s => s.clear_active_for latest.agent_name latest.job_id
      record_message_bureau_cancellation config env terminal decision cancelled_at record_reply
      return some terminal

def cancel_with_decision (current : JobRecord) (cancelled_at : Timestamp) (reply : String)
    (record_reply : Bool) : DispatcherM Unit := do
  let terminal ← Prog.withLock (cancel_locked config env current cancelled_at reply record_reply)
  match terminal with
  | none => return ()
  | some terminal => resolve_reply_delivery_terminal env terminal cancelled_at

/-- `cancel_job`; the flag file and the interruption of the provider are no part of this. -/
def cancel_job (job_id : JobId) (record_reply : Bool) : DispatcherM Unit := do
  let current ← get_job config job_id
  match current with
  | none => raiseDispatch s!"unknown job: {job_id}"
  | some current =>
    if current.status = .cancelled then
      return ()
    else if current.status.terminal then
      raiseDispatch s!"job is already terminal: {repr current.status}"
    else
      let cancelled_at := env.clock
      let marked := { current with
        cancel_requested_at := some cancelled_at
        updated_at := cancelled_at }
      append_job marked
      append_event marked .job_cancel_requested cancelled_at
      cancel_with_decision config env marked cancelled_at (env.cancel_reply job_id) record_reply

end Completion

end ClaudeCodeBridge.Model
