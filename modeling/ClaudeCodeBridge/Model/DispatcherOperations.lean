import ClaudeCodeBridge.Model.JobStart

/-!
# The operations of the dispatcher

`comms_recover.py`, `restore_runtime/execution.py` and `shutdown.py`, and then the
operations of `JobDispatcher` as one type: what a request, the maintenance worker or a
start of the daemon may run.  Each operation brings its own environment.
-/

set_option autoImplicit false

namespace ClaudeCodeBridge.Model

open Program

namespace DispatcherOperations

variable (config : DispatcherConfig) (env : DispatcherEnvironment) (depth : ℕ)

open Callbacks Completion ReplyDelivery JobStart

/-- `_FAILED_TERMINAL_STATUSES`. -/
def failed_terminal (status : JobStatus) : Bool :=
  status.terminal && status ≠ .completed

structure Lineage where
  attempt : AttemptRecord
  latest_attempt : Option AttemptRecord
  inbound : Option InboundEventRecord

/-- `_latest_attempt_for_agent`, among the attempts of a message. -/
def latest_attempt_for_agent (attempts : List AttemptRecord) (agent_name : AgentName) :
    Option AttemptRecord :=
  (attempts.filter fun r => r.agent_name = agent_name).getLast?

def lineage_for_job (job : JobRecord) : DispatcherM (Option Lineage) := do
  let attempt ← onBureau (AttemptStore.get_latest_by_job_id job.job_id)
  match attempt with
  | none => return none
  | some attempt =>
    let attempts ← onBureau (AttemptStore.list_message attempt.message_id)
    let inbound ← onBureau (onMailbox attempt.agent_name
      (InboundEventStore.get_latest_for_attempt attempt.attempt_id))
    return some {
      attempt := attempt
      latest_attempt := latest_attempt_for_agent attempts attempt.agent_name
      inbound := inbound }

def Lineage.is_latest_attempt (lineage : Lineage) : Bool :=
  lineage.latest_attempt.any fun latest => latest.attempt_id = lineage.attempt.attempt_id

def can_retry_job (job : JobRecord) : DispatcherM Bool := do
  let lineage ← lineage_for_job job
  return lineage.any fun lineage =>
    lineage.is_latest_attempt && lineage.attempt.attempt_state.terminal
      && lineage.attempt.attempt_state ≠ .completed

/-- `_already_retried_job_id`: the job that a recovery reports in the place of `job`. -/
def already_retried_job_id (job : JobRecord) : DispatcherM (Option JobId) := do
  let lineage ← lineage_for_job job
  return lineage.bind fun lineage =>
    (lineage.latest_attempt.filter fun latest =>
      latest.attempt_id ≠ lineage.attempt.attempt_id).map fun latest => latest.job_id

/-- What a recovery is to work on. -/
inductive Recoverability where
  | reply_delivery (job : JobRecord)
  | terminal_retry
  | stale_running
  | not_recoverable

/-- The delivery job that may be retried, if there is one. -/
def retryable_delivery (reply_delivery : Option JobRecord) : DispatcherM (Option JobRecord) := do
  match reply_delivery.filter fun delivery => failed_terminal delivery.status with
  | none => return none
  | some delivery =>
    let retryable ← can_retry_job delivery
    return if retryable then some delivery else none

/-- `comms_recoverability_for_job`; a hint stands for a stale reason that the caller saw. -/
def comms_recoverability_for_job (job : JobRecord) (reply_delivery : Option JobRecord)
    (running_hint : Option String) : DispatcherM Recoverability := do
  let delivery_retryable ← retryable_delivery reply_delivery
  match delivery_retryable with
  | some delivery => return .reply_delivery delivery
  | none =>
    if failed_terminal job.status then
      let retryable ← can_retry_job job
      return if retryable then .terminal_retry else .not_recoverable
    else if job.status = .running ∧ (running_hint <|> env.running_stale_reason job).isSome then
      return .stale_running
    else
      return .not_recoverable

/-- The entries of the audit record that the recovery itself reads. -/
structure RecoverAudit where
  changed : Bool
  noop : Bool
  retried : Bool

/-- `_release_lineage_head_if_blocking`: whether a head was released. -/
def release_lineage_head_if_blocking (job : JobRecord) : DispatcherM Bool := do
  let lineage ← lineage_for_job job
  match lineage.bind fun lineage => lineage.inbound with
  | none => return false
  | some inbound =>
    if inbound.status.terminal || inbound.event_type ≠ .task_request then
      return false
    else
      let head ← onBureau (onMailbox inbound.agent_name MailboxKernel.head_pending_event)
      if head.all fun head => head.inbound_event_id ≠ inbound.inbound_event_id then
        return false
      else
        let released ← onBureau (onMailbox inbound.agent_name (MailboxKernel.abandon env.service
          inbound.agent_name inbound.inbound_event_id (some env.clock)))
        return released.isSome

/-- `try: dispatcher.retry(job_id)`: whether it returned. -/
def try_retry (job_id : JobId) : DispatcherM Bool :=
  ((Submission.retry_attempt config env (.job job_id)).bind fun _ => return true).tryCatch
    fun _ => return false

def recover_terminal_retry (job : JobRecord) : DispatcherM RecoverAudit := do
  let lineage ← lineage_for_job job
  if lineage.any fun lineage => !lineage.is_latest_attempt then
    return ⟨false, true, false⟩
  else
    let released ← release_lineage_head_if_blocking env job
    let retried ← try_retry config env job.job_id
    return ⟨released || retried, !retried, retried⟩

def recover_stale_running (job : JobRecord) : DispatcherM RecoverAudit := do
  let lineage ← lineage_for_job job
  if lineage.any fun lineage => !lineage.is_latest_attempt then
    return ⟨false, true, false⟩
  else
    let cancelled ← ((cancel_job config env job.job_id false).bind fun _ => return true).tryCatch
      fun _ => return false
    if !cancelled then
      return ⟨false, true, false⟩
    else
      let retried ← try_retry config env job.job_id
      return ⟨true, !retried, retried⟩

/-- The delivery job that the payload of a reply event names stands in the way of another. -/
def already_retried (job : JobRecord) (payload_ref : Option PayloadRef) : DispatcherM Bool := do
  match payload_ref with
  | some (.reply _ (some delivery_job_id)) =>
    if delivery_job_id = job.job_id then
      return false
    else
      let latest_delivery ← get_job config delivery_job_id
      return latest_delivery.any fun delivery => !failed_terminal delivery.status
  | _ => return false

def recover_reply_delivery (job : JobRecord) : DispatcherM RecoverAudit := do
  match job.provider_options.reply_delivery_inbound_event_id,
      job.provider_options.reply_delivery_reply_id with
  | some inbound_event_id, some reply_id =>
    let current ← onBureau (onMailbox job.agent_name
      (InboundEventStore.get_latest inbound_event_id))
    match current.filter fun current => current.status ≠ .consumed with
    | none => return ⟨false, true, false⟩
    | some current =>
      let retried_before ← already_retried config job current.payload_ref
      if retried_before then
        return ⟨false, true, false⟩
      else
        rewrite_reply_head env current.agent_name inbound_event_id reply_id none env.clock
        let created ← prepare_reply_deliveries config env depth
        return ⟨true, false, !created.isEmpty⟩
  | _, _ => return ⟨false, true, false⟩

def tick_after_recovery (audit : RecoverAudit) : DispatcherM Unit := do
  if !audit.retried then
    let _ ← prepare_reply_deliveries config env depth
  tick_jobs config env depth

/-- The delivery job of a request to recover, where it names one. -/
def job_or_none (job_id : Option JobId) : DispatcherM (Option JobRecord) :=
  match job_id with
  | none => return none
  | some job_id => get_job config job_id

/-- The recovery that `comms_recover` chooses. -/
def recover (source : JobRecord) : Recoverability → DispatcherM RecoverAudit
  | .reply_delivery delivery => recover_reply_delivery config env depth delivery
  | .terminal_retry => recover_terminal_retry config env source
  | .stale_running => recover_stale_running config env source
  | .not_recoverable => return ⟨false, true, false⟩

/-- `comms_recover`, without the report it makes at its end. -/
def comms_recover (job_id : JobId) (reply_delivery_job_id : Option JobId)
    (running_hint : Option String) : DispatcherM Unit := do
  let source ← get_job config job_id
  match source with
  | none => raiseDispatch s!"unknown comms job: {job_id}"
  | some source =>
    if MessageBureau.is_reply_delivery source then
      raiseDispatch s!"comms recovery requires source business job: {job_id}"
    else
      let reply_delivery ← job_or_none config reply_delivery_job_id
      let recoverability ← comms_recoverability_for_job env source reply_delivery running_hint
      let audit ← recover config env depth source recoverability
      if audit.noop && !audit.changed then
        return ()
      else
        tick_after_recovery config env depth audit

def restore_current_job (job_id : JobId) : DispatcherM Unit := do
  let current ← get_job config job_id
  match current.filter fun current => current.status = .running with
  | none => return ()
  | some current =>
    if MessageBureau.is_reply_delivery current then
      let _ ← complete config env depth current.job_id
        (reply_delivery_failed_decision env.clock "reply_delivery_restart_requeued")
    else
      match env.restore current with
      | .restored => return ()
      | .terminal_pending decision =>
        let _ ← complete config env depth current.job_id decision
      | .abandoned decision =>
        append_event current .execution_restore_failed env.clock
        let _ ← complete config env depth current.job_id decision

def restore_running_jobs : DispatcherM Unit := do
  let active ← onState fun s => s.active_items
  Prog.forEach (active.map Prod.snd) (restore_current_job config env depth)

/-- The decision of `_terminate_job_for_shutdown`. -/
def shutdown_decision (finished_at : Timestamp) : TerminalDecision :=
  ⟨{ terminal := true
     status := .incomplete
     reason := "project_shutdown"
     reply := "Project stopped before this request completed."
     anchor_seen := false
     source_kind := none
     finished_at := some finished_at
     diagnostics := Diagnostics.empty }, rfl⟩

/-- One turn of the loop of `terminate_nonterminal_jobs`. -/
def terminate_job (job_id : JobId) : DispatcherM Unit := do
  let current ← get_job config job_id
  match current.filter fun current => !current.status.terminal with
  | none => return ()
  | some current =>
    ((complete config env depth current.job_id (shutdown_decision env.clock)).bind fun _ =>
      updateState fun s => s.remove_queued_for current.agent_name current.job_id).tryCatch
      fun _ => return ()

/-- `_latest_nonterminal_job_ids`. -/
def nonterminal_job_ids (jobs : List JobRecord) (agent_names : List AgentName) : List JobId :=
  agent_names.flatMap fun agent_name =>
    DispatcherState.jobs_with (fun status => !status.terminal) (Model.list_agent jobs agent_name)

def terminate_nonterminal_jobs : DispatcherM Unit := do
  let job_ids ← Prog.read .list_jobs fun s => nonterminal_job_ids s.jobs config.agent_names
  Prog.forEach job_ids (terminate_job config env depth)

end DispatcherOperations

/-- What a client may ask for.  The clients of the daemon (the ask command, the frontdesk and
maintenance handlers, the mobile gateway) set other keys of the route options only. -/
abbrev ClientRequest :=
  { request : MessageEnvelope // request.route_options.chain_edge_id = none }

/-- The operations of `JobDispatcher`. -/
inductive DispatcherOperation where
  | submit (request : ClientRequest)
  | resubmit (message_id : MessageId)
  | retry (target : Submission.RetryTarget)
  | complete (job_id : JobId) (decision : TerminalDecision)
  | cancel (job_id : JobId) (record_reply : Bool)
  | prepare_reply_deliveries
  | repair_callback_edges
  | tick_jobs
  | tick
  | comms_recover (job_id : JobId) (reply_delivery_job_id : Option JobId)
      (running_hint : Option String)
  | restore_running_jobs
  | terminate_nonterminal_jobs

namespace DispatcherOperation

/-- The program of an operation. -/
def exec (config : DispatcherConfig) (env : DispatcherEnvironment) (depth : ℕ) :
    DispatcherOperation → DispatcherM Unit
  | submit request => Submission.submit config env request
  | resubmit message_id => Submission.resubmit_message config env message_id
  | retry target => do
    let _ ← Submission.retry_attempt config env target
  | complete job_id decision => do
    let _ ← ReplyDelivery.complete config env depth job_id decision
  | cancel job_id record_reply => Completion.cancel_job config env job_id record_reply
  | prepare_reply_deliveries => do
    let _ ← ReplyDelivery.prepare_reply_deliveries config env depth
  | repair_callback_edges => Callbacks.repair_callback_edges config env
  | tick_jobs => JobStart.tick_jobs config env depth
  | tick => JobStart.tick config env depth
  | comms_recover job_id reply_delivery_job_id running_hint =>
    DispatcherOperations.comms_recover config env depth job_id reply_delivery_job_id running_hint
  | restore_running_jobs => DispatcherOperations.restore_running_jobs config env depth
  | terminate_nonterminal_jobs =>
    DispatcherOperations.terminate_nonterminal_jobs config env depth

end DispatcherOperation

end ClaudeCodeBridge.Model
