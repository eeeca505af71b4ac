import ClaudeCodeBridge.Model.Callbacks

/-!
# Submitting, resubmitting and retrying

`submission_service.py`, `submission_recording.py` and `lifecycle.py`: a request becomes one
job for each of its targets, a message with an attempt for each job, and, on the chain
route, a callback edge.  A retry adds a job and an attempt to the message of an attempt that
ended without success.

The two handoffs of the agentic loop rewrite a request before they submit it; they are no
part of this.
-/

set_option autoImplicit false

namespace ClaudeCodeBridge.Model

open Program

namespace Submission

variable (config : DispatcherConfig) (env : DispatcherEnvironment)

open Callbacks

structure JobDraft where
  agent_name : AgentName
  provider : ProviderName
  request : MessageEnvelope
  provider_options : ProviderOptions

structure SubmissionPlan where
  request : MessageEnvelope
  drafts : List JobDraft
  submission_id : Option SubmissionId
  origin_message_id : Option MessageId

def validate_sender (sender : Actor) : DispatcherM Unit :=
  match sender with
  | .cmd => raiseDispatch "unknown sender agent: cmd"
  | .agent name => rejectIf (name ∉ config.agent_names) s!"unknown sender agent: {name}"
  | _ => return ()

/-- `_validate_request_body_artifact` of a request that carries no artifact. -/
def validate_request_body (request : MessageEnvelope) : DispatcherM Unit :=
  rejectIf (request.body.utf8ByteSize > 4096)
    "ask body exceeds 4 KiB and must be submitted with a CCB body artifact"

def ensure_dispatch_enabled (agent_name : AgentName) : DispatcherM Unit := do
  let spec ← spec_for config agent_name
  rejectIf spec.dispatch_disabled s!"agent {agent_name} is dispatch-disabled"
  rejectIf (env.drain_blocks agent_name) s!"agent {agent_name} is draining and rejects new work"

def dispatch_disabled (agent_name : AgentName) : Bool :=
  match config.agents.find? fun spec => spec.name = agent_name with
  | none => true
  | some spec => spec.dispatch_disabled || env.drain_blocks agent_name

def resolve_targets (request : MessageEnvelope) : DispatcherM (List AgentName) := do
  match request.delivery_scope, request.to_agent with
  | .single, some agent_name =>
    ensure_dispatch_enabled config env agent_name
    return [agent_name]
  | .single, none => raiseDispatch "unknown agent: all"
  | .broadcast, _ =>
    let alive := env.list_alive.filter fun name => !dispatch_disabled config env name
    return (alive.filter fun name => request.from_actor ≠ .agent name).mergeSort

def validate_targets_available (targets : List AgentName) : DispatcherM Unit :=
  Prog.forEach targets (validate_target_available config env)

def message_for_agent (request : MessageEnvelope) (agent_name : AgentName) : MessageEnvelope :=
  { request with to_agent := some agent_name, delivery_scope := .single }

def drafts_for_agents (request : MessageEnvelope) : List AgentName → DispatcherM (List JobDraft)
  | [] => return []
  | agent_name :: targets => do
    let spec ← spec_for config agent_name
    let rest ← drafts_for_agents request targets
    return {
      agent_name := agent_name
      provider := spec.provider
      request := message_for_agent request agent_name
      provider_options := ProviderOptions.empty } :: rest

/-- The submission id of a plan: broadcasts have one. -/
def submission_id_for (request : MessageEnvelope) : DispatcherM (Option SubmissionId) := do
  if request.delivery_scope = .broadcast then
    let submission_id ← dispatcher_new_id
    return some submission_id
  else
    return none

def plan_agent_submission (request : MessageEnvelope) : DispatcherM SubmissionPlan := do
  validate_sender config request.from_actor
  validate_request_body request
  let request ← validate_callback_request config env request
  let targets ← resolve_targets config env request
  rejectIf targets.isEmpty "no eligible target agents are alive for this request"
  validate_targets_available config env targets
  let submission_id ← submission_id_for request
  let drafts ← drafts_for_agents config request targets
  return ⟨request, drafts, submission_id, none⟩

def build_job_record (draft : JobDraft) (job_id : JobId) (submission_id : Option SubmissionId)
    (status : JobStatus) (accepted_at : Timestamp) : JobRecord :=
  { job_id := job_id
    submission_id := submission_id
    agent_name := draft.agent_name
    provider := draft.provider
    request := draft.request
    status := status
    terminal_decision := none
    cancel_requested_at := none
    created_at := accepted_at
    updated_at := accepted_at
    provider_options := draft.provider_options }

/-- One turn of the loop of `_submit_plan`. -/
def submit_draft (submission_id : Option SubmissionId) (accepted_at : Timestamp)
    (draft : JobDraft) : DispatcherM JobRecord := do
  let job_id ← dispatcher_new_id
  let status ← pending_status draft.agent_name
  let job := build_job_record draft job_id submission_id status accepted_at
  enqueue_submitted_job job accepted_at
  return job

def submit_drafts (submission_id : Option SubmissionId) (accepted_at : Timestamp) :
    List JobDraft → DispatcherM (List JobRecord)
  | [] => return []
  | draft :: drafts => do
    let job ← submit_draft submission_id accepted_at draft
    let rest ← submit_drafts submission_id accepted_at drafts
    return job :: rest

def record_broadcast (plan : SubmissionPlan) (jobs : List JobRecord) (accepted_at : Timestamp) :
    DispatcherM Unit := do
  match plan.submission_id with
  | none => return ()
  | some submission_id =>
    SubmissionStore.append
      { submission_id := submission_id
        from_actor := plan.request.from_actor
        task_id := plan.request.task_id
        job_ids := jobs.map fun job => job.job_id
        created_at := accepted_at
        updated_at := accepted_at }

/-- `_submit_plan`; the webhook that is told of the jobs is no part of this. -/
def submit_plan (plan : SubmissionPlan) (accepted_at : Timestamp) :
    DispatcherM (List JobRecord × Option MessageId) := do
  let jobs ← submit_drafts plan.submission_id accepted_at plan.drafts
  record_broadcast plan jobs accepted_at
  let message_id ← onBureau (MessageBureau.record_submission env.service plan.request jobs
    plan.submission_id accepted_at plan.origin_message_id)
  match message_id with
  | none => return (jobs, none)
  | some message_id =>
    register_callback_edge config env plan.request jobs message_id accepted_at
    return (jobs, some message_id)

def submit (request : MessageEnvelope) : DispatcherM Unit :=
  Prog.withLock do
    let plan ← plan_agent_submission config env request
    let _ ← submit_plan config env plan env.clock

/-- `_attempt_sort_key`, compared. -/
def attempt_sort_key_lt (a b : AttemptRecord) : Bool :=
  a.retry_index < b.retry_index
    || a.retry_index = b.retry_index && (a.updated_at < b.updated_at
      || a.updated_at = b.updated_at && a.attempt_id < b.attempt_id)

/-- `_latest_attempts_by_agent`, for one agent, of the attempts of a message. -/
def latest_attempt_of (attempts : List AttemptRecord) (agent_name : AgentName) :
    Option AttemptRecord :=
  ((collapse (fun r => r.attempt_id) attempts).filter fun r => r.agent_name = agent_name).foldl
    (fun current record =>
      match current with
      | none => some record
      | some current => if attempt_sort_key_lt current record then some record else some current)
    none

/-- `_require_attempt_lineage`, `_ensure_no_active_attempts` and `_jobs_for_resubmission`. -/
def jobs_for_resubmission (attempts : List AttemptRecord) :
    List AgentName → DispatcherM (List JobRecord)
  | [] => return []
  | agent_name :: target_agents => do
    let spec ← spec_for config agent_name
    rejectIf spec.dispatch_disabled s!"agent {agent_name} is dispatch-disabled"
    match latest_attempt_of attempts agent_name with
    | none => raiseDispatch s!"message is missing attempt lineage for agents: {agent_name}"
    | some attempt =>
      let job ← JobStore.get_latest agent_name attempt.job_id
      match job with
      | none => raiseDispatch s!"job not found for attempt: {attempt.attempt_id}"
      | some job =>
        let rest ← jobs_for_resubmission attempts target_agents
        return job :: rest

def resubmission_request (original : MessageRecord) (source : MessageEnvelope) : MessageEnvelope :=
  { source with
    to_agent := if original.target_agents.length > 1 then none else original.target_agents.head?
    from_actor := original.from_actor
    delivery_scope := if original.target_agents.length > 1 then .broadcast else .single }

def plan_message_resubmission (message_id : MessageId) : DispatcherM SubmissionPlan := do
  let original ← onBureau (MessageStore.get_latest message_id)
  match original with
  | none => raiseDispatch s!"message not found: {message_id}"
  | some original =>
    let attempts ← onBureau (AttemptStore.list_message message_id)
    rejectIf attempts.isEmpty s!"message has no attempts to resubmit: {message_id}"
    rejectIf (original.target_agents.any fun name => (latest_attempt_of attempts name).isNone)
      "message is missing attempt lineage for agents"
    rejectIf ((attempts.map fun r => r.agent_name).any fun name =>
      (latest_attempt_of attempts name).any fun r => !r.attempt_state.terminal)
      "message still has active attempts"
    let jobs ← jobs_for_resubmission config attempts original.target_agents
    match jobs.head? with
    | none => raiseDispatch "list index out of range"
    | some source =>
      let request := resubmission_request original source.request
      validate_sender config request.from_actor
      validate_request_body request
      validate_targets_available config env original.target_agents
      let submission_id ← submission_id_for request
      let drafts ← drafts_for_agents config request original.target_agents
      return ⟨request, drafts, submission_id, some message_id⟩

def resubmit_message (message_id : MessageId) : DispatcherM Unit := do
  let plan ← plan_message_resubmission config env message_id
  let _ ← submit_plan config env plan env.clock

/-- What a retry may name; the ids of the two kinds are disjoint. -/
inductive RetryTarget where
  | attempt (id : AttemptId)
  | job (id : JobId)
  deriving DecidableEq, Repr

def find_retry_attempt (target : RetryTarget) : DispatcherM (Option AttemptRecord) :=
  match target with
  | .attempt id => onBureau (AttemptStore.get_latest id)
  | .job id => onBureau (AttemptStore.get_latest_by_job_id id)

def resolve_retry_attempt (target : RetryTarget) : DispatcherM AttemptRecord := do
  let attempt ← find_retry_attempt target
  match attempt with
  | some attempt => return attempt
  | none => raiseDispatch s!"retry target not found: {repr target}"

def retry_request_for_job (job : JobRecord) : MessageEnvelope :=
  if env.retry_with_continue job then { job.request with body := "continue" } else job.request

/-- What a retry adds to the stores. -/
structure RetryReceipt where
  message_id : MessageId
  attempt_id : AttemptId
  job_id : JobId

/-- The job of a retry and its attempt; the source of the retry is named in options that
no modelled code reads. -/
def retry_job (original : AttemptRecord) (current : JobRecord) (message : MessageRecord)
    (accepted_at : Timestamp) : DispatcherM RetryReceipt := do
  let job_id ← dispatcher_new_id
  let status ← pending_status current.agent_name
  let job := build_job_record
    ⟨current.agent_name, current.provider, retry_request_for_job env current,
      current.provider_options⟩ job_id message.submission_id status accepted_at
  enqueue_submitted_job job accepted_at
  let attempt_id ← onBureau (MessageBureau.record_retry_attempt env.service
    original.message_id job accepted_at)
  append_submission_job message.submission_id job_id accepted_at
  return ⟨original.message_id, attempt_id, job_id⟩

def retry_attempt (target : RetryTarget) : DispatcherM RetryReceipt := do
  let accepted_at := env.clock
  let original ← resolve_retry_attempt target
  rejectIf (!original.attempt_state.terminal) s!"attempt is still active: {original.attempt_id}"
  rejectIf (original.attempt_state = .completed)
    s!"retry is not allowed for completed attempts: {original.attempt_id}"
  let attempts ← onBureau (AttemptStore.list_message original.message_id)
  match latest_attempt_of attempts original.agent_name with
  | none => raiseDispatch s!"message is missing attempt lineage for agent: {original.agent_name}"
  | some latest =>
    rejectIf (latest.attempt_id ≠ original.attempt_id)
      s!"retry requires latest attempt for agent: {original.agent_name}"
    let message ← onBureau (MessageStore.get_latest original.message_id)
    match message with
    | none => raiseDispatch s!"message not found for attempt: {original.attempt_id}"
    | some message =>
      validate_target_available config env original.agent_name
      let current ← JobStore.get_latest original.agent_name original.job_id
      match current with
      | none => raiseDispatch s!"job not found for attempt: {original.attempt_id}"
      | some current => retry_job env original current message accepted_at

end Submission

end ClaudeCodeBridge.Model
