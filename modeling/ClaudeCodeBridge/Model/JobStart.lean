import ClaudeCodeBridge.Model.ReplyDelivery

/-!
# Starting jobs

`lifecycle_start_runtime`: for each agent with a free slot, the job at the head of its
mailbox is started, if nothing speaks against it.  No lock is held from the look at the
mailbox to the record of the running job.
-/

set_option autoImplicit false

namespace ClaudeCodeBridge.Model

open Program

namespace JobStart

variable (config : DispatcherConfig) (env : DispatcherEnvironment) (depth : ℕ)

open Callbacks Completion ReplyDelivery

/-- A decision that ends a job as failed. -/
def failed_decision (reason reply : String) (finished_at : Timestamp) : TerminalDecision :=
  ⟨{ terminal := true
     status := .failed
     reason := reason
     reply := reply
     anchor_seen := false
     source_kind := none
     finished_at := some finished_at
     diagnostics := Diagnostics.empty }, rfl⟩

def fail_provider_start (running : JobRecord) : DispatcherM Unit := do
  append_event running .provider_start_failed env.clock
  let _ ← complete config env depth running.job_id
    (failed_decision "provider_start_failed" "" env.clock)

/-- `complete_reply_delivery_after_start`, for a submission that is there and active or
not. -/
def complete_reply_delivery_after_start (running : JobRecord) (started_at : Timestamp)
    (active : Bool) : DispatcherM Unit := do
  if !MessageBureau.is_reply_delivery running || active then
    return ()
  else
    let _ ← complete config env depth running.job_id
      (reply_delivery_failed_decision started_at "reply_delivery_transport_unavailable")

/-- The call of `ExecutionService.start`. -/
def execution_start (running : JobRecord) : DispatcherM StartOutcome := do
  Prog.write (.start_execution running.job_id) fun s =>
    { s with starts := s.starts ++ [running.job_id] }
  return env.start running

/-- The part of `start_running_job` that follows `mark_active_for`. -/
def start_provider (running : JobRecord) (started_at : Timestamp) : DispatcherM Unit := do
  if !env.should_start running then
    append_event running .provider_start_skipped env.clock
    complete_reply_delivery_after_start config env depth running started_at false
  else
    append_event running .provider_start_attempt env.clock
    let outcome ← execution_start env running
    match outcome with
    | .raised => fail_provider_start config env depth running
    | .missing =>
      append_event running .provider_submission_missing env.clock
      complete_reply_delivery_after_start config env depth running started_at false
    | .submitted passive =>
      append_event running .provider_submission_created env.clock
      complete_reply_delivery_after_start config env depth running started_at (!passive)

def running_record (current : JobRecord) (started_at : Timestamp) : JobRecord :=
  { current with status := .running, updated_at := started_at }

def start_running_job (current : JobRecord) (started_at : Timestamp) : DispatcherM Unit := do
  let running := running_record current started_at
  onBureau (MessageBureau.mark_attempt_started env.service running started_at)
  append_job running
  append_event running .job_started started_at
  updateState fun s => s.mark_active_for running.agent_name running.job_id
  start_provider config env depth running started_at

def still_claimable (job : JobRecord) (agent_name : AgentName) : DispatcherM Bool := do
  let current ← get_job config job.job_id
  if current.all fun current => current.status ≠ job.status then
    return false
  else
    let queued ← onState fun s => s.queued_items_for agent_name
    if job.job_id ∉ queued then
      return false
    else
      let active ← onState fun s => s.active_job_for agent_name
      return active.isNone

/-- `_TERMINAL_PROVIDER_FAILURE_REPLY`. -/
def terminal_provider_failure_reply : String :=
  "CCB could not start this job: the Codex session reported that automatic reconnect could not restore it. Copy any text still visible in the pane, then relaunch or repair Codex and retry the job."

/-- The completion of `_fail_unstartable_job` and the removal of the queued entry. -/
def terminalize_unstartable (current : JobRecord) (agent_name : AgentName) (reason : String) :
    DispatcherM Unit := do
  ((complete config env depth current.job_id
      (failed_decision reason terminal_provider_failure_reply env.clock)).bind fun _ =>
    return ()).tryCatch fun _ => append_event current .preclaim_provider_failure_deferred env.clock
  let terminal ← get_job config current.job_id
  if terminal.any fun terminal => terminal.status.terminal then
    updateState fun s => s.remove_queued_for agent_name current.job_id

/-- `_fail_unstartable_job` once the lock is held. -/
def fail_unstartable_locked (job : JobRecord) (agent_name : AgentName) (reason : String) :
    DispatcherM Unit := do
  let current ← get_job config job.job_id
  match current with
  | none => return ()
  | some current =>
    if !current.status.pending || current.cancel_requested_at.isSome then
      return ()
    else
      let queued ← onState fun s => s.queued_items_for agent_name
      let active ← onState fun s => s.active_job_for agent_name
      if job.job_id ∉ queued ∨ active.isSome then
        return ()
      else
        let claimable ← onBureau (MessageBureau.claimable_request_job_ids agent_name)
        if job.job_id ∉ claimable then
          return ()
        else
          terminalize_unstartable config env depth current agent_name reason

def fail_unstartable_job (job : JobRecord) (agent_name : AgentName) (reason : String) :
    DispatcherM Unit :=
  Prog.withLock (fail_unstartable_locked config env depth job agent_name reason)

def preclaim_gate (job : JobRecord) (agent_name : AgentName) (terminalizable : Bool) :
    DispatcherM Bool := do
  match env.preclaim job with
  | .allowed => still_claimable config job agent_name
  | .blocked => return false
  | .terminal_failure reason =>
    if terminalizable then
      fail_unstartable_job config env depth job agent_name reason
    return false

/-- `_claim_request_job`, for the candidates at the head of the mailbox. -/
def claim_request_job (agent_name : AgentName) (queued_ids : List JobId) :
    List JobId → DispatcherM Unit
  | [] => return ()
  | candidate :: candidates => do
    if candidate ∉ queued_ids then
      claim_request_job agent_name queued_ids candidates
    else
      let current ← get_job config candidate
      match current with
      | none =>
        updateState fun s => s.remove_queued_for agent_name candidate
        claim_request_job agent_name queued_ids candidates
      | some current =>
        let allowed ← preclaim_gate config env depth current agent_name true
        if !allowed then
          return ()
        else
          updateState fun s => s.remove_queued_for agent_name candidate
          start_running_job config env depth current env.clock

/-- `_claim_reply_delivery`, for the candidates at the head of the mailbox. -/
def claim_reply_delivery (agent_name : AgentName) (queued_ids : List JobId) :
    List JobId → DispatcherM Unit
  | [] => return ()
  | candidate :: candidates => do
    if candidate ∉ queued_ids then
      claim_reply_delivery agent_name queued_ids candidates
    else
      let current ← get_job config candidate
      match current with
      | none =>
        updateState fun s => s.remove_queued_for agent_name candidate
        claim_reply_delivery agent_name queued_ids candidates
      | some current =>
        let allowed ← preclaim_gate config env depth current agent_name false
        if !allowed then
          return ()
        else
          let claimed ← claim_reply_delivery_start env current env.clock
          if !claimed then
            claim_reply_delivery agent_name queued_ids candidates
          else
            updateState fun s => s.remove_queued_for agent_name candidate
            start_running_job config env depth current env.clock

def start_agent_mailbox_job (agent_name : AgentName) : DispatcherM Unit := do
  let queued_ids ← onState fun s => s.queued_items_for agent_name
  let head ← onBureau (onMailbox agent_name MailboxKernel.head_pending_event)
  match (head.map fun head => head.event_type : Option InboundEventType) with
  | some .task_reply =>
    let candidates ← claimable_reply_delivery_job_ids config agent_name
    claim_reply_delivery config env depth agent_name queued_ids candidates
  | some .task_request =>
    let candidates ← onBureau (MessageBureau.claimable_request_job_ids agent_name)
    claim_request_job config env depth agent_name queued_ids candidates
  | _ => return ()

/-- One agent's turn in `tick_jobs`. -/
def tick_agent (agent_name : AgentName) : DispatcherM Unit := do
  let waiting ← onState fun s =>
    (s.active_job_for agent_name).isNone && !(s.queued_items_for agent_name).isEmpty
  if waiting && env.runnable agent_name then
    start_agent_mailbox_job config env depth agent_name

def tick_jobs : DispatcherM Unit :=
  Prog.forEach config.agent_names (tick_agent config env depth)

/-- `JobDispatcher.tick`; the sweep of text artifacts is no part of this. -/
def tick : DispatcherM Unit := do
  repair_callback_edges config env
  let _ ← prepare_reply_deliveries config env depth
  tick_jobs config env depth

end JobStart

end ClaudeCodeBridge.Model
