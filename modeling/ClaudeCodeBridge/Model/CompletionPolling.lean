import ClaudeCodeBridge.Model.DispatcherState
import ClaudeCodeBridge.Model.ProviderExecution

/-!
# Completing and restoring running jobs

The dispatcher's side of the execution service: `polling_service.py` takes the updates of
a poll to `complete`, `restore_runtime/execution.py` decides after a restart what becomes
of each running job.

`complete` stands here for `complete_job` up to the terminal record and the end of the
execution; what it then tells the message bureau is no part of these two functions.  The
decision it is given goes through `enforce_frontdesk_boundary`, `merge_terminal_decision`
and `spill_terminal_reply_if_needed` on every path; they are the parameter `settle`.
`completions` remembers each decision that made a job terminal.
-/

set_option autoImplicit false

namespace ClaudeCodeBridge.Model

open Program

/-- The completion detectors, over their own state; without a tracker `current` is `none`
and `tick_all` empty. -/
structure CompletionTracker (τ : Type) where
  start : τ → JobRecord → τ
  /-- The decision of `current(job_id)`. -/
  current : τ → JobId → Option CompletionDecision
  ingest : τ → JobId → CompletionItem → τ
  finish : τ → JobId → τ
  tick_all : τ → Timestamp → τ × List (JobId × CompletionDecision)

structure PollingContext (τ : Type) where
  registry : ProviderExecutionRegistry
  tracker : CompletionTracker τ
  /-- `build_job_runtime_context` of what the agent registry knows. -/
  runtime_context : AgentName → Option ProviderRuntimeContext
  settle : τ → JobRecord → CompletionDecision → Timestamp → CompletionDecision

structure PollingDispatcher (τ : Type) where
  jobs : List JobRecord
  state : DispatcherState
  service : ExecutionService
  tracker : τ
  completions : List (JobId × TerminalDecision)

def reply_delivery_failed_decision (finished_at : Timestamp) (reason : String) : TerminalDecision :=
  ⟨{ terminal := true
     status := .incomplete
     reason := reason
     reply := ""
     anchor_seen := false
     source_kind := none
     finished_at := some finished_at
     diagnostics := Diagnostics.empty }, rfl⟩

/-- The decision of `_failed_restore_decision`. -/
def failed_restore_decision (restored : ExecutionRestoreResult) (failed_at : Timestamp) :
    TerminalDecision :=
  let runtime_restarted := restored.reason = "provider_runtime_restarted_without_pending_replay"
  ⟨{ terminal := true
     status := if runtime_restarted then .failed else .incomplete
     reason := if runtime_restarted then "runtime_unavailable"
       else "ccbd_restart_requires_resubmit"
     reply := ""
     anchor_seen := false
     source_kind := none
     finished_at := some failed_at
     diagnostics := { Diagnostics.empty with
       error_type := if runtime_restarted then some "runtime_unavailable" else none } }, rfl⟩

def reply_delivery_turn_end_outcome (decision : CompletionDecision) : CompletionDecision :=
  if decision.status ≠ .incomplete then decision
  else if !(decision.reason.endsWith "_empty_reply")
      && decision.diagnostics.error_type ≠ some "empty_provider_reply" then decision
  else
    { decision with
      status := .completed
      reason := "reply_delivery_turn_complete"
      reply := "" }

def requires_codex_active_acceptance_gate (submission : ProviderSubmission) : Bool :=
  submission.provider = "codex" && submission.runtime_state.mode = "active"

def incomplete_provider_completion (decision : CompletionDecision) (reason : String)
    (error_type : Option String) : CompletionDecision :=
  { decision with
    status := .incomplete
    reason := reason
    reply := ""
    anchor_seen := false
    diagnostics := { decision.diagnostics with
      error_type := error_type <|> decision.diagnostics.error_type } }

/-- What a codex submission that is active must show before it completes. -/
def codex_acceptance_gate (submission : ProviderSubmission) (reply_delivery : Bool)
    (decision : CompletionDecision) : CompletionDecision :=
  if !requires_codex_active_acceptance_gate submission then decision
  else if !reply_delivery && MessageBureau.blank decision.reply then
    incomplete_provider_completion decision "task_complete_empty_reply"
      (some "empty_provider_reply")
  else if submission.runtime_state.no_wrap then decision
  else if submission.runtime_state.delivery_accepted
      && (submission.runtime_state.anchor_seen || decision.anchor_seen) then decision
  else
    incomplete_provider_completion decision
      (if submission.runtime_state.delivery_accepted then
        "terminal_after_session_rotate_without_anchor"
      else "terminal_before_provider_acceptance") none

/-- The isolation of completions that the provider never accepted. -/
def acceptance_gate (submission : Option ProviderSubmission) (reply_delivery : Bool)
    (decision : CompletionDecision) : CompletionDecision :=
  match decision.status, submission with
  | .completed, some submission => codex_acceptance_gate submission reply_delivery decision
  | _, _ => decision

/-- `_validate_provider_completion_decision`, for a terminal decision. -/
def validate_provider_completion_decision (submission : Option ProviderSubmission)
    (decision : CompletionDecision) (job : JobRecord) : CompletionDecision :=
  let decision := annotate_completion_authority submission decision
  if MessageBureau.is_reply_delivery job then
    acceptance_gate submission true (reply_delivery_turn_end_outcome decision)
  else acceptance_gate submission false decision

theorem reply_delivery_turn_end_outcome_terminal (decision : CompletionDecision) :
    (reply_delivery_turn_end_outcome decision).terminal = decision.terminal := by
  unfold reply_delivery_turn_end_outcome
  split
  · rfl
  · split <;> rfl

theorem codex_acceptance_gate_terminal (submission : ProviderSubmission)
    (reply_delivery : Bool) (decision : CompletionDecision) :
    (codex_acceptance_gate submission reply_delivery decision).terminal
      = decision.terminal := by
  unfold codex_acceptance_gate incomplete_provider_completion
  repeat' split
  all_goals rfl

theorem acceptance_gate_terminal (submission : Option ProviderSubmission)
    (reply_delivery : Bool) (decision : CompletionDecision) :
    (acceptance_gate submission reply_delivery decision).terminal = decision.terminal := by
  unfold acceptance_gate
  split
  · exact codex_acceptance_gate_terminal _ _ _
  · rfl

theorem validate_provider_completion_decision_terminal (submission : Option ProviderSubmission)
    (decision : CompletionDecision) (job : JobRecord) :
    (validate_provider_completion_decision submission decision job).terminal
      = decision.terminal := by
  have hannotated := annotate_completion_authority_terminal submission decision
  simp only [validate_provider_completion_decision]
  split
  · rw [acceptance_gate_terminal, reply_delivery_turn_end_outcome_terminal, hannotated]
  · rw [acceptance_gate_terminal, hannotated]

/-- The gate on what `complete` accepts. -/
def validated (submission : Option ProviderSubmission) (decision : TerminalDecision)
    (job : JobRecord) : TerminalDecision :=
  ⟨validate_provider_completion_decision submission decision job,
    (validate_provider_completion_decision_terminal _ _ _).trans decision.property⟩

namespace PollingDispatcher

variable {τ : Type} (ctx : PollingContext τ)

/-- `records.get_job`, without the index entry it leaves behind for a job it had to
search for. -/
def get_job (d : PollingDispatcher τ) (job_id : JobId) : Option JobRecord :=
  match d.state.target_for_job job_id with
  | some agent_name => latest? (fun r => r.job_id) job_id (list_agent d.jobs agent_name)
  | none => d.state.slots.findSome? fun agent_name =>
    latest? (fun r => r.job_id) job_id (list_agent d.jobs agent_name)

/-- The terminal record of `persist_terminal_completion`. -/
def terminal_record (tracker : τ) (current : JobRecord) (decision : TerminalDecision)
    (now : Timestamp) : JobRecord :=
  let finished_at := decision.val.finished_at.getD now
  let settled := ctx.settle tracker current decision finished_at
  { current with
    status := settled.status.toJobStatus
    terminal_decision := some settled
    updated_at := finished_at }

@[simp] theorem terminal_record_job_id (tracker : τ) (current : JobRecord)
    (decision : TerminalDecision) (now : Timestamp) :
    (terminal_record ctx tracker current decision now).job_id = current.job_id := rfl

theorem terminal_record_terminal (tracker : τ) (current : JobRecord)
    (decision : TerminalDecision) (now : Timestamp) :
    (terminal_record ctx tracker current decision now).status.terminal = true := by
  show (CompletionStatus.toJobStatus _).terminal = true
  cases (ctx.settle tracker current decision (decision.val.finished_at.getD now)).status <;> rfl

/-- `complete_job` of a job that is not terminal. -/
def complete_current (d : PollingDispatcher τ) (current : JobRecord)
    (decision : TerminalDecision) (now : Timestamp) : PollingDispatcher τ :=
  let terminal := terminal_record ctx d.tracker current decision now
  { jobs := d.jobs ++ [terminal]
    state := (d.state.record terminal).clear_active_for current.agent_name current.job_id
    service := d.service.finish current.job_id
    tracker := ctx.tracker.finish d.tracker current.job_id
    completions := d.completions ++ [(current.job_id, decision)] }

def complete (d : PollingDispatcher τ) (job_id : JobId) (decision : TerminalDecision)
    (now : Timestamp) : Except Failure (PollingDispatcher τ) :=
  match d.get_job job_id with
  | none => .error (.dispatchError s!"unknown job: {job_id}")
  | some current =>
    if current.status.terminal then .ok d
    else .ok (d.complete_current ctx current decision now)

/-- `_ingest_update_items`; the second component is the tracker's decision. -/
def ingest_update_items (d : PollingDispatcher τ) (current : JobRecord)
    (update : ExecutionUpdate) : PollingDispatcher τ × Option CompletionDecision :=
  if (update.submission.map fun s => waiting_for_draft s.runtime_state).getD false then
    ({ d with tracker := ctx.tracker.finish d.tracker update.job_id }, none)
  else
    let started :=
      if (ctx.tracker.current d.tracker update.job_id).isNone then
        ctx.tracker.start d.tracker current
      else d.tracker
    let tracker := update.items.foldl
      (fun tracker item => ctx.tracker.ingest tracker update.job_id item) started
    let service := update.items.foldl
      (fun service item => service.acknowledge_item update.job_id item.event_seq) d.service
    ({ d with tracker := tracker, service := service }, ctx.tracker.current tracker update.job_id)

def terminal? (decision : CompletionDecision) : Option TerminalDecision :=
  if h : decision.terminal = true then some ⟨decision, h⟩ else none

def resolve_update_decision (update : ExecutionUpdate) (tracked : Option CompletionDecision)
    (job : JobRecord) : Option TerminalDecision :=
  (update.decision <|> tracked.bind terminal?).map fun decision =>
    validated update.submission decision job

/-- One turn of the loop of `poll_completion_updates`; it also returns whether the job was
completed. -/
def handle_update (d : PollingDispatcher τ) (update : ExecutionUpdate) (now : Timestamp) :
    Except Failure (PollingDispatcher τ × Bool) :=
  match d.get_job update.job_id with
  | none => .ok ({ d with service := d.service.finish update.job_id }, false)
  | some current =>
    if current.status.terminal then
      .ok ({ d with service := d.service.finish update.job_id }, false)
    else do
      let ingested := d.ingest_update_items ctx current update
      match resolve_update_decision update ingested.2 current with
      | some decision =>
        let completed ← ingested.1.complete ctx update.job_id decision now
        return (completed, true)
      | none =>
        return ({ ingested.1 with
          service := ingested.1.service.acknowledge update.job_id }, false)

/-- The loop over the updates; it also returns the ids of the completed jobs. -/
def handle_updates (d : PollingDispatcher τ) (updates : List ExecutionUpdate)
    (now : Timestamp) : Except Failure (PollingDispatcher τ × List JobId) :=
  updates.foldlM
    (fun acc update => do
      let handled ← acc.1.handle_update ctx update now
      return (handled.1, if handled.2 then acc.2 ++ [update.job_id] else acc.2))
    (d, [])

/-- One tracked job of `_tick_tracker`. -/
def handle_tracked (d : PollingDispatcher τ) (completed_ids : List JobId)
    (tracked : JobId × CompletionDecision) (now : Timestamp) :
    Except Failure (PollingDispatcher τ) :=
  match d.get_job tracked.1 with
  | none => .ok d
  | some current =>
    if current.status.terminal || tracked.1 ∈ completed_ids then .ok d
    else
      match terminal? tracked.2 with
      | none => .ok d
      | some decision =>
        d.complete ctx tracked.1 (validated (d.service.active.get tracked.1) decision current) now

def tick_tracker (d : PollingDispatcher τ) (completed_ids : List JobId) (now : Timestamp) :
    Except Failure (PollingDispatcher τ) :=
  let waiting := d.service.active.items.filter fun item =>
    waiting_for_draft item.2.runtime_state
  let tracker := waiting.foldl (fun tracker item => ctx.tracker.finish tracker item.1) d.tracker
  let ticked := ctx.tracker.tick_all tracker now
  ticked.2.foldlM (fun d tracked => d.handle_tracked ctx completed_ids tracked now)
    { d with tracker := ticked.1 }

def poll_completion_updates (d : PollingDispatcher τ) (now : Timestamp) :
    Except Failure (PollingDispatcher τ) := do
  let polled := d.service.poll_updates ctx.registry now
  let handled ← { d with service := polled.1 }.handle_updates ctx polled.2 now
  handled.1.tick_tracker ctx handled.2 now

def ensure_completion_tracker (d : PollingDispatcher τ) (current : JobRecord) :
    PollingDispatcher τ :=
  if (ctx.tracker.current d.tracker current.job_id).isNone then
    { d with tracker := ctx.tracker.start d.tracker current }
  else d

/-- What becomes of a running job that is no reply delivery. -/
def restore_execution (d : PollingDispatcher τ) (current : JobRecord) (now : Timestamp) :
    Except Failure (PollingDispatcher τ) :=
  let restored := d.service.restore_submission ctx.registry current
    (ctx.runtime_context current.agent_name) now
  let d := { d with service := restored.1 }
  match restored.2.status, restored.2.decision with
  | .terminal_pending, some decision =>
    (d.ensure_completion_tracker ctx current).complete ctx current.job_id decision now
  | _, _ =>
    if restored.2.restored then .ok (d.ensure_completion_tracker ctx current)
    else d.complete ctx current.job_id (failed_restore_decision restored.2 now) now

def restore_current_job (d : PollingDispatcher τ) (job_id : JobId) (now : Timestamp) :
    Except Failure (PollingDispatcher τ) :=
  match d.get_job job_id with
  | none => .ok d
  | some current =>
    if current.status ≠ .running then .ok d
    else if MessageBureau.is_reply_delivery current then
      d.complete ctx current.job_id
        (reply_delivery_failed_decision now "reply_delivery_restart_requeued") now
    else d.restore_execution ctx current now

def restore_running_jobs (d : PollingDispatcher τ) (now : Timestamp) :
    Except Failure (PollingDispatcher τ) :=
  d.state.active_items.foldlM (fun d item => d.restore_current_job ctx item.2 now) d

/-- What a restarted daemon begins with: the job records and the execution files. -/
def restarted (jobs : List JobRecord) (state_store : Option (Dict JobId PersistedExecutionState))
    (agent_names : List AgentName) (mailbox_order : AgentName → List JobId) (tracker : τ) :
    PollingDispatcher τ :=
  { jobs := jobs
    state := DispatcherState.rebuild (list_agent jobs) agent_names mailbox_order
    service := ExecutionService.init state_store
    tracker := tracker
    completions := [] }

/-- Restore, then poll once at each of the times. -/
def restore_and_poll (d : PollingDispatcher τ) (now : Timestamp) (polls : List Timestamp) :
    Except Failure (PollingDispatcher τ) := do
  let restored ← d.restore_running_jobs ctx now
  polls.foldlM (fun d now => d.poll_completion_updates ctx now) restored

end PollingDispatcher

end ClaudeCodeBridge.Model
