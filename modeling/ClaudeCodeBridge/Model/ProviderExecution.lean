import ClaudeCodeBridge.Model.CompletionDetectors
import ClaudeCodeBridge.Model.MessageBureau
import Mathlib.Data.List.Sort

/-!
# The execution service

`lib/provider_execution`: one active submission for each running job, polled through the
adapter of its provider.  Every poll result is persisted before it is handed on, with the
items of the poll and its decision; the dispatcher acknowledges the items one by one.
After a restart `restore_submission` reads that file.

The service is a state that each function returns anew; `now` is the clock reading of a
call.  Adapters are parameters.  A poll decision is terminal by its type, as
`ProviderPollResult` refuses any other, and so is a pending decision, which comes from one.
-/

set_option autoImplicit false

namespace ClaudeCodeBridge.Model

open Program

inductive CompletionItemKind where
  | anchor_seen | assistant_chunk | assistant_final | tool_call | tool_result | result
  | turn_boundary | turn_aborted | cancel_info | error | pane_dead | session_snapshot
  | session_mutation | session_rotate
  deriving DecidableEq

/-- `_SEMANTIC_PROGRESS_ITEM_KINDS`. -/
def CompletionItemKind.semantic_progress : CompletionItemKind → Bool
  | anchor_seen | assistant_chunk | assistant_final | tool_call | tool_result | result
  | turn_boundary | turn_aborted | cancel_info | error | pane_dead => true
  | session_snapshot | session_mutation | session_rotate => false

structure CompletionItem where
  kind : CompletionItemKind
  timestamp : Timestamp
  /-- `cursor.event_seq`. -/
  event_seq : Option ℤ
  deriving DecidableEq

/-- The keys of `runtime_state` that modelled code reads. -/
structure RuntimeState where
  mode : String
  no_wrap : Bool
  draft_guard_enabled : Bool
  prompt_sent : Option Bool
  anchor_seen : Bool
  anchor_emitted : Bool
  /-- `delivery_state` is `accepted`. -/
  delivery_accepted : Bool
  reliability_last_progress_at : Option Timestamp
  bound_turn_id : String
  bound_task_id : String
  reply_buffer : String
  last_agent_message : String
  last_final_answer : String
  last_assistant_message : String
  last_assistant_signature : String
  session_path : String
  deriving DecidableEq

/-- `{}`. -/
def RuntimeState.empty : RuntimeState :=
  ⟨"", false, false, none, false, false, false, none, "", "", "", "", "", "", "", ""⟩

structure ProviderSubmission where
  job_id : JobId
  provider : ProviderName
  accepted_at : Timestamp
  ready_at : Timestamp
  source_kind : CompletionSourceKind
  reply : String
  status : CompletionStatus
  reason : String
  diagnostics : Diagnostics
  runtime_state : RuntimeState
  deriving DecidableEq

structure ProviderRuntimeContext where
  workspace_path : Option String
  backend_type : Option String
  runtime_ref : Option String
  session_ref : Option String
  runtime_pid : Option ℤ
  runtime_health : Option String
  deriving DecidableEq

structure ProviderPollResult where
  submission : ProviderSubmission
  items : List CompletionItem
  decision : Option TerminalDecision
  deriving DecidableEq

structure PersistedExecutionState where
  submission : ProviderSubmission
  runtime_context : Option ProviderRuntimeContext
  resume_capable : Bool
  pending_decision : Option TerminalDecision
  pending_items : List CompletionItem
  applied_event_seqs : List ℤ
  deriving DecidableEq

structure ExecutionUpdate where
  job_id : JobId
  items : List CompletionItem
  decision : Option TerminalDecision
  submission : Option ProviderSubmission
  deriving DecidableEq

inductive RestoreStatus where
  | restored | replay_pending | terminal_pending | missing | abandoned
  deriving DecidableEq

structure ExecutionRestoreResult where
  job_id : JobId
  status : RestoreStatus
  reason : String
  resume_capable : Bool
  pending_items_count : ℕ
  decision : Option TerminalDecision
  deriving DecidableEq

def ExecutionRestoreResult.restored (r : ExecutionRestoreResult) : Bool :=
  match r.status with
  | .restored | .terminal_pending | .replay_pending => true
  | .missing | .abandoned => false

structure CompletionReliabilityPolicy where
  backend_type : Option String
  /-- `effective_no_terminal_timeout_s()`, in whole seconds. -/
  no_terminal_timeout_s : ℕ
  timeout_status : CompletionStatus
  timeout_reason : String
  deriving DecidableEq

structure ProviderExecutionAdapter where
  poll : ProviderSubmission → Timestamp → Option ProviderPollResult
  export_runtime_state : Option (ProviderSubmission → Option RuntimeState)
  resume : Option (JobRecord → ProviderSubmission → Option ProviderRuntimeContext →
    PersistedExecutionState → Timestamp → Option ProviderSubmission)
  restart_resume_supported : Bool
  completion_reliability_policy : Option CompletionReliabilityPolicy

abbrev ProviderExecutionRegistry := ProviderName → Option ProviderExecutionAdapter

structure ExecutionService where
  /-- `none` is a service without a state store. -/
  state_store : Option (Dict JobId PersistedExecutionState)
  active : Dict JobId ProviderSubmission
  runtime_contexts : Dict JobId (Option ProviderRuntimeContext)
  pending_replays : Dict JobId (List CompletionItem × Option TerminalDecision)
  deriving DecidableEq

namespace ExecutionService

/-- `ExecutionService(registry, state_store=..)`, with what an earlier process stored. -/
def init (state_store : Option (Dict JobId PersistedExecutionState)) : ExecutionService :=
  ⟨state_store, Dict.empty, Dict.empty, Dict.empty⟩

/-- `service._state_store.load(job_id)`. -/
def load (s : ExecutionService) (job_id : JobId) : Option PersistedExecutionState :=
  s.state_store.bind fun store => store.get job_id

/-- `service._state_store.save(state)`; the file is named by the submission's job. -/
def save (s : ExecutionService) (state : PersistedExecutionState) : ExecutionService :=
  { s with
    state_store := s.state_store.map fun store => store.set state.submission.job_id state }

/-- `service._state_store.remove(job_id)`. -/
def remove (s : ExecutionService) (job_id : JobId) : ExecutionService :=
  { s with state_store := s.state_store.map fun store => store.pop job_id }

def finish (s : ExecutionService) (job_id : JobId) : ExecutionService :=
  { s.remove job_id with
    active := s.active.pop job_id
    runtime_contexts := s.runtime_contexts.pop job_id
    pending_replays := s.pending_replays.pop job_id }

end ExecutionService

/-- `tuple(sorted({..}))`. -/
def sorted_set (values : List ℤ) : List ℤ := values.dedup.insertionSort (· ≤ ·)

def with_reliability_state (runtime_state source_state : RuntimeState) : RuntimeState :=
  match source_state.reliability_last_progress_at with
  | none => runtime_state
  | some at_ => { runtime_state with reliability_last_progress_at := some at_ }

/-- The draft guard's own keys go into the file whatever the adapter exports. -/
def with_draft_guard_state (runtime_state source_state : RuntimeState) : RuntimeState :=
  if source_state.draft_guard_enabled then
    { runtime_state with
      draft_guard_enabled := true
      prompt_sent := source_state.prompt_sent <|> runtime_state.prompt_sent }
  else runtime_state

/-- What the adapter exports of a submission, and whether it can resume from that. -/
def exported_runtime_state (adapter : Option ProviderExecutionAdapter)
    (submission : ProviderSubmission) : RuntimeState × Bool :=
  match adapter with
  | none => (RuntimeState.empty, false)
  | some adapter =>
    match adapter.export_runtime_state.bind fun exporter => exporter submission with
    | none => (RuntimeState.empty, false)
    | some exported => (exported, adapter.resume.isSome)

namespace ExecutionService

variable (registry : ProviderExecutionRegistry)

def persist_submission (s : ExecutionService) (job_id : JobId)
    (pending_decision : Option TerminalDecision) (pending_items : List CompletionItem)
    (applied_event_seqs : List ℤ) : ExecutionService :=
  match s.active.get job_id with
  | none => s
  | some submission =>
    let exported := exported_runtime_state (registry submission.provider) submission
    let runtime_state := with_draft_guard_state
      (with_reliability_state exported.1 submission.runtime_state) submission.runtime_state
    s.save
      { submission := { submission with runtime_state := runtime_state }
        runtime_context := (s.runtime_contexts.get job_id).join
        resume_capable := exported.2
        pending_decision := pending_decision
        pending_items := pending_items
        applied_event_seqs := sorted_set applied_event_seqs }

def acknowledge (s : ExecutionService) (job_id : JobId) : ExecutionService :=
  let s := { s with pending_replays := s.pending_replays.pop job_id }
  match s.load job_id with
  | none => s
  | some persisted => s.save { persisted with pending_items := [], applied_event_seqs := [] }

def acknowledge_item (s : ExecutionService) (job_id : JobId) (event_seq : Option ℤ) :
    ExecutionService :=
  match event_seq, s.load job_id with
  | some event_seq, some persisted =>
    if persisted.pending_items.isEmpty then s
    else
      s.save { persisted with
        applied_event_seqs := sorted_set (event_seq :: persisted.applied_event_seqs) }
  | _, _ => s

end ExecutionService

/-- `item.cursor.event_seq or -1`: a sequence number of 0 counts as missing. -/
def apply_marker (item : CompletionItem) : ℤ :=
  match item.event_seq with
  | none => -1
  | some event_seq => if event_seq = 0 then -1 else event_seq

/-- The items that are not acknowledged. -/
def filter_pending_items (persisted : PersistedExecutionState) : List CompletionItem :=
  if persisted.pending_items.isEmpty || persisted.applied_event_seqs.isEmpty then
    persisted.pending_items
  else
    persisted.pending_items.filter fun item =>
      apply_marker item ∉ persisted.applied_event_seqs

def semantic_progress_marker (submission : ProviderSubmission) :
    Bool × String × CompletionStatus × String × Bool × List String :=
  let runtime_state := submission.runtime_state
  (runtime_state.prompt_sent = some true, submission.reply, submission.status,
    submission.reason, runtime_state.anchor_seen || runtime_state.anchor_emitted,
    [runtime_state.bound_turn_id, runtime_state.bound_task_id, runtime_state.reply_buffer,
      runtime_state.last_agent_message, runtime_state.last_final_answer,
      runtime_state.last_assistant_message, runtime_state.last_assistant_signature,
      runtime_state.session_path])

def has_reliability_progress (result : ProviderPollResult)
    (previous_submission : ProviderSubmission) : Bool :=
  (result.items.any fun item => item.kind.semantic_progress) || result.decision.isSome
    || semantic_progress_marker result.submission
      ≠ semantic_progress_marker previous_submission

def with_last_progress_at (submission : ProviderSubmission) (at_ : Timestamp) :
    ProviderSubmission :=
  { submission with
    runtime_state := { submission.runtime_state with reliability_last_progress_at := some at_ } }

def apply_reliability_progress (result : ProviderPollResult)
    (previous_submission : ProviderSubmission) (now : Timestamp) : ProviderPollResult :=
  if has_reliability_progress result previous_submission then
    { result with submission := with_last_progress_at result.submission now }
  else result

def last_progress_timestamp (submission : ProviderSubmission) : Timestamp :=
  submission.runtime_state.reliability_last_progress_at.getD submission.ready_at

def build_timeout_result (submission : ProviderSubmission) (now last_progress_at : Timestamp)
    (policy : CompletionReliabilityPolicy) : ProviderPollResult :=
  { submission :=
      { submission with
        status := policy.timeout_status
        reason := policy.timeout_reason
        runtime_state :=
          { submission.runtime_state with
            reliability_last_progress_at := some last_progress_at } }
    items := []
    decision := some
      ⟨{ terminal := true
         status := policy.timeout_status
         reason := policy.timeout_reason
         reply := submission.reply
         anchor_seen :=
          submission.runtime_state.anchor_seen || submission.runtime_state.anchor_emitted
         source_kind := none
         finished_at := some now
         diagnostics := submission.diagnostics }, rfl⟩ }

def timeout_policy_for (s : ExecutionService) (job_id : JobId)
    (adapter : ProviderExecutionAdapter) : Option CompletionReliabilityPolicy :=
  adapter.completion_reliability_policy.filter fun policy =>
    policy.backend_type.isNone
      || ((s.runtime_contexts.get job_id).join.bind fun context => context.backend_type)
        = policy.backend_type

/-- A submission that waits for a human draft is not provider execution. -/
def waiting_for_draft (runtime_state : RuntimeState) : Bool :=
  runtime_state.draft_guard_enabled && runtime_state.prompt_sent = some false

def timeout_poll_result (s : ExecutionService) (job_id : JobId) (submission : ProviderSubmission)
    (adapter : ProviderExecutionAdapter) (now : Timestamp) : Option ProviderPollResult :=
  if waiting_for_draft submission.runtime_state then none
  else
    match timeout_policy_for s job_id adapter with
    | none => none
    | some policy =>
      let last_progress_at := last_progress_timestamp submission
      if policy.no_terminal_timeout_s = 0 then none
      else if now < last_progress_at + policy.no_terminal_timeout_s then none
      else some (build_timeout_result submission now last_progress_at policy)

def completion_source_for_kind : CompletionSourceKind → CompletionSource
  | .protocol_event_stream => .provider_event_stream
  | .terminal_text => .terminal_capture
  | .structured_result_stream | .session_event_log | .session_snapshot => .provider_native_log

def declares_herdr_agent_state_authority (diagnostics : Diagnostics) : Bool :=
  [diagnostics.completion_source, diagnostics.completion_source_kind].any fun source =>
    source = some .herdr_agent_state || source = some .herdr_agent_state_ref

/-- Fill in where the decision came from. -/
def annotated_diagnostics (submission : Option ProviderSubmission)
    (decision : CompletionDecision) : Diagnostics :=
  let diagnostics := decision.diagnostics
  match decision.source_kind <|> submission.map fun submission => submission.source_kind with
  | none => diagnostics
  | some source_kind =>
    { diagnostics with
      completion_source_kind := diagnostics.completion_source_kind <|> some (.kind source_kind)
      completion_source :=
        diagnostics.completion_source <|> some (completion_source_for_kind source_kind) }

def annotate_completion_authority (submission : Option ProviderSubmission)
    (decision : CompletionDecision) : CompletionDecision :=
  let diagnostics := annotated_diagnostics submission decision
  if decision.status = .completed && declares_herdr_agent_state_authority diagnostics then
    { decision with
      status := .incomplete
      reason := "herdr_agent_state_not_completion_authority"
      reply := ""
      anchor_seen := false
      diagnostics := diagnostics }
  else { decision with diagnostics := diagnostics }

@[simp] theorem annotate_completion_authority_terminal (submission : Option ProviderSubmission)
    (decision : CompletionDecision) :
    (annotate_completion_authority submission decision).terminal = decision.terminal := by
  simp only [annotate_completion_authority]
  split <;> rfl

def annotate_poll_result_authority (result : ProviderPollResult) : ProviderPollResult :=
  { result with
    decision := result.decision.map fun (decision : TerminalDecision) =>
      ⟨annotate_completion_authority (some result.submission) decision,
        (annotate_completion_authority_terminal _ _).trans decision.property⟩ }

/-- The result of polling the adapter, with the reliability monitor's in its place. -/
def polled_result (s : ExecutionService) (job_id : JobId) (submission : ProviderSubmission)
    (adapter : ProviderExecutionAdapter) (now : Timestamp) : Option ProviderPollResult :=
  match adapter.poll submission now with
  | none => timeout_poll_result s job_id submission adapter now
  | some result =>
    let result := apply_reliability_progress result submission now
    if result.decision.isNone then
      timeout_poll_result s job_id result.submission adapter now <|> some result
    else some result

namespace ExecutionService

variable (registry : ProviderExecutionRegistry)

/-- The locked end of `process_active_job`: persist the result, then hand it on. -/
def record_result (s : ExecutionService) (job_id : JobId) (result : ProviderPollResult) :
    ExecutionService × List ExecutionUpdate :=
  let s := { s with active := s.active.set job_id result.submission }
  let s := s.persist_submission registry job_id result.decision result.items []
  if result.items.isEmpty && result.decision.isNone then (s, [])
  else
    let update : ExecutionUpdate := ⟨job_id, result.items, result.decision, some result.submission⟩
    if result.decision.isSome then
      ({ s with
          active := s.active.pop job_id
          runtime_contexts := s.runtime_contexts.pop job_id }, [update])
    else (s, [update])

def process_active_job (s : ExecutionService) (job_id : JobId)
    (submission : ProviderSubmission) (now : Timestamp) :
    ExecutionService × List ExecutionUpdate :=
  if s.active.get job_id ≠ some submission then (s, [])
  else
    match registry submission.provider with
    | none => ({ s with active := s.active.pop job_id }, [])
    | some adapter =>
      match polled_result s job_id submission adapter now with
      | none => (s, [])
      | some result =>
        s.record_result registry job_id (annotate_poll_result_authority result)

/-- A replayed terminal decision is kept until the job is finished, unless the job is
active again. -/
def should_keep_pending_replay (s : ExecutionService) (job_id : JobId)
    (decision : Option TerminalDecision) : Bool :=
  decision.isSome && (s.active.get job_id).isNone

def drain_pending_replays (s : ExecutionService) : ExecutionService × List ExecutionUpdate :=
  (s.pending_replays.items.foldl
    (fun s replay =>
      if s.should_keep_pending_replay replay.1 replay.2.2 then s
      else { s with pending_replays := s.pending_replays.pop replay.1 }) s,
    s.pending_replays.items.map fun replay =>
      ⟨replay.1, replay.2.1, replay.2.2, none⟩)

def process_active_jobs (s : ExecutionService) (now : Timestamp)
    (items : List (JobId × ProviderSubmission)) : ExecutionService × List ExecutionUpdate :=
  items.foldl
    (fun acc item =>
      let next := acc.1.process_active_job registry item.1 item.2 now
      (next.1, acc.2 ++ next.2)) (s, [])

def poll_updates (s : ExecutionService) (now : Timestamp) :
    ExecutionService × List ExecutionUpdate :=
  let replayed := s.drain_pending_replays
  let polled := replayed.1.process_active_jobs registry now
    (replayed.1.active.items.filter fun item =>
      !(replayed.2.any fun update => update.job_id = item.1))
  (polled.1, replayed.2 ++ polled.2)

def abandon_restore (s : ExecutionService) (job : JobRecord) (reason : String)
    (resume_capable : Bool) (pending_items_count : ℕ) :
    ExecutionService × ExecutionRestoreResult :=
  (s.remove job.job_id, ⟨job.job_id, .abandoned, reason, resume_capable, pending_items_count, none⟩)

def submission_requires_active_turn (persisted : PersistedExecutionState) : Bool :=
  persisted.submission.runtime_state.mode = "active"
    && !persisted.submission.runtime_state.no_wrap
    && persisted.submission.status = .incomplete && persisted.submission.reason = "in_progress"

def same_runtime_identity (persisted_context restored_context : Option ProviderRuntimeContext) :
    Bool :=
  match persisted_context, restored_context with
  | some persisted, some restored =>
    let same (field : ProviderRuntimeContext → Option String) :=
      let value := Completion.strip ((field persisted).getD "")
      value ≠ "" && value = Completion.strip ((field restored).getD "")
    decide (0 < persisted.runtime_pid.getD 0) && persisted.runtime_pid = restored.runtime_pid
      && same (fun context => context.runtime_ref) && same (fun context => context.session_ref)
      && same (fun context => context.workspace_path)
  | _, _ => false

/-- The runtime health values that say the provider was restarted. -/
def restarted_healths : List String :=
  ["restored", "pane-dead", "pane-missing", "pane-foreign", "runtime-unavailable",
    "runtime_unavailable", "stopped", "failed"]

/-- `restarted_runtime_without_pending_result`, as a test. -/
def restarted_runtime_without_pending_result (adapter : ProviderExecutionAdapter)
    (persisted : PersistedExecutionState) (pending_items : List CompletionItem)
    (restored_context : Option ProviderRuntimeContext) : Bool :=
  pending_items.isEmpty && persisted.pending_decision.isNone
    && !adapter.restart_resume_supported && submission_requires_active_turn persisted
    && (Completion.strip ((restored_context.bind fun context => context.runtime_health).getD
      "")).toLower ∈ restarted_healths
    && !same_runtime_identity persisted.runtime_context restored_context

/-- `resume_or_result`: the submission to go on with, or the reason there is none. -/
def resume_or_reason (adapter : ProviderExecutionAdapter) (job : JobRecord)
    (persisted : PersistedExecutionState) (restored_context : Option ProviderRuntimeContext)
    (now : Timestamp) : Except String ProviderSubmission :=
  match adapter.resume with
  | none => .error "provider_resume_unsupported"
  | some resume =>
    if persisted.resume_capable then
      match resume job persisted.submission restored_context persisted now with
      | some submission => .ok submission
      | none => .error "provider_resume_rejected"
    else .error "provider_resume_unsupported"

def persist_restored_submission (s : ExecutionService) (job_id : JobId)
    (submission : ProviderSubmission) (restored_context : Option ProviderRuntimeContext)
    (persisted : PersistedExecutionState) (pending_items : List CompletionItem) :
    ExecutionService :=
  { s with
    active := s.active.set job_id submission
    runtime_contexts := s.runtime_contexts.set job_id restored_context
  }.persist_submission registry job_id persisted.pending_decision pending_items
    persisted.applied_event_seqs

/-- The pending items will be replayed, whatever becomes of the submission. -/
def recover_pending_items (s : ExecutionService) (job_id : JobId)
    (persisted : PersistedExecutionState) : ExecutionService :=
  if (filter_pending_items persisted).isEmpty then s
  else
    { s with
      pending_replays := s.pending_replays.set job_id
        (filter_pending_items persisted, persisted.pending_decision) }

def restored_result (job : JobRecord) (pending_items : List CompletionItem) :
    ExecutionRestoreResult :=
  if pending_items.isEmpty then ⟨job.job_id, .restored, "provider_resumed", true, 0, none⟩
  else
    ⟨job.job_id, .replay_pending, "pending_items_recovered", true, pending_items.length, none⟩

/-- `restore_submission` once the items of the job's file are recovered. -/
def restore_recovered (s : ExecutionService) (job : JobRecord) (adapter : ProviderExecutionAdapter)
    (persisted : PersistedExecutionState) (pending_items : List CompletionItem)
    (restored_context : Option ProviderRuntimeContext) (now : Timestamp) :
    ExecutionService × ExecutionRestoreResult :=
  if restarted_runtime_without_pending_result adapter persisted pending_items
      restored_context then
    s.abandon_restore job "provider_runtime_restarted_without_pending_replay"
      persisted.resume_capable 0
  else
    match resume_or_reason adapter job persisted restored_context now with
    | .error reason =>
      s.abandon_restore job reason persisted.resume_capable pending_items.length
    | .ok submission =>
      (s.persist_restored_submission registry job.job_id submission restored_context
        persisted pending_items, restored_result job pending_items)

/-- `restore_submission` once the job's file is loaded. -/
def restore_persisted (s : ExecutionService) (job : JobRecord)
    (adapter : ProviderExecutionAdapter) (persisted : PersistedExecutionState)
    (runtime_context : Option ProviderRuntimeContext) (now : Timestamp) :
    ExecutionService × ExecutionRestoreResult :=
  let pending_items := filter_pending_items persisted
  let s := s.recover_pending_items job.job_id persisted
  if persisted.pending_decision.isSome && pending_items.isEmpty then
    (s, ⟨job.job_id, .terminal_pending, "terminal_decision_recovered",
      persisted.resume_capable, 0, persisted.pending_decision⟩)
  else
    s.restore_recovered registry job adapter persisted pending_items
      (runtime_context <|> persisted.runtime_context) now

def restore_submission (s : ExecutionService) (job : JobRecord)
    (runtime_context : Option ProviderRuntimeContext) (now : Timestamp) :
    ExecutionService × ExecutionRestoreResult :=
  if (s.active.get job.job_id).isSome then
    (s, ⟨job.job_id, .restored, "already_active", true, 0, none⟩)
  else if s.state_store.isNone then
    (s, ⟨job.job_id, .missing, "state_store_disabled", false, 0, none⟩)
  else
    match registry job.provider with
    | none => s.abandon_restore job "adapter_missing" false 0
    | some adapter =>
      match s.load job.job_id with
      | none => (s, ⟨job.job_id, .missing, "state_missing", false, 0, none⟩)
      | some persisted =>
        if persisted.submission.provider ≠ job.provider then
          s.abandon_restore job "provider_mismatch" persisted.resume_capable
            persisted.pending_items.length
        else s.restore_persisted registry job adapter persisted runtime_context now

end ExecutionService

end ClaudeCodeBridge.Model
