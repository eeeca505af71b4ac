import ClaudeCodeBridge.Program.Threads
import ClaudeCodeBridge.Model.ProviderExecution

/-!
# Calls of the execution service

`lib/provider_execution/service.py` and `service_runtime/polling.py` as several threads
run them.  A critical section of the transition lock is one access; `adapter.start` and
`adapter.poll` are accesses of their own, as the lock is not held there.

A submission is compared by identity, so the active map stands beside the identities of
its objects.  An adapter may do something else in each of its calls: the `Environment`
says what the service finds at its `n`-th access.  The `history` names what the calls
did; no call reads it.
-/

set_option autoImplicit false

namespace ClaudeCodeBridge.Model

open Program

/-- A submission with its identity. -/
structure SubmissionObject where
  ref : ℕ
  value : ProviderSubmission
  deriving DecidableEq

/-- A start token, `object()`, with the thread that made it. -/
structure StartToken (ι : Type) where
  thread : ι
  number : ℕ
  deriving DecidableEq

inductive ActiveFollowupStatus where
  | accepted | injected | rejected | terminal
  deriving DecidableEq

structure ActiveFollowupRequest where
  followup_id : ℕ
  job_id : JobId
  message : String
  expected_provider_turn_ref : String
  deriving DecidableEq

structure ActiveFollowupResult where
  submission : Option SubmissionObject
  status : ActiveFollowupStatus
  reason : String
  mechanism : String
  provider_turn_ref : Option String
  deriving DecidableEq

inductive ExecutionEvent (ι : Type) where
  | start_began (token : StartToken ι) (job_id : JobId)
  | start_failed (token : StartToken ι) (job_id : JobId)
  /-- `adapter.start` returned. -/
  | start_returned (token : StartToken ι) (job_id : JobId) (submission : SubmissionObject)
  /-- The submission became active. -/
  | started (token : StartToken ι) (job_id : JobId) (submission : SubmissionObject)
  /-- `start` passed the submission to `_cancel_submission`. -/
  | discarded (token : StartToken ι) (job_id : JobId) (submission : SubmissionObject)
  /-- `cancel` or `finish` left its critical section. -/
  | ended (job_id : JobId)
  /-- `cancel` passed the submission to `_cancel_submission`. -/
  | cancelled (submission : SubmissionObject)
  /-- The result of polling the submission `polled` was installed. -/
  | polled (job_id : JobId) (polled : ℕ) (submission : SubmissionObject)
  /-- A poll took the job out of the active map. -/
  | released (job_id : JobId)
  /-- A follow-up replaced the submission, with the job's file before and after. -/
  | injected (job_id : JobId) (submission : SubmissionObject)
      (before after : Option PersistedExecutionState)
  /-- The job's file was written. -/
  | saved (job_id : JobId)
  deriving DecidableEq

/-- What the service finds at its `n`-th access. -/
structure Environment where
  clock : ℕ → Timestamp
  registry : ℕ → ProviderExecutionRegistry
  /-- `consume_for_job` and `build_terminal_replay` of the fault injection. -/
  fault : ℕ → JobRecord → Option (List CompletionItem × Option TerminalDecision)
  start : ℕ → JobRecord → Option ProviderRuntimeContext → Timestamp → Except String SubmissionObject
  /-- The identity of the submission in a poll's result. -/
  result_ref : ℕ → SubmissionObject → ℕ
  /-- `none` is an adapter that cannot inject, a `none` result no `ActiveFollowupResult`. -/
  inject : ℕ → ProviderName → Option (SubmissionObject → ActiveFollowupRequest → Timestamp →
    Option ActiveFollowupResult)

structure Executions (ι : Type) where
  service : ExecutionService
  starting : Dict JobId (StartToken ι)
  /-- The identities of the submissions in `service.active`. -/
  identity : Dict JobId ℕ
  /-- Accesses so far. -/
  accesses : ℕ
  history : List (ExecutionEvent ι)

abbrev ExecM (ι : Type) := Prog Unit (Executions ι) Unit

namespace Executions

variable {ι : Type} (env : Environment)

/-- `ExecutionService(registry, ..)`, with what an earlier process stored. -/
def init (state_store : Option (Dict JobId PersistedExecutionState)) : Executions ι :=
  { service := ExecutionService.init state_store
    starting := .empty
    identity := .empty
    accesses := 0
    history := [] }

def note (x : Executions ι) (event : ExecutionEvent ι) : Executions ι :=
  { x with history := x.history ++ [event] }

/-- `self._active[job_id] = submission`. -/
def set_active (x : Executions ι) (job_id : JobId) (submission : SubmissionObject) : Executions ι :=
  { x with
    service := { x.service with active := x.service.active.set job_id submission.value }
    identity := x.identity.set job_id submission.ref }

/-- `self._active.get(job_id)`. -/
def active_object (x : Executions ι) (job_id : JobId) : Option SubmissionObject :=
  match x.service.active.get job_id, x.identity.get job_id with
  | some value, some ref => some ⟨ref, value⟩
  | _, _ => none

/-- `self._active.pop(job_id, None)`. -/
def pop_active (x : Executions ι) (job_id : JobId) : Executions ι :=
  { x with
    service := { x.service with active := x.service.active.pop job_id }
    identity := x.identity.pop job_id }

/-- `self._persist(job_id, ..)`. -/
def persist (x : Executions ι) (job_id : JobId) (pending_decision : Option TerminalDecision)
    (pending_items : List CompletionItem) : Executions ι :=
  let service := x.service.persist_submission (env.registry x.accesses) job_id
    pending_decision pending_items []
  match x.service.active.get job_id, x.service.state_store with
  | some submission, some _ => { x with service := service }.note (.saved submission.job_id)
  | _, _ => { x with service := service }

/-- `_state_store.remove(job_id)` after the job is taken out of all maps. -/
def remove_job (x : Executions ι) (job_id : JobId) : Executions ι :=
  { x with
    service := x.service.finish job_id
    starting := x.starting.pop job_id
    identity := x.identity.pop job_id }.note (.ended job_id)

/-- An access that reads the store and leaves it as `f` does. -/
def atomically {α : Type} (f : Executions ι → α × Executions ι) : ExecM ι α :=
  Prog.update () (fun x => (f x).1) fun x =>
    { (f x).2 with accesses := (f x).2.accesses + 1 }

/-- The first critical section: the token and the clock, unless there is nothing to start. -/
def begin_start (i : ι) (job : JobRecord) (runtime_context : Option ProviderRuntimeContext)
    (x : Executions ι) : Option (StartToken ι × Timestamp) × Executions ι :=
  let now := env.clock x.accesses
  match env.fault x.accesses job with
  | some replay =>
    (none, { x with
      service := { x.service with
        runtime_contexts := x.service.runtime_contexts.set job.job_id runtime_context
        pending_replays := x.service.pending_replays.set job.job_id replay } })
  | none =>
    if (env.registry x.accesses job.provider).isNone then (none, x)
    else
      let token : StartToken ι := ⟨i, x.accesses⟩
      (some (token, now), { x with starting := x.starting.set job.job_id token }.note
        (.start_began token job.job_id))

/-- `adapter.start`. -/
def call_start (token : StartToken ι) (job : JobRecord)
    (runtime_context : Option ProviderRuntimeContext) (now : Timestamp) (x : Executions ι) :
    Except String SubmissionObject × Executions ι :=
  match env.start x.accesses job runtime_context now with
  | .error e => (.error e, x)
  | .ok submission => (.ok submission, x.note (.start_returned token job.job_id submission))

/-- The critical section after an exception. -/
def withdraw [DecidableEq ι] (token : StartToken ι) (job_id : JobId) (x : Executions ι) :
    Unit × Executions ι :=
  if x.starting.get job_id = some token then
    ((), { x with starting := x.starting.pop job_id }.note (.start_failed token job_id))
  else ((), x)

/-- The last critical section: whether the submission became active. -/
def settle_start [DecidableEq ι] (token : StartToken ι) (job_id : JobId)
    (runtime_context : Option ProviderRuntimeContext) (submission : SubmissionObject)
    (x : Executions ι) : Bool × Executions ι :=
  if x.starting.get job_id = some token then
    let x := { x with starting := x.starting.pop job_id }.set_active job_id submission
    let x := { x with service := { x.service with
      runtime_contexts := x.service.runtime_contexts.set job_id runtime_context } }
    (true, (x.note (.started token job_id submission)).persist env job_id none [])
  else (false, x)

def start [DecidableEq ι] (i : ι) (job : JobRecord)
    (runtime_context : Option ProviderRuntimeContext) :
    ExecM ι (Except String (Option SubmissionObject)) := do
  match ← atomically (begin_start env i job runtime_context) with
  | none => return .ok none
  | some (token, now) =>
    match ← atomically (call_start env token job runtime_context now) with
    | .error e =>
      atomically (withdraw token job.job_id)
      return .error e
    | .ok submission =>
      if ← atomically (settle_start env token job.job_id runtime_context submission) then
        return .ok (some submission)
      else
        atomically fun x => ((), x.note (.discarded token job.job_id submission))
        return .ok none

def cancel (job_id : JobId) : ExecM ι Unit := do
  match ← atomically fun x => (x.active_object job_id, x.remove_job job_id) with
  | none => return ()
  | some submission => atomically fun x => ((), x.note (.cancelled submission))

def finish (job_id : JobId) : ExecM ι Unit :=
  atomically fun x => ((), x.remove_job job_id)

/-- The answer when there is no active submission. -/
def no_active_submission (x : Executions ι) (job_id : JobId) : ActiveFollowupResult :=
  if (x.starting.get job_id).isSome then
    ⟨none, .rejected, "active_submission_starting", "starting_active_submission", none⟩
  else
    let reason :=
      if ((x.service.load job_id).bind fun persisted => persisted.pending_decision).isSome then
        "provider_terminal_pending"
      else "active_submission_missing"
    ⟨none, .terminal, reason, "missing_active_submission", none⟩

def inject_active_followup (request : ActiveFollowupRequest) (x : Executions ι) :
    ActiveFollowupResult × Executions ι :=
  match x.active_object request.job_id with
  | none => (no_active_submission x request.job_id, x)
  | some submission =>
    match env.inject x.accesses submission.value.provider with
    | none =>
      (⟨some submission, .rejected, "provider_active_followup_unsupported", "unsupported", none⟩, x)
    | some inject_fn =>
      match inject_fn submission request (env.clock x.accesses) with
      | none =>
        (⟨some submission, .rejected, "provider_active_followup_result_invalid",
          "invalid_adapter_result", none⟩, x)
      | some result =>
        match result.submission with
        | none => (result, x)
        | some updated =>
          if updated.value.job_id ≠ submission.value.job_id
              ∨ updated.value.provider ≠ submission.value.provider then
            (⟨some submission, .rejected, "provider_active_followup_changed_binding",
              result.mechanism, none⟩, x)
          else
            let installed := x.set_active request.job_id updated
            let before := x.service.load request.job_id
            let after := (installed.persist env request.job_id none []).service.load request.job_id
            (result, (installed.note (.injected request.job_id updated before after)).persist env
              request.job_id none [])

def acknowledge (job_id : JobId) (x : Executions ι) : Unit × Executions ι :=
  let y := { x with service := x.service.acknowledge job_id }
  match x.service.load job_id with
  | none => ((), y)
  | some persisted => ((), y.note (.saved persisted.submission.job_id))

def acknowledge_item (job_id : JobId) (event_seq : Option ℤ) (x : Executions ι) :
    Unit × Executions ι :=
  let y := { x with service := x.service.acknowledge_item job_id event_seq }
  match event_seq, x.service.load job_id with
  | some _, some persisted =>
    if persisted.pending_items.isEmpty then ((), y)
    else ((), y.note (.saved persisted.submission.job_id))
  | _, _ => ((), y)

/-- `service._active.get(job_id) is submission`. -/
def is_active (x : Executions ι) (job_id : JobId) (submission : SubmissionObject) : Bool :=
  x.identity.get job_id = some submission.ref

/-- `adapter.poll` with the reliability monitor, outside the lock; `none` without an
adapter. -/
def call_poll (job_id : JobId) (submission : SubmissionObject) (now : Timestamp)
    (x : Executions ι) : Option (Option (ProviderPollResult × ℕ)) × Executions ι :=
  match env.registry x.accesses submission.value.provider with
  | none => (none, x)
  | some adapter =>
    (some ((polled_result x.service job_id submission.value adapter now).map fun result =>
      (annotate_poll_result_authority result, env.result_ref x.accesses submission)), x)

/-- The critical section without an adapter. -/
def drop_active (job_id : JobId) (submission : SubmissionObject) (x : Executions ι) :
    Unit × Executions ι :=
  if x.is_active job_id submission then ((), (x.pop_active job_id).note (.released job_id))
  else ((), x)

/-- The critical section that installs a result. -/
def record_result (job_id : JobId) (submission : SubmissionObject)
    (result : ProviderPollResult) (ref : ℕ) (x : Executions ι) :
    List ExecutionUpdate × Executions ι :=
  if x.is_active job_id submission then
    let installed : SubmissionObject := ⟨ref, result.submission⟩
    let x := (x.set_active job_id installed).note (.polled job_id submission.ref installed)
    let x := x.persist env job_id result.decision result.items
    if result.items.isEmpty && result.decision.isNone then ([], x)
    else
      let update : ExecutionUpdate :=
        ⟨job_id, result.items, result.decision, some result.submission⟩
      if result.decision.isSome then
        let x := (x.pop_active job_id).note (.released job_id)
        ([update], { x with service := { x.service with
          runtime_contexts := x.service.runtime_contexts.pop job_id } })
      else ([update], x)
  else ([], x)

def process_active_job (job_id : JobId) (submission : SubmissionObject) (now : Timestamp) :
    ExecM ι (List ExecutionUpdate) := do
  if ← atomically fun x => (x.is_active job_id submission, x) then
    match ← atomically (call_poll env job_id submission now) with
    | none =>
      atomically (drop_active job_id submission)
      return []
    | some none => return []
    | some (some (result, ref)) => atomically (record_result env job_id submission result ref)
  else return []

def process_active_jobs (now : Timestamp) :
    List (JobId × SubmissionObject) → ExecM ι (List ExecutionUpdate)
  | [] => return []
  | (job_id, submission) :: rest => do
    let updates ← process_active_job env job_id submission now
    let others ← process_active_jobs now rest
    return updates ++ others

/-- The first critical section of a poll: the replays and the active submissions. -/
def drain (x : Executions ι) :
    (Timestamp × List ExecutionUpdate × List (JobId × SubmissionObject)) × Executions ι :=
  let drained := x.service.drain_pending_replays
  let items := x.service.active.items.filterMap fun item =>
    (x.active_object item.1).map fun submission => (item.1, submission)
  ((env.clock x.accesses, drained.2, items), { x with service := drained.1 })

def poll_updates : ExecM ι (List ExecutionUpdate) := do
  let (now, replayed, items) ← atomically (drain env)
  let polled ← process_active_jobs env now
    (items.filter fun item => !(replayed.any fun update => update.job_id = item.1))
  return replayed ++ polled

inductive Call where
  | start (job : JobRecord) (runtime_context : Option ProviderRuntimeContext)
  | cancel (job_id : JobId)
  | finish (job_id : JobId)
  | inject_active_followup (request : ActiveFollowupRequest)
  | acknowledge (job_id : JobId)
  | acknowledge_item (job_id : JobId) (event_seq : Option ℤ)
  | poll

def exec [DecidableEq ι] (i : ι) : Call → ExecM ι Unit
  | .start job runtime_context => do
    let _ ← start env i job runtime_context
  | .cancel job_id => cancel job_id
  | .finish job_id => finish job_id
  | .inject_active_followup request => do
    let _ ← atomically (inject_active_followup env request)
  | .acknowledge job_id => atomically (acknowledge job_id)
  | .acknowledge_item job_id event_seq => atomically (acknowledge_item job_id event_seq)
  | .poll => do
    let _ ← poll_updates env

/-- Threads that are about to make their calls to a new service. -/
def threads [DecidableEq ι] (state_store : Option (Dict JobId PersistedExecutionState))
    (calls : ι → List Call) : Config ι Unit (Executions ι) Unit Unit :=
  { store := init state_store
    lock := none
    thread := fun i => Prog.forEach (calls i) (exec env i) }

end Executions

end ClaudeCodeBridge.Model
