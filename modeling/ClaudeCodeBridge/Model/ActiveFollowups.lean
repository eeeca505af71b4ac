import ClaudeCodeBridge.Model.ExecutionThreads

/-!
# Active follow-ups

`lib/ccbd/services/dispatcher_runtime/active_followups.py` over the append-only store of
`lib/ccbd/active_followups.py`.  Both calls hold the chain transition lock to their end,
so follow-up calls do not interleave; what other threads make of the jobs, the dispatcher
state and the execution service meanwhile is what the `FollowupEnvironment` says the
`n`-th access finds.  Ids and references are taken as stripped.

The process may stop after any access; what it wrote stays.  The `history` names the
appended records, what the adapters reported and the stops; no call reads it.
-/

set_option autoImplicit false

namespace ClaudeCodeBridge.Model

open Program

abbrev FollowupId := ℕ

/-- `ACTIVE_FOLLOWUP_STATUSES`. -/
inductive FollowupStatus where
  | accepted | injected | rejected | too_late | terminal
  deriving DecidableEq

/-- The status of a result, as a record has it. -/
def ActiveFollowupStatus.toFollowupStatus : ActiveFollowupStatus → FollowupStatus
  | accepted => .accepted
  | injected => .injected
  | rejected => .rejected
  | terminal => .terminal

def FollowupStatus.value : FollowupStatus → String
  | accepted => "accepted"
  | injected => "injected"
  | rejected => "rejected"
  | too_late => "too_late"
  | terminal => "terminal"

def JobStatus.value : JobStatus → String
  | accepted => "accepted"
  | queued => "queued"
  | running => "running"
  | completed => "completed"
  | cancelled => "cancelled"
  | failed => "failed"
  | incomplete => "incomplete"

structure ActiveFollowupRecord where
  followup_id : FollowupId
  job_id : JobId
  message : String
  agent_name : Option AgentName
  provider : String
  sequence : ℕ
  status : FollowupStatus
  reason : String
  mechanism : String
  expected_provider_turn_ref : Option String
  provider_turn_ref : Option String
  created_at : Timestamp
  updated_at : Timestamp
  deriving DecidableEq

structure ActiveFollowupCapability where
  supported : Bool
  mechanism : String
  provider_turn_ref : Option String
  reason : String
  deriving DecidableEq

def unsupported_active_followup_capability (reason : String) (mechanism : String) :
    ActiveFollowupCapability :=
  ⟨false, mechanism, none, if reason = "" then "provider_active_followup_unsupported" else reason⟩

/-- What `append_event` stores of a follow-up. -/
structure FollowupJobEvent where
  job_id : JobId
  type : String
  followup_id : FollowupId
  sequence : ℕ
  status : FollowupStatus
  reason : String
  mechanism : String
  expected_provider_turn_ref : Option String
  provider_turn_ref : Option String
  timestamp : Timestamp
  deriving DecidableEq

namespace ActiveFollowupStore

/-- `latest_for_job`; the order does not matter to its callers here. -/
def latest_for_job (records : List ActiveFollowupRecord) (job_id : JobId) :
    List ActiveFollowupRecord :=
  collapse (fun r => r.followup_id) (records.filter fun r => r.job_id = job_id)

/-- The follow-ups whose latest record is accepted, in the order of their first records. -/
def accepted (records : List ActiveFollowupRecord) : List ActiveFollowupRecord :=
  (collapse (fun r => r.followup_id) records).filter fun r => r.status = .accepted

def next_sequence (records : List ActiveFollowupRecord) (job_id : JobId) : ℕ :=
  ((latest_for_job records job_id).map fun r => r.sequence).foldl max 0 + 1

end ActiveFollowupStore

inductive FollowupEvent where
  | appended (record : ActiveFollowupRecord)
  /-- The adapter answered `inject_active_followup` with this status. -/
  | reported (followup_id : FollowupId) (status : ActiveFollowupStatus)
  | stopped
  deriving DecidableEq

/-- What the calls find at their `n`-th access. -/
structure FollowupEnvironment where
  clock : ℕ → Timestamp
  get_job : ℕ → JobId → Option JobRecord
  active_job_for : ℕ → AgentName → Option JobId
  has_execution_service : Bool
  execution_service : ℕ → Executions Unit
  adapters : Environment
  /-- `none` is an adapter without the method, a `none` result no
  `ActiveFollowupCapability`. -/
  capability : ℕ → ProviderName → Option (SubmissionObject → Option ActiveFollowupCapability)

structure Followups where
  records : List ActiveFollowupRecord
  events : List FollowupJobEvent
  /-- Ids are never given twice. -/
  next_id : FollowupId
  /-- Accesses so far. -/
  accesses : ℕ
  history : List FollowupEvent

abbrev FollowupM := Prog Unit Followups Empty

namespace Followups

def init : Followups := ⟨[], [], 0, 0, []⟩

/-- What the next access finds. -/
def look {α : Type} (find : ℕ → α) : FollowupM α :=
  Prog.update () (fun w => find w.accesses) fun w => { w with accesses := w.accesses + 1 }

variable (env : FollowupEnvironment)

def new_id : FollowupM FollowupId :=
  Prog.update () (fun w => w.next_id) fun w => { w with next_id := w.next_id + 1 }

/-- `append_event` with `_event_payload(record)`. -/
def append_event (job : JobRecord) (type : String) (record : ActiveFollowupRecord) :
    FollowupM Unit :=
  Prog.write () fun w => { w with events := w.events ++
    [⟨job.job_id, type, record.followup_id, record.sequence, record.status, record.reason,
      record.mechanism, record.expected_provider_turn_ref, record.provider_turn_ref,
      record.updated_at⟩] }

/-- The message is stored only as long as it may have to be sent. -/
def persisted (record : ActiveFollowupRecord) : ActiveFollowupRecord :=
  if record.status = .accepted then record else { record with message := "" }

def append (record : ActiveFollowupRecord) (w : Followups) : Followups :=
  { w with
    records := w.records ++ [record]
    history := w.history ++ [.appended record] }

def persist (record : ActiveFollowupRecord) : FollowupM ActiveFollowupRecord := do
  Prog.write () (append (persisted record))
  return persisted record

def active_followup_capability (n : ℕ) (job_id : JobId) : ActiveFollowupCapability :=
  let x := env.execution_service n
  match x.active_object job_id with
  | none =>
    if (x.starting.get job_id).isSome then
      unsupported_active_followup_capability "active_submission_starting"
        "starting_active_submission"
    else if ((x.service.load job_id).bind fun persisted => persisted.pending_decision).isSome then
      unsupported_active_followup_capability "provider_terminal_pending" "terminal_pending"
    else
      unsupported_active_followup_capability "active_submission_missing"
        "missing_active_submission"
  | some submission =>
    match env.capability n submission.value.provider with
    | none =>
      unsupported_active_followup_capability "provider_active_followup_unsupported" "unsupported"
    | some capability_fn =>
      (capability_fn submission).getD
        (unsupported_active_followup_capability "provider_active_followup_capability_invalid"
          "unsupported")

/-- What the adapter answers, if it is asked and answers with an `ActiveFollowupResult`. -/
def adapter_report (request : ActiveFollowupRequest) (x : Executions Unit) :
    Option ActiveFollowupStatus :=
  match x.active_object request.job_id with
  | none => none
  | some submission =>
    match env.adapters.inject x.accesses submission.value.provider with
    | none => none
    | some inject_fn =>
      (inject_fn submission request (env.adapters.clock x.accesses)).map fun result => result.status

/-- `ExecutionService.inject_active_followup`. -/
def inject (request : ActiveFollowupRequest) : FollowupM ActiveFollowupResult :=
  Prog.update ()
    (fun w => ((env.execution_service w.accesses).inject_active_followup env.adapters request).1)
    fun w => { w with
      accesses := w.accesses + 1
      history := w.history ++
        ((adapter_report env request (env.execution_service w.accesses)).map fun status =>
          FollowupEvent.reported request.followup_id status).toList }

/-- `_inject_accepted` when the job is over, or gone. -/
def end_before_injection (record : ActiveFollowupRecord) (terminal_status : String) :
    FollowupM ActiveFollowupRecord := do
  let now ← look env.clock
  persist { record with
    status := .terminal
    reason := "job_" ++ terminal_status ++ "_before_injection"
    updated_at := now }

def inject_accepted (current : JobRecord) (record : ActiveFollowupRecord) :
    FollowupM ActiveFollowupRecord := do
  match ← look fun n => env.get_job n current.job_id with
  | none => end_before_injection env record "missing"
  | some latest =>
    if latest.status.terminal then end_before_injection env record latest.status.value
    else
      let result ← inject env
        ⟨record.followup_id, record.job_id, record.message,
          record.expected_provider_turn_ref.getD ""⟩
      let now ← look env.clock
      let updated ← persist { record with
        status := result.status.toFollowupStatus
        reason := result.reason
        mechanism := if result.mechanism = "" then record.mechanism else result.mechanism
        provider_turn_ref := match result.provider_turn_ref with
          | some ref => if ref = "" then record.provider_turn_ref else some ref
          | none => record.provider_turn_ref
        updated_at := now }
      append_event latest ("active_followup_" ++ updated.status.value) updated
      return updated

/-- The rest of `request_active_followup` once the provider can take the follow-up. -/
def request_accepted (current : JobRecord) (record : ActiveFollowupRecord)
    (capability : ActiveFollowupCapability) (provider_turn_ref : String) :
    FollowupM ActiveFollowupRecord := do
  let accepted ← persist { record with
    status := .accepted
    reason := "durable_outbox_accepted"
    mechanism := capability.mechanism
    expected_provider_turn_ref := some provider_turn_ref
    provider_turn_ref := some provider_turn_ref }
  append_event current "active_followup_accepted" accepted
  let waits ← Prog.read () fun w =>
    (ActiveFollowupStore.accepted w.records).any fun pending =>
      pending.followup_id ≠ accepted.followup_id
  if waits then
    let now ← look env.clock
    persist { accepted with
      reason := "durable_outbox_waiting_for_prior_followup"
      updated_at := now }
  else inject_accepted env current accepted

/-- `request_active_followup` of a job that exists. -/
def request_of_job (current : JobRecord) (record : ActiveFollowupRecord) :
    FollowupM ActiveFollowupRecord := do
  if current.status.terminal then
    persist { record with
      status := .too_late
      reason := "job_already_" ++ current.status.value }
  else if current.status ≠ .running then
    persist { record with reason := "job_not_running:" ++ current.status.value }
  else
    let active_job_id ← look fun n => env.active_job_for n current.agent_name
    if active_job_id ≠ some current.job_id then
      persist { record with reason := "job_not_active_for_target" }
    else if !env.has_execution_service then
      persist { record with reason := "provider_execution_unavailable" }
    else
      let capability ← look fun n => active_followup_capability env n current.job_id
      let provider_turn_ref := capability.provider_turn_ref.getD ""
      if !capability.supported || provider_turn_ref = "" then
        let reason :=
          if capability.reason ≠ "" then capability.reason
          else if capability.supported then "active_provider_turn_unbound"
          else "provider_active_followup_unsupported"
        persist { record with
          status := if reason = "provider_terminal_pending" || reason = "active_submission_missing"
            then .terminal else .rejected
          reason := reason
          mechanism := capability.mechanism
          provider_turn_ref := if provider_turn_ref = "" then none else some provider_turn_ref }
      else request_accepted env current record capability provider_turn_ref

def request_active_followup (job_id : JobId) (message : String) :
    FollowupM (Except String ActiveFollowupRecord) := do
  if message = "" then return .error "followup requires a non-empty message"
  else Prog.withLock do
    let current ← look fun n => env.get_job n job_id
    let created_at ← look env.clock
    let followup_id ← new_id
    let sequence ← Prog.read () fun w => ActiveFollowupStore.next_sequence w.records job_id
    let record : ActiveFollowupRecord :=
      { followup_id := followup_id
        job_id := job_id
        message := message
        agent_name := current.map fun job => job.agent_name
        provider := (current.map fun job => job.provider).getD ""
        sequence := sequence
        status := .rejected
        reason := "unknown_job"
        mechanism := "none"
        expected_provider_turn_ref := none
        provider_turn_ref := none
        created_at := created_at
        updated_at := created_at }
    match current with
    | none =>
      let persisted ← persist record
      return .ok persisted
    | some current =>
      let persisted ← request_of_job env current record
      return .ok persisted

/-- One round of the loop of `replay_accepted_followups`. -/
def replay_accepted (record : ActiveFollowupRecord) : FollowupM ActiveFollowupRecord := do
  match ← look fun n => env.get_job n record.job_id with
  | none =>
    let now ← look env.clock
    persist { record with
      status := .rejected
      reason := "job_missing_after_restart"
      updated_at := now }
  | some current =>
    if current.status.terminal then
      let now ← look env.clock
      persist { record with
        status := .terminal
        reason := "job_" ++ current.status.value ++ "_before_replay"
        updated_at := now }
    else if current.status ≠ .running then
      let now ← look env.clock
      persist { record with
        status := .rejected
        reason := "job_not_running_after_restart:" ++ current.status.value
        updated_at := now }
    else inject_accepted env current record

def replay_each : List ActiveFollowupRecord → FollowupM (List ActiveFollowupRecord)
  | [] => return []
  | record :: rest => do
    let outcome ← replay_accepted env record
    if outcome.status = .accepted then return [outcome]
    else
      let outcomes ← replay_each rest
      return outcome :: outcomes

def replay_accepted_followups : FollowupM (List ActiveFollowupRecord) := do
  if !env.has_execution_service then return []
  else Prog.withLock do
    let records ← Prog.read () fun w => ActiveFollowupStore.accepted w.records
    replay_each env records

inductive Call where
  | request_active_followup (job_id : JobId) (message : String)
  | replay_accepted_followups

def exec : Call → FollowupM Unit
  | .request_active_followup job_id message => do
    let _ ← request_active_followup env job_id message
  | .replay_accepted_followups => do
    let _ ← replay_accepted_followups env

/-- A call, with the number of steps after which the daemon stops in it, if it does. -/
abbrev Step := Call × Option ℕ

def perform (w : Followups) : Step → Followups
  | (call, none) => ((exec env call).run w).2
  | (call, some n) =>
    let stopped := Prog.stopAfter n (exec env call) w
    { stopped with history := stopped.history ++ [.stopped] }

/-- A run from an empty store. -/
def after (steps : List Step) : Followups := steps.foldl (perform env) init

end Followups

end ClaudeCodeBridge.Model
