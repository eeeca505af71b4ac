import ClaudeCodeBridge.Model.MailboxStore

/-!
# The mailbox kernel

`lib/mailbox_kernel/service_runtime`, function by function and in the order in which
the functions call one another: queries over the inbox, the mailbox summary and its
three writers (delta, transition, rebuild), leasing, claiming, the terminal
transitions and lease expiry.  A Python argument whose default is `Ellipsis` is an
`Option` here, `none` standing for the default; `x or service._clock()` is
`x.getD service.clock`.
-/

set_option autoImplicit false

namespace ClaudeCodeBridge.Model

open Program

/-- What a kernel call reads besides the files: the clock and the lease lifetime. -/
structure MailboxKernelService where
  clock : Timestamp
  lease_ttl_seconds : Option ℕ
  deriving DecidableEq

namespace MailboxKernel

variable (service : MailboxKernelService)

/-- The standing events of an inbox, in first-append order. -/
def standing (inbox : List InboundEventRecord) : List InboundEventRecord :=
  collapse (fun r => r.inbound_event_id) inbox

def latest_events : MailboxM (List InboundEventRecord) := do
  let records ← InboundEventStore.list_agent
  return standing records

/-- The loop of `pending_events` over the latest events. -/
def pendingOf (events : List InboundEventRecord) : List InboundEventRecord :=
  events.filter fun record => !record.status.terminal

def pending_events : MailboxM (List InboundEventRecord) := do
  let events ← latest_events
  return pendingOf events

def head_pending_event : MailboxM (Option InboundEventRecord) := do
  let events ← pending_events
  return events.head?

def peek_next (event_type : Option InboundEventType) : MailboxM (Option InboundEventRecord) := do
  let head ← head_pending_event
  match head with
  | none => return none
  | some head =>
    if event_type.any (fun t => head.event_type ≠ t) then
      return none
    else if ¬head.status.claimable then
      return none
    else
      return some head

def next_summary_version (prior : Option MailboxRecord) : ℕ :=
  match prior with
  | none => 1
  | some prior => prior.summary_version + 1

/-- The version a record gets: the prior one when no field that counts changes. -/
def summary_version_for_record (prior : Option MailboxRecord) (record : MailboxRecord) : ℕ :=
  match prior with
  | none => 1
  | some p =>
    if p.active_inbound_event_id = record.active_inbound_event_id
        ∧ p.queue_depth = record.queue_depth
        ∧ p.pending_reply_count = record.pending_reply_count
        ∧ p.toSummaryHead = record.toSummaryHead
        ∧ p.last_inbound_started_at = record.last_inbound_started_at
        ∧ p.last_inbound_finished_at = record.last_inbound_finished_at
        ∧ p.mailbox_state = record.mailbox_state
        ∧ p.lease_version = record.lease_version then
      p.summary_version
    else
      next_summary_version prior

def empty_head : SummaryHead := ⟨none, none, none, none, none, none⟩

def summary_head_from_event (record : Option InboundEventRecord) : SummaryHead :=
  match record with
  | none => empty_head
  | some record =>
    { head_inbound_event_id := some record.inbound_event_id
      head_event_type := some record.event_type
      head_status := some record.status
      head_message_id := some record.message_id
      head_attempt_id := record.attempt_id
      head_payload_ref := record.payload_ref }

def resolve_summary_head : MailboxM SummaryHead := do
  let head ← head_pending_event
  return summary_head_from_event head

def derive_mailbox_state (has_active : Bool) (queue_depth : ℕ) : MailboxState :=
  if has_active then .delivering
  else if queue_depth > 0 then .blocked
  else .idle

def latest_timestamp (current candidate : Option Timestamp) : Option Timestamp :=
  match current, candidate with
  | _, none => current
  | none, some candidate => some candidate
  | some current, some candidate =>
    if candidate > current then some candidate else some current

/-- The fields a caller of `build_mailbox_summary_record` passes. -/
structure SummaryFields where
  queue_depth : ℕ
  pending_reply_count : ℕ
  active_inbound_event_id : Option EventId
  last_started_at : Option Timestamp
  last_finished_at : Option Timestamp
  updated_at : Timestamp
  summary_source : SummarySource
  deriving DecidableEq

/-- `build_mailbox_summary_record` once the head is known. -/
def buildRecord (agent_name : AgentName) (prior : Option MailboxRecord)
    (lease : Option DeliveryLease) (fields : SummaryFields) (summary_head : SummaryHead) :
    MailboxRecord :=
  let lease_version :=
    match lease with
    | some lease => lease.lease_version
    | none => (prior.map fun p => p.lease_version).getD 0
  let has_active :=
    lease.any (fun lease => lease.lease_state = .acquired)
      || fields.active_inbound_event_id.isSome
  let record : MailboxRecord :=
    { summary_head with
      mailbox_id := (prior.map fun p => p.mailbox_id).getD (.mbx agent_name)
      agent_name := agent_name
      summary_version := 0
      summary_source := fields.summary_source
      summary_refreshed_at := fields.updated_at
      active_inbound_event_id := fields.active_inbound_event_id
      queue_depth := fields.queue_depth
      pending_reply_count := fields.pending_reply_count
      last_inbound_started_at := fields.last_started_at
      last_inbound_finished_at := fields.last_finished_at
      mailbox_state := derive_mailbox_state has_active fields.queue_depth
      lease_version := lease_version
      updated_at := fields.updated_at }
  { record with summary_version := summary_version_for_record prior record }

def build_mailbox_summary_record (agent_name : AgentName) (prior : Option MailboxRecord)
    (lease : Option DeliveryLease) (fields : SummaryFields)
    (summary_head : Option SummaryHead) : MailboxM MailboxRecord := do
  match summary_head with
  | some summary_head => return buildRecord agent_name prior lease fields summary_head
  | none =>
    let summary_head ← resolve_summary_head
    return buildRecord agent_name prior lease fields summary_head

/-- A failed compare-and-save returns the stored record and writes nothing. -/
def save_summary_record (record : MailboxRecord) (expected_summary_version : Option ℕ) :
    MailboxM MailboxRecord := do
  let saved ← MailboxStore.compare_and_save record expected_summary_version
  if saved then
    return record
  else
    let current ← MailboxStore.load .reload_summary
    match current with
    | some current => return current
    | none =>
      MailboxStore.save record
      return record

def summary_version (record : Option MailboxRecord) : Option ℕ :=
  record.map fun r => r.summary_version

/-- `max(0, depth + delta)` for the depths and counts of a summary. -/
def bumped (prior : Option MailboxRecord) (field : MailboxRecord → ℕ) (delta : Int) : ℕ :=
  (((prior.map field).getD 0 : Int) + delta).toNat

def apply_incremental_summary_update (agent_name : AgentName)
    (queue_delta pending_reply_delta : Int) (active_inbound_event_id : Option (Option EventId))
    (last_started_at last_finished_at updated_at : Option Timestamp) :
    MailboxM MailboxRecord := do
  let timestamp := updated_at.getD service.clock
  let prior ← MailboxStore.load .load_summary
  let expected_summary_version := summary_version prior
  let lease ← DeliveryLeaseStore.load
  let record ← build_mailbox_summary_record agent_name prior lease
    { queue_depth := bumped prior (fun p => p.queue_depth) queue_delta
      pending_reply_count := bumped prior (fun p => p.pending_reply_count) pending_reply_delta
      active_inbound_event_id :=
        active_inbound_event_id.getD (prior.bind fun p => p.active_inbound_event_id)
      last_started_at :=
        latest_timestamp (prior.bind fun p => p.last_inbound_started_at) last_started_at
      last_finished_at :=
        latest_timestamp (prior.bind fun p => p.last_inbound_finished_at) last_finished_at
      updated_at := timestamp
      summary_source := .incremental_upsert }
    none
  save_summary_record record expected_summary_version

def apply_transition_summary_update (agent_name : AgentName) (fields : SummaryFields)
    (summary_head : Option SummaryHead) : MailboxM MailboxRecord := do
  let prior ← MailboxStore.load .load_expected
  let expected_summary_version := summary_version prior
  let lease ← DeliveryLeaseStore.load
  let record ← build_mailbox_summary_record agent_name prior lease fields summary_head
  save_summary_record record expected_summary_version

def active_inbound_event_id (lease : Option DeliveryLease) : Option EventId :=
  match lease with
  | none => none
  | some lease => if lease.lease_state = .acquired then some lease.inbound_event_id else none

def latest_activity (prior : Option MailboxRecord) :
    MailboxM (Option Timestamp × Option Timestamp) := do
  let events ← latest_events
  return events.foldl
    (fun acc event =>
      (latest_timestamp acc.1 event.started_at, latest_timestamp acc.2 event.finished_at))
    (prior.bind fun p => p.last_inbound_started_at, prior.bind fun p => p.last_inbound_finished_at)

/-- `sum(1 for event in events if event.event_type is service._reply_event_type)`. -/
def replyCount (events : List InboundEventRecord) : ℕ :=
  events.countP fun event => event.event_type = .task_reply

def project_mailbox_summary (agent_name : AgentName) (updated_at : Option Timestamp)
    (prior : Option (Option MailboxRecord)) (summary_source : SummarySource) :
    MailboxM MailboxRecord := do
  let timestamp := updated_at.getD service.clock
  let prior ← match prior with
    | some prior => pure prior
    | none => MailboxStore.load .load_rebuilt
  let lease ← DeliveryLeaseStore.load
  let events ← pending_events
  let (last_started, last_finished) ← latest_activity prior
  build_mailbox_summary_record agent_name prior lease
    { queue_depth := events.length
      pending_reply_count := replyCount events
      active_inbound_event_id := active_inbound_event_id lease
      last_started_at := last_started
      last_finished_at := last_finished
      updated_at := timestamp
      summary_source := summary_source }
    none

def rebuild_mailbox_summary (agent_name : AgentName) (updated_at : Option Timestamp) :
    MailboxM MailboxRecord := do
  let prior ← MailboxStore.load .load_rebuilt
  let expected_summary_version := summary_version prior
  let record ← project_mailbox_summary service agent_name updated_at (some prior)
    .history_refresh
  save_summary_record record expected_summary_version

def next_lease_version : MailboxM ℕ := do
  let lease ← DeliveryLeaseStore.load
  match lease with
  | some lease => return lease.lease_version + 1
  | none =>
    let mailbox ← MailboxStore.load .load_lease_version
    match mailbox with
    | some mailbox => return mailbox.lease_version + 1
    | none => return 1

/-- The lease lifetime is whole seconds here, as timestamps are. -/
def lease_expires_at_value (acquired_at : Timestamp) : Option Timestamp :=
  service.lease_ttl_seconds.bind fun ttl => if ttl > 0 then some (acquired_at + ttl) else none

def refresh_and_return {α : Type} (agent_name : AgentName) (timestamp : Timestamp) (value : α) :
    MailboxM α := do
  let _ ← rebuild_mailbox_summary service agent_name (some timestamp)
  return value

def delivery_record (current : InboundEventRecord) (timestamp : Timestamp) : InboundEventRecord :=
  { current with
    status := .delivering
    started_at := some (current.started_at.getD timestamp)
    finished_at := none }

def delivery_lease (agent_name : AgentName) (inbound_event_id : EventId)
    (timestamp : Timestamp) : MailboxM DeliveryLease := do
  let lease_version ← next_lease_version
  return {
    agent_name := agent_name
    inbound_event_id := inbound_event_id
    lease_version := lease_version
    acquired_at := timestamp
    last_progress_at := some timestamp
    expires_at := lease_expires_at_value service timestamp
    lease_state := .acquired }

def load_claim_candidate (inbound_event_id : EventId) : MailboxM (Option InboundEventRecord) := do
  let current ← InboundEventStore.get_latest inbound_event_id
  return current.filter fun current => !current.status.terminal

def has_conflicting_lease (inbound_event_id : EventId) : MailboxM Bool := do
  let lease ← DeliveryLeaseStore.load
  return lease.any fun lease =>
    lease.lease_state = .acquired && lease.inbound_event_id ≠ inbound_event_id

def is_claimable_head (current : InboundEventRecord) : MailboxM Bool := do
  if ¬current.status.claimable then
    return false
  else
    let head ← head_pending_event
    return head.any fun head => head.inbound_event_id = current.inbound_event_id

/-- The summary `prior` does not have `e` at its head: rebuild it instead of moving it on. -/
def headMoved (prior : MailboxRecord) (e : EventId) : Bool :=
  prior.queue_depth = 0 || prior.head_inbound_event_id ≠ some e

def claim_current (agent_name : AgentName) (current : InboundEventRecord)
    (timestamp : Timestamp) : MailboxM InboundEventRecord := do
  let updated := delivery_record current timestamp
  InboundEventStore.append updated
  let lease ← delivery_lease service agent_name current.inbound_event_id timestamp
  DeliveryLeaseStore.save lease
  let prior ← MailboxStore.load .load_summary
  match prior with
  | none => refresh_and_return service agent_name timestamp updated
  | some p =>
    if headMoved p current.inbound_event_id then
      refresh_and_return service agent_name timestamp updated
    else
      let _ ← apply_transition_summary_update agent_name
        { queue_depth := p.queue_depth
          pending_reply_count := p.pending_reply_count
          active_inbound_event_id := some current.inbound_event_id
          last_started_at := latest_timestamp p.last_inbound_started_at updated.started_at
          last_finished_at := p.last_inbound_finished_at
          updated_at := timestamp
          summary_source := .transition_claim }
        (some (summary_head_from_event (some updated)))
      return updated

def claim (agent_name : AgentName) (inbound_event_id : EventId)
    (started_at : Option Timestamp) : MailboxM (Option InboundEventRecord) := do
  let timestamp := started_at.getD service.clock
  let current ← load_claim_candidate inbound_event_id
  match current with
  | none => refresh_and_return service agent_name timestamp none
  | some current =>
    let conflicting ← has_conflicting_lease inbound_event_id
    if conflicting then
      refresh_and_return service agent_name timestamp none
    else if current.status = .delivering then
      refresh_and_return service agent_name timestamp (some current)
    else
      let claimable ← is_claimable_head current
      if claimable then
        let updated ← claim_current service agent_name current timestamp
        return some updated
      else
        refresh_and_return service agent_name timestamp none

def claim_next (agent_name : AgentName) (event_type : Option InboundEventType)
    (started_at : Option Timestamp) : MailboxM (Option InboundEventRecord) := do
  let next_event ← peek_next event_type
  match next_event with
  | none => refresh_and_return service agent_name (started_at.getD service.clock) none
  | some next_event => claim service agent_name next_event.inbound_event_id started_at

def release_matching_lease (inbound_event_id : EventId) : MailboxM Unit := do
  let lease ← DeliveryLeaseStore.load
  match lease with
  | none => return ()
  | some lease =>
    if lease.lease_state ≠ .acquired then return ()
    else if lease.inbound_event_id ≠ inbound_event_id then return ()
    else DeliveryLeaseStore.remove

/-- `None if prior.active_inbound_event_id == e else prior.active_inbound_event_id`. -/
def clearedActive (prior : MailboxRecord) (e : EventId) : Option EventId :=
  if prior.active_inbound_event_id = some e then none else prior.active_inbound_event_id

/-- The head of the summary after `e` became terminal, `none` where the code
rebuilds instead. -/
def head_after_terminal (prior : MailboxRecord) (e : EventId) (queue_depth : ℕ) :
    MailboxM (Option SummaryHead) := do
  if prior.head_inbound_event_id = some e then
    if queue_depth = 0 then
      return some (summary_head_from_event none)
    else if queue_depth = 1 then
      let head ← head_pending_event
      return some (summary_head_from_event head)
    else
      let next_head ← head_pending_event
      return next_head.map fun head => summary_head_from_event (some head)
  else
    return some prior.toSummaryHead

def mark_terminal (agent_name : AgentName) (inbound_event_id : EventId)
    (status : InboundEventStatus) (finished_at : Option Timestamp) :
    MailboxM (Option InboundEventRecord) := do
  let timestamp := finished_at.getD service.clock
  let current ← InboundEventStore.get_latest inbound_event_id
  match current with
  | none => refresh_and_return service agent_name timestamp none
  | some current =>
    if current.status.terminal then
      refresh_and_return service agent_name timestamp (some current)
    else
      let updated := { current with status := status, finished_at := some timestamp }
      InboundEventStore.append updated
      release_matching_lease inbound_event_id
      let prior ← MailboxStore.load .load_summary
      match prior with
      | none => refresh_and_return service agent_name timestamp (some updated)
      | some p =>
        if p.queue_depth = 0 then
          refresh_and_return service agent_name timestamp (some updated)
        else
          let queue_depth := p.queue_depth - 1
          let head ← head_after_terminal p current.inbound_event_id queue_depth
          match head with
          | none => refresh_and_return service agent_name timestamp (some updated)
          | some summary_head =>
            let _ ← apply_transition_summary_update agent_name
              { queue_depth := queue_depth
                pending_reply_count :=
                  p.pending_reply_count - (if current.event_type = .task_reply then 1 else 0)
                active_inbound_event_id := clearedActive p current.inbound_event_id
                last_started_at := p.last_inbound_started_at
                last_finished_at :=
                  latest_timestamp p.last_inbound_finished_at (some timestamp)
                updated_at := timestamp
                summary_source := .transition_terminal }
              (some summary_head)
            return some updated

def consume (agent_name : AgentName) (inbound_event_id : EventId)
    (finished_at : Option Timestamp) : MailboxM (Option InboundEventRecord) :=
  mark_terminal service agent_name inbound_event_id .consumed finished_at

def abandon (agent_name : AgentName) (inbound_event_id : EventId)
    (finished_at : Option Timestamp) : MailboxM (Option InboundEventRecord) :=
  mark_terminal service agent_name inbound_event_id .abandoned finished_at

def supersede (agent_name : AgentName) (inbound_event_id : EventId)
    (finished_at : Option Timestamp) : MailboxM (Option InboundEventRecord) :=
  mark_terminal service agent_name inbound_event_id .superseded finished_at

def head_matches_reply (head : Option InboundEventRecord) (inbound_event_id : EventId) : Bool :=
  head.any fun head =>
    head.inbound_event_id = inbound_event_id && head.event_type = .task_reply

def ack_reply (agent_name : AgentName) (inbound_event_id : EventId)
    (started_at finished_at : Option Timestamp) :
    MailboxM (Option InboundEventRecord) := do
  let head ← head_pending_event
  let timestamp := (finished_at.or started_at).getD service.clock
  if ¬head_matches_reply head inbound_event_id then
    refresh_and_return service agent_name timestamp none
  else
    let current ← InboundEventStore.get_latest inbound_event_id
    match current with
    | none => refresh_and_return service agent_name timestamp none
    | some current =>
      if current.status.terminal then
        refresh_and_return service agent_name timestamp (some current)
      else if current.status = .delivering then
        mark_terminal service agent_name inbound_event_id .consumed
          (some (finished_at.getD timestamp))
      else
        let claimed ← claim service agent_name inbound_event_id (some (started_at.getD timestamp))
        match claimed with
        | none => refresh_and_return service agent_name timestamp none
        | some _ =>
          mark_terminal service agent_name inbound_event_id .consumed
            (some (finished_at.getD timestamp))

def rewrite_head (agent_name : AgentName) (inbound_event_id : EventId)
    (payload_ref : Option PayloadRef) (status : InboundEventStatus)
    (updated_at : Option Timestamp) (clear_progress : Bool) :
    MailboxM (Option InboundEventRecord) := do
  let timestamp := updated_at.getD service.clock
  let current ← InboundEventStore.get_latest inbound_event_id
  match current with
  | none => refresh_and_return service agent_name timestamp none
  | some current =>
    if current.status.terminal then
      refresh_and_return service agent_name timestamp none
    else
      let updated := { current with
        payload_ref := payload_ref
        status := status
        started_at := if clear_progress then none else current.started_at
        finished_at := if clear_progress then none else current.finished_at }
      InboundEventStore.append updated
      release_matching_lease inbound_event_id
      let prior ← MailboxStore.load .load_summary
      match prior with
      | none => refresh_and_return service agent_name timestamp (some updated)
      | some p =>
        if headMoved p inbound_event_id then
          refresh_and_return service agent_name timestamp (some updated)
        else
          let _ ← apply_transition_summary_update agent_name
            { queue_depth := p.queue_depth
              pending_reply_count := p.pending_reply_count
              active_inbound_event_id := clearedActive p inbound_event_id
              last_started_at := p.last_inbound_started_at
              last_finished_at := p.last_inbound_finished_at
              updated_at := timestamp
              summary_source := .transition_rewrite_head }
            (some (summary_head_from_event (some updated)))
          return some updated

def expire_lease (agent_name : AgentName) (finished_at : Option Timestamp) :
    MailboxM (Option InboundEventRecord) := do
  let timestamp := finished_at.getD service.clock
  let lease ← DeliveryLeaseStore.load
  match lease with
  | none => return none
  | some lease =>
    if lease.lease_state ≠ .acquired then
      return none
    else
      let current ← InboundEventStore.get_latest lease.inbound_event_id
      if current.all fun current => current.status.terminal then
        DeliveryLeaseStore.remove
        refresh_and_return service agent_name timestamp none
      else
        -- EXPIRED first: the terminal transition releases ACQUIRED leases only
        DeliveryLeaseStore.save { lease with lease_state := .expired }
        mark_terminal service agent_name lease.inbound_event_id .abandoned (some timestamp)

end MailboxKernel

end ClaudeCodeBridge.Model
