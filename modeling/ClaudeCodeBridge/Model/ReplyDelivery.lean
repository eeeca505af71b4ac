import ClaudeCodeBridge.Model.Completion
import ClaudeCodeBridge.Model.CompletionPolling

/-!
# Delivering replies

`reply_delivery_runtime`: the reply at the head of an agent's mailbox becomes a delivery
job, whose id the head's payload then carries.  Every look first repairs the heads whose
delivery job is missing, stalled or no longer at work.

A look may complete a job, and a completion ends with a look: `complete` ties the two, to a
depth that bounds how often they nest.
-/

set_option autoImplicit false

namespace ClaudeCodeBridge.Model

open Program

namespace ReplyDelivery

variable (config : DispatcherConfig) (env : DispatcherEnvironment)

open Callbacks Completion

/-- The head of a mailbox, its reply and the delivery job that its payload names. -/
structure ReplyHead where
  event : InboundEventRecord
  reply_id : ReplyId
  delivery_job_id : Option JobId

def replyHead (event : InboundEventRecord) : Option ReplyHead :=
  match event.event_type, event.payload_ref with
  | .task_reply, some (.reply reply_id delivery_job_id) => some ⟨event, reply_id, delivery_job_id⟩
  | _, _ => none

/-- `head_reply_event`, with `head_reply_id` and `delivery_job_id_from_payload`. -/
def head_reply_event (agent_name : AgentName) : DispatcherM (Option ReplyHead) := do
  let head ← onBureau (onMailbox agent_name MailboxKernel.head_pending_event)
  return head.bind replyHead

def reset_stale_reply_head (agent_name : AgentName) (head : ReplyHead) :
    DispatcherM (Option ReplyHead) := do
  rewrite_reply_head env agent_name head.event.inbound_event_id head.reply_id none env.clock
  head_reply_event agent_name

/-- `resolve_existing_delivery_job`: the head to prepare, if there is one. -/
def resolve_existing_delivery_job (agent_name : AgentName) (head : ReplyHead) :
    DispatcherM (Option ReplyHead) := do
  match head.delivery_job_id with
  | none => return some head
  | some delivery_job_id =>
    let current ← get_job config delivery_job_id
    match current with
    | none => reset_stale_reply_head env agent_name head
    | some current =>
      if !current.status.terminal then
        return none
      else if current.status = .completed then
        resolve_reply_delivery_terminal env current current.updated_at
        return none
      else
        reset_stale_reply_head env agent_name head

def build_reply_delivery_request (reply : ReplyRecord) (agent_name : AgentName) : MessageEnvelope :=
  { to_agent := some agent_name
    from_actor := .system
    body := env.reply_delivery_body reply
    task_id := some reply.reply_id
    reply_to := none
    message_type := .reply_delivery
    delivery_scope := .single
    silence_on_success := false
    route_options := RouteOptions.empty }

/-- The message and the attempt of `append_reply_delivery_message`. -/
def append_reply_delivery_message (reply : ReplyRecord) (agent_name : AgentName)
    (accepted_at : Timestamp) (provider : ProviderName) (job_id : JobId) : BureauM Unit := do
  let message_id ← new_id
  let attempt_id ← new_id
  MessageStore.append
    { message_id := message_id
      origin_message_id := some reply.message_id
      from_actor := .system
      target_scope := .single
      target_agents := [agent_name]
      message_class := .reply_delivery
      retry_policy := .manual
      priority := 10
      submission_id := none
      created_at := accepted_at
      updated_at := accepted_at
      message_state := .queued }
  AttemptStore.append
    { attempt_id := attempt_id
      message_id := message_id
      agent_name := agent_name
      provider := provider
      job_id := job_id
      retry_index := 0
      started_at := accepted_at
      updated_at := accepted_at
      attempt_state := .pending }

def delivery_draft (agent_name : AgentName) (spec : AgentSpec) (reply : ReplyRecord)
    (inbound_event_id : EventId) : Submission.JobDraft :=
  { agent_name := agent_name
    provider := spec.provider
    request := build_reply_delivery_request env reply agent_name
    provider_options :=
      { no_wrap := true
        reply_delivery := true
        reply_delivery_inbound_event_id := some inbound_event_id
        reply_delivery_reply_id := some reply.reply_id } }

def build_reply_delivery_job (agent_name : AgentName) (head : ReplyHead) (reply : ReplyRecord)
    (accepted_at : Timestamp) : DispatcherM JobRecord := do
  let spec ← spec_for config agent_name
  let job ← Submission.submit_draft none accepted_at
    (delivery_draft env agent_name spec reply head.event.inbound_event_id)
  onBureau (append_reply_delivery_message reply agent_name accepted_at spec.provider job.job_id)
  rewrite_reply_head env agent_name head.event.inbound_event_id reply.reply_id (some job.job_id)
    accepted_at
  append_event job (.reply_delivery_scheduled head.event.inbound_event_id) accepted_at
  return job

/-- `prepare_agent_reply_delivery`; the project id, which every job carries, is left out. -/
def prepare_agent_reply_delivery (agent_name : AgentName) : DispatcherM (Option JobRecord) := do
  let head ← head_reply_event agent_name
  match head with
  | none => return none
  | some head =>
    let head ← resolve_existing_delivery_job config env agent_name head
    match head with
    | none => return none
    | some head =>
      let reply ← onBureau (ReplyStore.get_latest head.reply_id)
      match reply with
      | none => return none
      | some reply =>
        let job ← build_reply_delivery_job config env agent_name head reply env.clock
        return some job

def repair_orphaned_lease (agent_name : AgentName) (head : ReplyHead) : DispatcherM Unit := do
  let lease ← onBureau (onMailbox agent_name DeliveryLeaseStore.load)
  if lease.any fun lease => lease.inbound_event_id = head.event.inbound_event_id then
    let _ ← reset_stale_reply_head env agent_name head

def mayHaveReached : JobEventType → Bool
  | .job_started | .provider_start_failed => true
  | .reply_delivery_consumed _ | .reply_delivery_terminal_after_delivery _ => true
  | _ => false

def delivery_never_reached_provider (current : JobRecord) : DispatcherM Bool := do
  if env.live current.job_id || env.persisted current.job_id then
    return false
  else
    let events ← JobEventStore.read_target current.agent_name
    return !events.any fun event => event.job_id = current.job_id && mayHaveReached event.type

/-- The lease that `_repair_pending_stall` may release, once another event's is out of the
way. -/
def releasable_lease (agent_name : AgentName) (head : ReplyHead) (lease : DeliveryLease) :
    DispatcherM Bool := do
  if lease.inbound_event_id = head.event.inbound_event_id then
    return true
  else
    let leased_event ← onBureau (onMailbox agent_name
      (InboundEventStore.get_latest lease.inbound_event_id))
    if leased_event.any fun event => !event.status.terminal then
      return false
    else
      let _ ← onBureau (onMailbox agent_name (MailboxKernel.expire_lease env.service agent_name
        (some env.clock)))
      return true

/-- The end of `_repair_pending_stall`, once a lease is found. -/
def release_stalled_head (agent_name : AgentName) (head : ReplyHead) (current : JobRecord)
    (lease : DeliveryLease) : DispatcherM Unit := do
  let never_reached ← delivery_never_reached_provider env current
  if !never_reached then
    return ()
  else
    let releasable ← releasable_lease env agent_name head lease
    if !releasable then
      return ()
    else
      rewrite_reply_head env agent_name head.event.inbound_event_id head.reply_id
        (some current.job_id) env.clock
      append_event current (.reply_delivery_pending_stall_repaired head.event.inbound_event_id)
        env.clock

def repair_pending_stall (agent_name : AgentName) (head : ReplyHead) (current : JobRecord) :
    DispatcherM Unit := do
  if !env.pending_stalled current then
    return ()
  else
    let active ← onState fun s => s.active_job_for current.agent_name
    match active with
    | some _ => return ()
    | none =>
      let lease ← onBureau (onMailbox agent_name DeliveryLeaseStore.load)
      match lease.filter fun lease => lease.lease_state = .acquired with
      | none => return ()
      | some lease => release_stalled_head env agent_name head current lease

/-- `repair_agent_reply_delivery_head`, over the `complete` of the dispatcher. -/
def repair_agent_reply_delivery_head (complete : JobId → TerminalDecision → DispatcherM JobRecord)
    (agent_name : AgentName) : DispatcherM Unit := do
  let head ← head_reply_event agent_name
  match head with
  | none => return ()
  | some head =>
    match head.delivery_job_id with
    | none => repair_orphaned_lease env agent_name head
    | some delivery_job_id =>
      let current ← get_job config delivery_job_id
      match current with
      | none =>
        let _ ← reset_stale_reply_head env agent_name head
      | some current =>
        if current.status.pending then
          repair_pending_stall env agent_name head current
        else if current.status ≠ .running then
          return ()
        else
          match env.persisted_decision current.job_id with
          | some decision =>
            let _ ← complete current.job_id decision
          | none =>
            if env.live current.job_id then
              return ()
            else
              let _ ← complete current.job_id (reply_delivery_failed_decision
                env.clock "reply_delivery_stale_running_repaired")

/-- The loop of `prepare_reply_deliveries`: the jobs it creates. -/
def prepare_agents : List AgentName → DispatcherM (List JobRecord)
  | [] => return []
  | agent_name :: agent_names => do
    let job ← prepare_agent_reply_delivery config env agent_name
    let rest ← prepare_agents agent_names
    match job with
    | some job => return job :: rest
    | none => return rest

/-- `prepare_reply_deliveries`, over the `complete` of the dispatcher. -/
def prepare_with (complete : JobId → TerminalDecision → DispatcherM JobRecord) :
    DispatcherM (List JobRecord) := do
  Prog.forEach config.agent_names (repair_agent_reply_delivery_head config env complete)
  prepare_agents config env config.agent_names

/-- `JobDispatcher.complete`; `depth` bounds how often a look for deliveries completes a
job that ends with such a look. -/
def complete : ℕ → JobId → TerminalDecision → DispatcherM JobRecord
  | 0, job_id, decision => complete_job config env (return ()) job_id decision
  | depth + 1, job_id, decision =>
    complete_job config env (do
      let _ ← prepare_with config env (complete depth)) job_id decision

def prepare_reply_deliveries (depth : ℕ) : DispatcherM (List JobRecord) :=
  prepare_with config env (complete config env depth)

def claimable_reply_delivery_job_ids (agent_name : AgentName) : DispatcherM (List JobId) := do
  let head ← head_reply_event agent_name
  match head.bind fun head => head.delivery_job_id with
  | none => return []
  | some job_id =>
    let current ← get_job config job_id
    return if current.any fun job => job.status.pending then [job_id] else []

def claim_reply_delivery_start (job : JobRecord) (started_at : Timestamp) : DispatcherM Bool := do
  if !MessageBureau.is_reply_delivery job then
    return true
  else
    match job.provider_options.reply_delivery_inbound_event_id with
    | none => return false
    | some inbound_event_id =>
      let head ← head_reply_event job.agent_name
      if head.all fun head => head.event.inbound_event_id ≠ inbound_event_id then
        return false
      else
        let claimed ← onBureau (onMailbox job.agent_name (MailboxKernel.claim env.service
          job.agent_name inbound_event_id (some started_at)))
        return claimed.isSome

end ReplyDelivery

end ClaudeCodeBridge.Model
