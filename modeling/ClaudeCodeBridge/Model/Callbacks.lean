import ClaudeCodeBridge.Model.DispatcherStore

/-!
# Result chains

`lib/ccbd/services/dispatcher_runtime/callbacks.py`: an `ask --chain` from a job at work
registers a callback edge from that parent job to its child; the child's reply becomes a
continuation job on the parent's message; the end of the continuation closes the edge.
`repair_callback_edges` redoes, at every tick, what a stopped process left undone.

The functions stand in the order of the source.  The file of bodies that are too large to
send is left out, and with it `body_artifact`.
-/

set_option autoImplicit false

namespace ClaudeCodeBridge.Model

open Program

namespace Callbacks

variable (config : DispatcherConfig) (env : DispatcherEnvironment)

def raiseDispatch {α : Type} (text : String) : DispatcherM α :=
  Prog.raise (.dispatchError text)

/-- `if condition: raise dispatcher._dispatch_error(text)`. -/
def rejectIf (condition : Bool) (text : String) : DispatcherM Unit :=
  if condition then raiseDispatch text else return ()

def request_callback_route (request : MessageEnvelope) : Bool :=
  request.route_options.mode = some .chain

def active_parent_job (actor : Actor) : DispatcherM (Option JobRecord) := do
  match actor with
  | .agent name =>
    if name ∉ config.agent_names then
      return none
    else
      let parent_job_id ← onState fun s => s.active_job_for name
      match parent_job_id with
      | none => return none
      | some parent_job_id =>
        let parent ← get_job config parent_job_id
        return parent.filter fun parent => !MessageBureau.is_reply_delivery parent
  | _ => return none

def message_for_job (job : JobRecord) : DispatcherM (Option MessageRecord) := do
  let attempt ← onBureau (AttemptStore.get_latest_by_job_id job.job_id)
  match attempt with
  | none => return none
  | some attempt => onBureau (MessageStore.get_latest attempt.message_id)

def strip_ccb_guidance (body : String) : String :=
  let cut (marker text : String) : String := (text.splitOn marker).headD text
  let stripped := cut "\n\nCCB reply guidance:" (cut "\n\nCCB_REPLY_MODE:" body)
  if stripped = body then body
  else String.ofList (stripped.toList.reverse.dropWhile isSpaceChar).reverse

/-- The loop of `_callback_chain_for_parent`; with a fuel above the number of edges it
ends as the source's does, at a message already seen or no edge's child. -/
def callback_chain (edges : List CallbackEdgeRecord) :
    ℕ → List MessageId → MessageId → List CallbackEdgeRecord
  | 0, _, _ => []
  | fuel + 1, seen, message_id =>
    if message_id ∈ seen then []
    else
      match (CallbackEdgeStore.latestEdges edges).find? fun r =>
        r.child_message_id = message_id with
      | none => []
      | some edge => edge :: callback_chain edges fuel (message_id :: seen) edge.parent_message_id

def callback_chain_for_parent (edges : List CallbackEdgeRecord) (parent_message_id : MessageId) :
    List CallbackEdgeRecord :=
  callback_chain edges (edges.length + 1) [] parent_message_id

def max_callback_depth : ℕ := max 1 config.max_callback_depth

def validate_callback_chain (parent : JobRecord) (child_agent : Option AgentName) :
    DispatcherM Unit := do
  let parent_message ← message_for_job parent
  match parent_message with
  | none => raiseDispatch "ask --chain could not resolve parent message"
  | some parent_message =>
    let chain ← Prog.read .find_edge fun s =>
      callback_chain_for_parent s.edges parent_message.message_id
    let max_depth := max_callback_depth config
    rejectIf (chain.length + 1 > max_depth) s!"ask --chain exceeds max chain depth {max_depth}"
    let actors := parent.agent_name ::
      (chain.map fun edge => edge.parent_agent) ++ chain.map fun edge => edge.child_agent
    rejectIf (child_agent.any fun target => target ∈ actors) "ask --chain cycle detected"

def validate_callback_continuation_target (parent : JobRecord) (child_agent : Option AgentName) :
    DispatcherM Unit := do
  if parent.request.message_type ≠ .chain_continuation
      ∧ parent.request.route_options.mode ≠ some .chain_continuation then
    return ()
  else
    match parent.request.route_options.chain_edge_id with
    | none =>
      raiseDispatch s!"ask --chain from result-chain continuation job {parent.job_id} cannot resolve chain edge; finish the current continuation directly or report the metadata error"
    | some edge_id =>
      let edge ← CallbackEdgeStore.get_latest edge_id
      match edge with
      | none =>
        raiseDispatch s!"ask --chain from result-chain continuation job {parent.job_id} could not resolve chain edge {edge_id}; finish the current continuation directly or report the metadata error"
      | some edge =>
        rejectIf (child_agent.any fun target => edge.original_caller = .agent target)
          s!"ask --chain from result-chain continuation job {parent.job_id} to original caller {repr edge.original_caller} is not allowed for chain edge {edge.edge_id}; finish the current response and CCB will deliver it upstream"

def validate_nested_ask_request (request : MessageEnvelope) : DispatcherM Unit := do
  if request.message_type ≠ .ask ∨ request_callback_route request then
    return ()
  else if request.silence_on_success then
    return ()
  else
    let parent ← active_parent_job config request.from_actor
    rejectIf parent.isSome "plain ask from an active CCB task requires --chain when the child result is needed, or --silence for independent fire-and-forget work"

def allowed_chain_targets (job : Option JobRecord) : List AgentName :=
  match job with
  | none => []
  | some job => job.request.route_options.allowed_chain_targets.dedup

/-- `_bind_callback_workspace_tree` where the parent's job asks for it. -/
def bind_callback_workspace_tree (parent : JobRecord) : DispatcherM Unit :=
  if !parent.request.route_options.bind_chain_workspace_tree then return ()
  else
    match env.bind_workspace_tree parent with
    | .ok _ => return ()
    | .error failure => Prog.raise failure

/-- The request as `validate_callback_request` leaves it: a parent's job that binds its
workspace tree has the request bind it too. -/
def bound_request (request : MessageEnvelope) (parent : JobRecord) : MessageEnvelope :=
  if parent.request.route_options.bind_chain_workspace_tree then
    { request with
      route_options := { request.route_options with bind_chain_workspace_tree := true } }
  else request

/-- `validate_callback_request` of a request on the chain route whose parent is known. -/
def validate_chain_parent (request : MessageEnvelope) (parent : JobRecord) :
    DispatcherM MessageEnvelope := do
  let parent_message ← message_for_job parent
  rejectIf parent_message.isNone "ask --chain could not resolve parent message"
  validate_callback_continuation_target parent request.to_agent
  let allowed_targets := allowed_chain_targets (some parent)
  rejectIf (!allowed_targets.isEmpty && !(request.to_agent.any fun target =>
    target ∈ allowed_targets))
    "ask --chain target is not the assigned reviewer for this workflow job"
  bind_callback_workspace_tree env parent
  let edge ← CallbackEdgeStore.get_latest_for_parent_job parent.job_id
  rejectIf edge.isSome "ask --chain allows one outstanding chain edge per parent job"
  validate_callback_chain config parent request.to_agent
  return bound_request request parent

/-- The request that is returned is the one that the source changes in place. -/
def validate_callback_request (request : MessageEnvelope) : DispatcherM MessageEnvelope := do
  let parent ← active_parent_job config request.from_actor
  if !request_callback_route request then
    rejectIf (!(allowed_chain_targets parent).isEmpty)
      "restricted workflow job may only use ask --chain to its assigned target"
    validate_nested_ask_request config request
    return request
  else
    rejectIf (request.delivery_scope ≠ .single)
      "ask --chain supports exactly one target agent"
    match parent with
    | none => raiseDispatch "ask --chain requires an active parent job for the sender"
    | some parent => validate_chain_parent config env request parent

/-- The edge that `register_callback_edge` records. -/
def new_edge (edge_id : EdgeId) (request : MessageEnvelope) (parent child : JobRecord)
    (parent_message_id message_id : MessageId) (accepted_at : Timestamp) : CallbackEdgeRecord :=
  { edge_id := edge_id
    parent_job_id := parent.job_id
    parent_message_id := parent_message_id
    parent_agent := parent.agent_name
    child_job_id := child.job_id
    child_message_id := message_id
    callback_target_agent := parent.agent_name
    original_caller := parent.request.from_actor
    original_task_id := some (parent.request.task_id.getD parent_message_id)
    state := .pending
    child_reply_id := none
    child_status := none
    continuation_job_id := none
    continuation_message_id := none
    created_at := accepted_at
    updated_at := accepted_at
    child_agent := child.agent_name
    parent_body := strip_ccb_guidance parent.request.body
    child_body := strip_ccb_guidance child.request.body
    allowed_chain_targets := allowed_chain_targets (some parent)
    bind_chain_workspace_tree := request.route_options.bind_chain_workspace_tree
    failure_reason := none
    failure_detail := none }

/-- An attribute of `None` is an error of Python's own. -/
def attributeError {α : Type} : DispatcherM α := raiseDispatch "'NoneType' object has no attribute"

def register_callback_edge (request : MessageEnvelope) (jobs : List JobRecord)
    (message_id : MessageId) (accepted_at : Timestamp) : DispatcherM Unit := do
  let request ← validate_callback_request config env request
  if !request_callback_route request then
    return ()
  else
    match jobs with
    | [child] =>
      let parent ← active_parent_job config request.from_actor
      match parent with
      | none => attributeError
      | some parent =>
        let parent_message ← message_for_job parent
        match parent_message with
        | none => attributeError
        | some parent_message =>
          let edge_id ← dispatcher_new_id
          CallbackEdgeStore.append
            (new_edge edge_id request parent child parent_message.message_id message_id accepted_at)
          append_event child .callback_edge_created accepted_at
    | _ => raiseDispatch "ask --chain supports exactly one target agent"

def delegated_parent_edge (job : JobRecord) : DispatcherM (Option CallbackEdgeRecord) :=
  CallbackEdgeStore.get_latest_for_parent_job job.job_id

def callback_child_edge (job : JobRecord) : DispatcherM (Option CallbackEdgeRecord) := do
  let edge ← CallbackEdgeStore.get_latest_for_child_job job.job_id
  match edge with
  | some edge => return some edge
  | none =>
    let message ← message_for_job job
    match message with
    | none => return none
    | some message => CallbackEdgeStore.get_latest_for_child_message message.message_id

/-- `_existing_continuation_jobs_by_edge` over the targets of the edges: the jobs that name
an edge, with it, in the order in which the dictionary is written. -/
def existing_continuation_jobs_by_edge : List AgentName → DispatcherM (List (EdgeId × JobRecord))
  | [] => return []
  | target :: targets => do
    let jobs ← JobStore.list_agent target
    let rest ← existing_continuation_jobs_by_edge targets
    return (jobs.filterMap fun job =>
      job.request.route_options.chain_edge_id.map fun edge_id => (edge_id, job)) ++ rest

/-- The dictionary's entry for an edge is the last that was written. -/
def continuationOf (existing : List (EdgeId × JobRecord)) (edge_id : EdgeId) : Option JobRecord :=
  ((existing.filter fun item => item.1 = edge_id).getLast?).map Prod.snd

def existing_continuation_job (edge : CallbackEdgeRecord) : DispatcherM (Option JobRecord) := do
  let existing ← existing_continuation_jobs_by_edge [edge.callback_target_agent]
  return continuationOf existing edge.edge_id

def recorded_child_reply (edge : CallbackEdgeRecord) : DispatcherM (Option ReplyRecord) :=
  match edge.child_reply_id with
  | some reply_id => onBureau (ReplyStore.get_latest reply_id)
  | none => return none

def latest_child_reply (edge : CallbackEdgeRecord) : DispatcherM (Option ReplyRecord) := do
  let recorded ← recorded_child_reply edge
  match recorded with
  | some reply => return some reply
  | none =>
    let replies ← onBureau (ReplyStore.list_message edge.child_message_id)
    return (replies.filter fun reply => !reply.notice).getLast?

def job_for_reply (reply : Option ReplyRecord) : DispatcherM (Option JobRecord) := do
  match reply with
  | none => return none
  | some reply =>
    let attempt ← onBureau (AttemptStore.get_latest reply.attempt_id)
    match attempt with
    | none => return none
    | some attempt => get_job config attempt.job_id

def append_submission_job (submission_id : Option SubmissionId) (job_id : JobId)
    (updated_at : Timestamp) : DispatcherM Unit := do
  match submission_id with
  | none => return ()
  | some submission_id =>
    let current ← SubmissionStore.get_latest submission_id
    match current with
    | none => return ()
    | some current =>
      SubmissionStore.append { current with
        job_ids := if job_id ∈ current.job_ids then current.job_ids
          else current.job_ids ++ [job_id]
        updated_at := updated_at }

def inbound_of_attempt (agent_name : AgentName) (attempt : Option AttemptRecord) :
    DispatcherM (Option InboundEventRecord) :=
  match attempt with
  | none => return none
  | some attempt => onBureau (onMailbox agent_name
      (InboundEventStore.get_latest_for_attempt attempt.attempt_id))

def repair_pending_continuation_attempt (edge : CallbackEdgeRecord) (job : JobRecord) :
    DispatcherM Bool := do
  if !job.status.pending then
    return false
  else
    let existing_attempt ← onBureau (AttemptStore.get_latest_by_job_id job.job_id)
    let existing_inbound ← inbound_of_attempt job.agent_name existing_attempt
    if existing_attempt.isSome && existing_inbound.isSome then
      return false
    else
      let _ ← onBureau (MessageBureau.record_retry_attempt env.service edge.parent_message_id job
        job.created_at)
      return true

def callback_failure_reply (edge : CallbackEdgeRecord) (reason detail : String) : String :=
  let suffix := if detail = "" then "" else s!": {detail}"
  s!"CCB chain failed for delegated task {edge.child_job_id} while continuing parent job {edge.parent_job_id}. Reason: {reason}{suffix}"

def record_callback_failure_notice (edge : CallbackEdgeRecord) (reason detail : String)
    (updated_at : Timestamp) : DispatcherM Unit := do
  let parent_job ← get_job config edge.parent_job_id
  match parent_job with
  | none =>
    onBureau (MessageBureau.set_message_state edge.parent_message_id .failed updated_at)
  | some parent_job =>
    let _ ← onBureau (MessageBureau.record_notice env.service config.known_mailboxes parent_job
      (callback_failure_reply edge reason detail) updated_at .failed
      (some edge.original_caller))

def fail_callback_edge (edge : CallbackEdgeRecord) (reason detail : String)
    (updated_at : Timestamp) : DispatcherM CallbackEdgeRecord := do
  let stored ← CallbackEdgeStore.get_latest edge.edge_id
  let latest := stored.getD edge
  if latest.state.terminal then
    return latest
  else
    let failed ← CallbackEdgeStore.update { latest with
      state := .failed
      child_status := some (latest.child_status.getD .failed)
      updated_at := updated_at
      failure_reason := some reason
      failure_detail := some detail }
    record_callback_failure_notice config env failed reason detail updated_at
    return failed

def mark_prior_continuation_edges_done (completed_edge : CallbackEdgeRecord)
    (updated_at : Timestamp) : DispatcherM Unit := do
  let edges ← CallbackEdgeStore.list_latest
  Prog.forEach (edges.filter fun edge =>
      edge.edge_id ≠ completed_edge.edge_id
        ∧ edge.parent_message_id = completed_edge.parent_message_id
        ∧ edge.state = .continuation_submitted) fun edge =>
    CallbackEdgeStore.append { edge with state := .done, updated_at := updated_at }

def mark_callback_done (job : JobRecord) (finished_at : Timestamp) : DispatcherM Unit := do
  match job.request.route_options.chain_edge_id with
  | none => return ()
  | some edge_id =>
    let edge ← CallbackEdgeStore.get_latest edge_id
    match edge with
    | none => return ()
    | some edge =>
      if edge.state.closed then return ()
      else
        let done ← CallbackEdgeStore.update { edge with state := .done, updated_at := finished_at }
        mark_prior_continuation_edges_done done finished_at

def mark_parent_message_waiting (edge : CallbackEdgeRecord) (updated_at : Timestamp) :
    DispatcherM Unit :=
  if edge.state.closed then return ()
  else onBureau (MessageBureau.set_message_state edge.parent_message_id .running updated_at)

def terminalize_cancelled_parent_edge (edge : CallbackEdgeRecord) (updated_at : Timestamp) :
    DispatcherM Unit := do
  let stored ← CallbackEdgeStore.get_latest edge.edge_id
  let latest := stored.getD edge
  if latest.state.terminal then
    return ()
  else
    CallbackEdgeStore.append { latest with
      state := .failed
      updated_at := updated_at
      failure_reason := some "chain_parent_cancelled" }

/-- The record and the event of `persist_delegated_terminal_job`. -/
def persist_delegated_terminal_job (job : JobRecord) (finished_at : Timestamp) :
    DispatcherM JobRecord := do
  append_job job
  append_event job .job_delegated_chain finished_at
  return job

def continuation_request (edge : CallbackEdgeRecord) (child_job : JobRecord)
    (decision : CompletionDecision) : MessageEnvelope :=
  { to_agent := some edge.callback_target_agent
    from_actor := edge.original_caller
    body := env.continuation_body edge child_job decision
    task_id := edge.original_task_id
    reply_to := some (.message edge.parent_message_id)
    message_type := .chain_continuation
    delivery_scope := .single
    silence_on_success := false
    route_options :=
      { mode := some .chain_continuation
        chain_edge_id := some edge.edge_id
        chain_parent_job_id := some edge.parent_job_id
        notify_sender := false
        allowed_chain_targets := edge.allowed_chain_targets
        bind_chain_workspace_tree := edge.bind_chain_workspace_tree } }

def spec_for (agent_name : AgentName) : DispatcherM AgentSpec :=
  match config.agents.find? fun spec => spec.name = agent_name with
  | some spec => return spec
  | none => raiseDispatch s!"unknown agent: {agent_name}"

/-- `validate_targets_available` for one agent. -/
def validate_target_available (agent_name : AgentName) : DispatcherM Unit := do
  let spec ← spec_for config agent_name
  rejectIf spec.dispatch_disabled s!"agent {agent_name} is dispatch-disabled"
  rejectIf (env.drain_blocks agent_name) s!"agent {agent_name} is draining and rejects new work"
  if spec.reject_when_busy then
    let busy ← onState fun s => s.has_outstanding_for agent_name
    rejectIf busy s!"agent {agent_name} rejects new work while busy"

def pending_status (agent_name : AgentName) : DispatcherM JobStatus := do
  let outstanding ← onState fun s => s.has_outstanding_for agent_name
  return if outstanding then .queued else .accepted

def acceptance_event (status : JobStatus) : JobEventType :=
  if status = .accepted then .job_accepted else .job_queued

/-- `append_job`, its event and its place in the queue. -/
def enqueue_submitted_job (job : JobRecord) (accepted_at : Timestamp) : DispatcherM Unit := do
  append_job job
  append_event job (acceptance_event job.status) accepted_at
  updateState fun s => s.enqueue_for job.agent_name job.job_id

/-- The job record of `_submit_continuation_job`. -/
def continuation_job (request : MessageEnvelope) (spec : AgentSpec) (job_id : JobId)
    (agent_name : AgentName) (status : JobStatus) (accepted_at : Timestamp) : JobRecord :=
  { job_id := job_id
    submission_id := none
    agent_name := agent_name
    provider := spec.provider
    request := request
    status := status
    terminal_decision := none
    cancel_requested_at := none
    created_at := accepted_at
    updated_at := accepted_at
    provider_options := ProviderOptions.empty }

/-- `_submit_continuation_job`; `agent_name` is the request's target. -/
def submit_continuation_job (request : MessageEnvelope) (agent_name : AgentName)
    (parent_message_id : MessageId) (accepted_at : Timestamp) : DispatcherM JobId := do
  validate_target_available config env agent_name
  let spec ← spec_for config agent_name
  let job_id ← dispatcher_new_id
  let status ← pending_status agent_name
  let job := continuation_job request spec job_id agent_name status accepted_at
  enqueue_submitted_job job accepted_at
  let _ ← onBureau (MessageBureau.record_retry_attempt env.service parent_message_id job accepted_at)
  let parent_message ← onBureau (MessageStore.get_latest parent_message_id)
  match parent_message with
  | none => return job_id
  | some parent_message =>
    append_submission_job parent_message.submission_id job_id accepted_at
    return job_id

/-- What becomes of an edge whose continuation job is there already. -/
def link_existing_continuation (latest : CallbackEdgeRecord) (existing : JobRecord)
    (child_job : JobRecord) (child_reply_id : Option ReplyId) (finished_at : Timestamp) :
    DispatcherM CallbackEdgeRecord := do
  let _ ← repair_pending_continuation_attempt env latest existing
  let persisted_reply ← latest_child_reply latest
  CallbackEdgeStore.update { latest with
    state := if existing.status.terminal then .done else .continuation_submitted
    child_reply_id := child_reply_id <|> latest.child_reply_id
      <|> persisted_reply.map fun reply => reply.reply_id
    child_status := some child_job.status
    continuation_job_id := some existing.job_id
    continuation_message_id := some latest.parent_message_id
    updated_at := finished_at }

/-- The text of an exception. -/
def failureText : Failure → String
  | .valueError text => text
  | .dispatchError text => text

/-- The part of `submit_callback_continuation` that submits a new job. -/
def submit_new_continuation (latest : CallbackEdgeRecord) (child_job : JobRecord)
    (child_reply_id : Option ReplyId) (decision : CompletionDecision)
    (finished_at : Timestamp) : DispatcherM CallbackEdgeRecord := do
  let updated ← CallbackEdgeStore.update { latest with
    state := .child_completed
    child_reply_id := child_reply_id
    child_status := some child_job.status
    updated_at := finished_at }
  let submitted ← ((submit_continuation_job config env
      (continuation_request env updated child_job decision) updated.callback_target_agent
      updated.parent_message_id finished_at).bind fun job_id => return Except.ok job_id).tryCatch
    fun failure => do
      let failed ← fail_callback_edge config env updated "chain_continuation_submit_failed"
        (failureText failure) finished_at
      return Except.error failed
  match submitted with
  | .error failed => return failed
  | .ok continuation_job_id =>
    let final ← CallbackEdgeStore.update { updated with
      state := .continuation_submitted
      continuation_job_id := some continuation_job_id
      continuation_message_id := some updated.parent_message_id
      updated_at := finished_at }
    append_event child_job .chain_continuation_submitted finished_at
    return final

def submit_callback_continuation (edge : CallbackEdgeRecord) (child_job : JobRecord)
    (child_reply_id : Option ReplyId) (decision : CompletionDecision)
    (finished_at : Timestamp) : DispatcherM CallbackEdgeRecord := do
  let stored ← CallbackEdgeStore.get_latest_for_child_job child_job.job_id
  let latest := stored.getD edge
  if latest.state.terminal then
    return latest
  else
    let existing ← existing_continuation_job latest
    match existing with
    | some existing =>
      link_existing_continuation env latest existing child_job child_reply_id finished_at
    | none => submit_new_continuation config env latest child_job child_reply_id decision finished_at

def queued_continuation_job (edge : CallbackEdgeRecord) : DispatcherM (Option JobRecord) := do
  match edge.continuation_job_id with
  | none => return none
  | some job_id =>
    let target ← onState fun s => (s.target_for_job job_id).filter fun target =>
      job_id ∈ s.queued_items_for target
    match target with
    | none => return none
    | some target => JobStore.get_latest target job_id

def job_is_outstanding (s : DispatcherState) (job_id : JobId) : Bool :=
  match s.target_for_job job_id with
  | none => false
  | some target => s.active_job_for target = some job_id || job_id ∈ s.queued_items_for target

def pending_edge_waits_on_child (s : DispatcherState) (edge : CallbackEdgeRecord) : Bool :=
  edge.state = .pending && job_is_outstanding s edge.child_job_id

/-- The edges that lack a continuation they could have. -/
def repairCandidates (edges : List CallbackEdgeRecord) (s : DispatcherState) :
    List CallbackEdgeRecord :=
  edges.filter fun edge =>
    !edge.state.terminal && edge.continuation_job_id.isNone
      && !pending_edge_waits_on_child s edge

def decision_from_reply (reply : ReplyRecord) (child_job : JobRecord) : Option CompletionDecision :=
  child_job.terminal_decision.map fun terminal =>
    { terminal with
      reply := reply.reply
      source_kind := none
      finished_at := some (terminal.finished_at.getD reply.finished_at) }

/-- The continuation of a submitted edge that may need repair. -/
def submitted_continuation (latest : CallbackEdgeRecord) (existing : Option JobRecord) :
    DispatcherM (Option JobRecord) :=
  match latest.continuation_job_id with
  | some _ => queued_continuation_job latest
  | none => return existing

def repair_submitted_edge (latest : CallbackEdgeRecord) (existing : Option JobRecord) :
    DispatcherM Unit := do
  let existing ← submitted_continuation latest existing
  match existing with
  | none => return ()
  | some existing =>
    let _ ← repair_pending_continuation_attempt env latest existing

def repair_linked_edge (latest : CallbackEdgeRecord) (existing : JobRecord) : DispatcherM Unit := do
  let _ ← repair_pending_continuation_attempt env latest existing
  let reply ← latest_child_reply latest
  let reply_job ← job_for_reply config reply
  CallbackEdgeStore.append { latest with
    state := .continuation_submitted
    child_reply_id := latest.child_reply_id <|> reply.map fun reply => reply.reply_id
    child_status := latest.child_status <|> reply_job.map fun job => job.status
    continuation_job_id := some existing.job_id
    continuation_message_id := some latest.parent_message_id }

/-- `_job_for_reply(dispatcher, reply) or get_job(dispatcher, latest.child_job_id)`. -/
def replied_child_job (latest : CallbackEdgeRecord) (reply_job : Option JobRecord) :
    DispatcherM (Option JobRecord) :=
  match reply_job with
  | some job => return some job
  | none => get_job config latest.child_job_id

/-- The repair of an edge whose child replied and that has no continuation job. -/
def repair_replied_edge (latest : CallbackEdgeRecord) : DispatcherM Unit := do
  let reply ← latest_child_reply latest
  let reply_job ← job_for_reply config reply
  let child_job ← replied_child_job config latest reply_job
  match reply, child_job with
  | some reply, some child_job =>
    match decision_from_reply reply child_job with
    | none => return ()
    | some decision =>
      let _ ← submit_callback_continuation config env latest child_job (some reply.reply_id)
        decision latest.updated_at
  | _, _ => return ()

/-- One turn of the loop of `_repair_callback_edges_locked`. -/
def repair_edge (candidates : List EdgeId) (existing : List (EdgeId × JobRecord))
    (latest : CallbackEdgeRecord) : DispatcherM Unit :=
  let found := continuationOf existing latest.edge_id
  if latest.state.closed then return ()
  else if latest.state = .continuation_submitted then
    repair_submitted_edge env latest found
  else if latest.edge_id ∉ candidates then return ()
  else
    match found with
    | some existing => repair_linked_edge config env latest existing
    | none => repair_replied_edge config env latest

def repair_callback_edges_locked : DispatcherM Unit := do
  let latest_edges ← CallbackEdgeStore.list_latest
  let repair_candidates ← onState (repairCandidates latest_edges)
  let unlinked_submitted := latest_edges.filter fun edge =>
    edge.state = .continuation_submitted ∧ edge.continuation_job_id.isNone
  let existing ← existing_continuation_jobs_by_edge
    ((repair_candidates ++ unlinked_submitted).map fun edge => edge.callback_target_agent).dedup
  Prog.forEach latest_edges
    (repair_edge config env (repair_candidates.map fun edge => edge.edge_id) existing)

def repair_callback_edges : DispatcherM Unit :=
  Prog.withLock (repair_callback_edges_locked config env)

end Callbacks

end ClaudeCodeBridge.Model
