import ClaudeCodeBridge.Model.OrchestrationBundle

/-!
# The workgroup scheduler

The nodes of a loop in `lib/cli/services/multi_workgroup_scheduler.py` and in
`lib/cli/services/workgroup_integration/service.py`: which nodes are ready, which are mounted,
what the result of a worker's job makes of a node, and the merges that integrate the reviewed
nodes.  The scheduler's record and the integration's are two files.  Each step is one of the
scheduler's own: `_advance` takes them in its order, a process that stops loses what it has
not saved, and the next one goes on from the record.

What a job answers, and what the replies of worker and reviewers say, comes with the step;
that a call of the integration raises is a step that is not taken.
-/

set_option autoImplicit false

namespace ClaudeCodeBridge.Model.Workgroup

open Program
open Model.PlanTask (Digest)

inductive NodeStatus where
  | created | worker_pending | worker_submission_unknown | integration_ready | integrated
  | worker_failed | review_failed | blocked
  deriving DecidableEq

/-- `PENDING_NODE_STATUSES`. -/
def NodeStatus.pending : NodeStatus → Bool
  | worker_pending | worker_submission_unknown => true
  | _ => false

/-- The statuses of nodes that `_ensure_topology` does not mount. -/
def NodeStatus.idle : NodeStatus → Bool
  | created | integrated | worker_failed | review_failed | blocked => true
  | _ => false

inductive IntegrationStatus where
  | planned | materializing | prepared | review_pending | review_passed | review_rejected
  | commit_pending | integration_ready | integrated | excluded
  deriving DecidableEq

/-- The state of an edge of the worker's review chain. -/
inductive EdgeState where
  | pending | child_completed | continuation_submitted | done | other
  deriving DecidableEq

/-- `PENDING_CHAIN_EDGE_STATES`. -/
def EdgeState.unfinished : EdgeState → Bool
  | pending | child_completed | continuation_submitted => true
  | _ => false

inductive ReviewDecision where
  | pass | rework_required | blocked | non_converged
  deriving DecidableEq

/-- An item of `chain_evidence`. -/
structure ReviewEdge where
  child_agent : Text
  state : EdgeState
  child_completed : Bool
  review_tree_digest : Option Digest
  reply_artifact_valid : Option Bool
  /-- `_review_decision_with_reason` of the reply. -/
  decision : Option ReviewDecision
  deriving DecidableEq

/-- What `submit_or_recover_ask_once` answers of the root job of a worker. -/
structure WorkerResult where
  terminal : Bool
  completed : Bool
  submission_unknown : Bool
  /-- `_worker_terminal_decision` of the reply is `done`. -/
  worker_done : Bool
  chain_evidence : List ReviewEdge
  deriving DecidableEq

def defer_pending_worker_chain (result : WorkerResult) : WorkerResult :=
  if result.terminal && result.completed &&
      result.chain_evidence.any (fun edge => edge.state.unfinished) then
    { result with terminal := false, submission_unknown := false }
  else result

def pending_status (result : WorkerResult) : NodeStatus :=
  if result.submission_unknown then .worker_submission_unknown else .worker_pending

/-- Whether an edge of the chain gives a reason against the node. -/
def edge_invalid (expected_reviewer : Text) (edge : ReviewEdge) : Bool :=
  edge.child_agent ≠ expected_reviewer || edge.state ≠ .done || !edge.child_completed ||
    edge.review_tree_digest.isNone || edge.reply_artifact_valid = some false ||
    edge.decision.isNone

/-- The `reasons` of `_consume_worker_chain_result` are empty. -/
def chain_valid (expected_reviewer : Text) (maximum : ℕ) (chain : List ReviewEdge) : Bool :=
  chain ≠ [] && chain.length ≤ maximum + 1 &&
    chain.all (fun edge => !edge_invalid expected_reviewer edge) &&
    (chain.getLast?.bind fun edge => edge.decision) = some .pass &&
    chain.dropLast.all fun edge => edge.decision = some .rework_required

/-- `_consume_worker_chain_result`: the tree is the one that `capture_review_input` captures,
and `finalize_node` succeeds. -/
def consume_worker_chain_result (expected_reviewer : Text) (maximum : ℕ) (result : WorkerResult)
    (captured : Digest) : NodeStatus :=
  if !result.worker_done then .review_failed
  else if !chain_valid expected_reviewer maximum result.chain_evidence then .review_failed
  else if (result.chain_evidence.getLast?.bind fun edge => edge.review_tree_digest) ≠
      some captured then .review_failed
  else .integration_ready

/-- What a result makes of a node, as `_advance` and `_reconcile_pending_jobs` have it. -/
def status_of_result (expected_reviewer : Text) (maximum : ℕ) (result : WorkerResult)
    (captured : Digest) : NodeStatus :=
  let result := defer_pending_worker_chain result
  if !result.terminal then pending_status result
  else if result.completed then
    consume_worker_chain_result expected_reviewer maximum result captured
  else .worker_failed

structure SchedulerRecord where
  status : NodeId → NodeStatus
  /-- The `active_node_ids` of the topology's demand. -/
  demand : List NodeId

/-- The scheduler at work: the record in memory and the one that is saved, and the statuses in
the integration's record, which is saved with each of its changes. -/
structure SchedulerState where
  record : SchedulerRecord
  saved : SchedulerRecord
  integration : NodeId → IntegrationStatus

/-- What `_load_or_initialize` and `preflight` begin with. -/
def SchedulerState.initial : SchedulerState :=
  { record := { status := fun _ => .created, demand := [] }
    saved := { status := fun _ => .created, demand := [] }
    integration := fun _ => .planned }

def SchedulerRecord.setStatus (r : SchedulerRecord) (id : NodeId) (status : NodeStatus) :
    SchedulerRecord :=
  { r with status := Function.update r.status id status }

variable (nodes : List BundleNode)

def ready_frontier (r : SchedulerRecord) : List NodeId :=
  (nodes.filter fun source => r.status source.node_id = .created &&
    source.depends_on.all fun dep => r.status dep = .integrated).map fun source => source.node_id

/-- The `active` nodes of `_ensure_topology`: those at work, and the frontier. -/
def active_nodes (r : SchedulerRecord) (frontier : List NodeId) : List NodeId :=
  let active := (node_ids nodes).filter fun id => !(r.status id).idle
  active ++ frontier.filter fun id => id ∉ active

def depends_on (id : NodeId) : List NodeId := (dependencies nodes).of id

/-- `_next_unintegrated_node`, in the order of the integration. -/
def next_unintegrated_node (ordered : List NodeId) (integration : NodeId → IntegrationStatus) :
    Option NodeId :=
  ordered.find? fun id => integration id ≠ .integrated && integration id ≠ .excluded

/-- One round of the loop of `integrate_ready`: the node that it merges. -/
def merge_next (ordered : List NodeId) (integration : NodeId → IntegrationStatus) : Option NodeId :=
  (next_unintegrated_node ordered integration).filter fun id =>
    integration id = .integration_ready &&
      (depends_on nodes id).all fun dep => integration dep = .integrated

/-- The loop of `_sync_integration`. -/
def sync_integration (integration : NodeId → IntegrationStatus) (r : SchedulerRecord) :
    SchedulerRecord :=
  { r with status := fun id => if integration id = .integrated then .integrated else r.status id }

/-- A change that the integration makes of the status of a node. -/
inductive IntegrationCall where
  | prepare_node | capture_review_input | record_review (passed : Bool) | commit_intent
  | finalize_node | record_node_failure
  deriving DecidableEq

def IntegrationCall.apply (call : IntegrationCall) (status : IntegrationStatus) :
    Option IntegrationStatus :=
  match call, status with
  | .prepare_node, .planned => some .materializing
  | .prepare_node, .materializing => some .prepared
  | .capture_review_input, .prepared | .capture_review_input, .review_rejected =>
    some .review_pending
  | .record_review true, .review_pending => some .review_passed
  | .record_review false, .review_pending => some .review_rejected
  | .commit_intent, .review_passed => some .commit_pending
  | .finalize_node, .commit_pending => some .integration_ready
  | .record_node_failure, .prepared | .record_node_failure, .review_pending
  | .record_node_failure, .review_rejected => some .excluded
  | _, _ => none

inductive SchedulerStep where
  /-- `_ensure_topology` of the frontier, up to the demand. -/
  | mount
  /-- The job of a mounted node is submitted. -/
  | submit (id : NodeId) (reviewer : Text) (result : WorkerResult) (captured : Digest)
  /-- The job of a pending node is looked up. -/
  | reconcile (id : NodeId) (reviewer : Text) (result : WorkerResult) (captured : Digest)
  | call (id : NodeId) (call : IntegrationCall)
  /-- A merge of `integrate_ready`. -/
  | merge
  | sync
  | save
  /-- The process stops, and the next one reads the record. -/
  | stop

/-- A step; one whose guard in the code does not hold is not taken. -/
def SchedulerState.step (maximum : ℕ) (ordered : List NodeId) (s : SchedulerState) :
    SchedulerStep → SchedulerState
  | .mount =>
    { s with record := { s.record with
        demand := active_nodes nodes s.record (ready_frontier nodes s.record) } }
  | .submit id reviewer result captured =>
    if id ∈ s.record.demand ∧ s.record.status id = .created then
      { s with record := s.record.setStatus id (status_of_result reviewer maximum result captured) }
    else s
  | .reconcile id reviewer result captured =>
    if (s.record.status id).pending then
      { s with record := s.record.setStatus id (status_of_result reviewer maximum result captured) }
    else s
  | .call id call =>
    match call.apply (s.integration id) with
    | some status => { s with integration := Function.update s.integration id status }
    | none => s
  | .merge =>
    match merge_next nodes ordered s.integration with
    | some id => { s with integration := Function.update s.integration id .integrated }
    | none => s
  | .sync => { s with record := sync_integration s.integration s.record }
  | .save => { s with saved := s.record }
  | .stop => { s with record := s.saved }

def SchedulerState.run (maximum : ℕ) (ordered : List NodeId) (steps : List SchedulerStep)
    (s : SchedulerState) : SchedulerState :=
  steps.foldl (SchedulerState.step nodes maximum ordered) s

end ClaudeCodeBridge.Model.Workgroup
