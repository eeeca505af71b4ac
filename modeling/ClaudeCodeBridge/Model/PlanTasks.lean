import ClaudeCodeBridge.Model.RelayCrypto
import ClaudeCodeBridge.Program.Outcomes

/-!
# Plan tasks

`lib/cli/services/plan_tasks.py`: the record of a task, the commands that update it, and
what the runner makes of it.  An update reads the record under the task's lock and either
leaves it as it is or gives the one that `_replace_record` writes; how the commands of
several processes share the index is the business of `Model.PlanIndex`.

Arguments come as the command has read them: a text that is not one of the known ones is
`unknown`, and a loop, a job or a task is named by what `_normalize_segment` accepts.
Digests, the normalized bundle and the checks of artifact files are what the library and
the project's files give at the time.  Paths, the README and the task-set bindings are
left out.
-/

set_option autoImplicit false

namespace ClaudeCodeBridge.Model.PlanTask

open Program
open Model.Relay (strip)

structure ValueError where
  text : String
  deriving DecidableEq

/-! ## Names -/

def isAlnum (c : Fin 0x110000) : Bool :=
  let n := c.val
  (48 ≤ n && n ≤ 57) || (65 ≤ n && n ≤ 90) || (97 ≤ n && n ≤ 122)

/-- `_SEGMENT_RE`. -/
def isSegment : Text → Bool
  | [] => false
  | c :: rest =>
    isAlnum c && rest.length ≤ 79 && rest.all fun c => isAlnum c || c.val = 95 || c.val = 45

/-- What `_normalize_segment` accepts. -/
abbrev Segment := { text : Text // isSegment text = true }

instance Segment.lawfulBEq : LawfulBEq Segment := inferInstance

abbrev Digest := Text

/-- An argument of a command. -/
inductive Argument (α : Type) where
  | absent
  | unknown
  | given (a : α)
  deriving DecidableEq

inductive TaskStatus where
  | draft | decomposed | ready_for_orchestration | running | partial_ | replan_required | done
  | blocked | needs_clarification | detail_ready | ready
  deriving DecidableEq

def TaskStatus.text : TaskStatus → String
  | draft => "draft"
  | decomposed => "decomposed"
  | ready_for_orchestration => "ready_for_orchestration"
  | running => "running"
  | partial_ => "partial"
  | replan_required => "replan_required"
  | done => "done"
  | blocked => "blocked"
  | needs_clarification => "needs_clarification"
  | detail_ready => "detail_ready"
  | ready => "ready"

/-- `_VALID_NEXT_OWNERS`. -/
inductive NextOwner where
  | planner | orchestrator | task_detailer | frontdesk | terminal
  deriving DecidableEq

def NextOwner.text : NextOwner → String
  | planner => "planner"
  | orchestrator => "orchestrator"
  | task_detailer => "task_detailer"
  | frontdesk => "frontdesk"
  | terminal => "terminal"

inductive Owner where
  | planner | task_detailer | plan_reviewer | loop_runner | frontdesk | orchestrator
  deriving DecidableEq

/-- `_VALID_ORCHESTRATOR_ROUTES`. -/
inductive OrchestratorRoute where
  | direct_execution | needs_detail | macro_adjustment_request | blocked | partial_completion
  deriving DecidableEq

/-- `_ARTIFACT_FILES`. -/
inductive ArtifactKind where
  | brief | task_packet | execution_contract | orchestration_notes | orchestration_bundle
  | round_summary | requirements | acceptance | verification | risk | handoff | detail_design
  | detail_summary | detail_packet | detail_step_1 | detail_step_2 | macro_adjustment_request
  | blocker_evidence | review | completion | round_pass | round_partial_ | round_replan
  | round_blocker
  deriving DecidableEq

def ArtifactKind.text : ArtifactKind → String
  | brief => "brief"
  | task_packet => "task_packet"
  | execution_contract => "execution_contract"
  | orchestration_notes => "orchestration_notes"
  | orchestration_bundle => "orchestration_bundle"
  | round_summary => "round_summary"
  | requirements => "requirements"
  | acceptance => "acceptance"
  | verification => "verification"
  | risk => "risk"
  | handoff => "handoff"
  | detail_design => "detail_design"
  | detail_summary => "detail_summary"
  | detail_packet => "detail_packet"
  | detail_step_1 => "detail_step_1"
  | detail_step_2 => "detail_step_2"
  | macro_adjustment_request => "macro_adjustment_request"
  | blocker_evidence => "blocker_evidence"
  | review => "review"
  | completion => "completion"
  | round_pass => "round_pass"
  | round_partial_ => "round_partial"
  | round_replan => "round_replan"
  | round_blocker => "round_blocker"

/-- The keys of `_ROUND_RESULT_MAP`. -/
inductive RoundResult where
  | pass | partial_ | replan_required | blocked
  deriving DecidableEq

def RoundResult.target_status : RoundResult → TaskStatus
  | pass => .done
  | partial_ => .partial_
  | replan_required => .replan_required
  | blocked => .blocked

def RoundResult.legacy_artifact_kind : RoundResult → ArtifactKind
  | pass => .round_pass
  | partial_ => .round_partial_
  | replan_required => .round_replan
  | blocked => .round_blocker

def RoundResult.text (result : RoundResult) : String :=
  match result with
  | pass => "pass"
  | partial_ => "partial"
  | replan_required => "replan_required"
  | blocked => "blocked"

/-! ## Tables -/

/-- `_SEMANTIC_TASK_ARTIFACTS`. -/
def semantic_task_artifacts : List ArtifactKind :=
  [.task_packet, .execution_contract, .detail_design, .detail_summary, .detail_packet,
    .orchestration_notes]

/-- `_STOP_CONTRACT_ARTIFACTS`. -/
def stop_contract_artifacts : List ArtifactKind :=
  [.task_packet, .execution_contract, .orchestration_notes]

/-- `_ORCHESTRATION_READY_REQUIRED`, sorted. -/
def orchestration_ready_required : List ArtifactKind := [.execution_contract, .task_packet]

/-- `_READY_REQUIRED`, sorted. -/
def ready_required : List ArtifactKind :=
  [.acceptance, .handoff, .requirements, .review, .verification]

/-- `_DETAIL_READY_REQUIRED`, sorted. -/
def detail_ready_required : List ArtifactKind := [.detail_design, .detail_packet, .detail_summary]

/-- `_STATUS_EDGES`. -/
def status_edges : TaskStatus → List TaskStatus
  | .draft => [.draft, .decomposed, .needs_clarification, .detail_ready, .ready,
      .ready_for_orchestration, .done]
  | .decomposed => [.decomposed]
  | .needs_clarification => [.needs_clarification, .draft]
  | .detail_ready => [.detail_ready, .ready, .ready_for_orchestration]
  | .ready => [.ready, .running]
  | .ready_for_orchestration => [.ready_for_orchestration, .needs_clarification, .detail_ready,
      .running, .replan_required, .blocked, .done]
  | .running => [.running, .partial_, .replan_required, .done, .blocked]
  | .partial_ => [.partial_, .replan_required, .done]
  | .replan_required => [.replan_required, .draft, .ready_for_orchestration]
  | .blocked => [.blocked, .draft]
  | .done => [.done]

def owner_for_status : TaskStatus → Owner
  | .needs_clarification => .task_detailer
  | .draft | .decomposed | .replan_required => .planner
  | .detail_ready => .plan_reviewer
  | .ready | .ready_for_orchestration | .running => .loop_runner
  | .partial_ => .planner
  | .done | .blocked => .frontdesk

def default_next_owner_for_status : TaskStatus → NextOwner
  | .draft | .decomposed | .partial_ | .replan_required | .detail_ready => .planner
  | .ready_for_orchestration | .ready | .running => .orchestrator
  | .needs_clarification => .task_detailer
  | .done | .blocked => .terminal

/-! ## Records -/

structure ArtifactActor where
  source : Text
  actor : Text
  job_id : Text
  deriving DecidableEq

structure TaskArtifact where
  kind : ArtifactKind
  sha256 : Digest
  imported_at : ℕ
  actor : ArtifactActor
  orchestrator_route : Option OrchestratorRoute
  task_revision : Option ℕ
  loop_id : Option Segment
  round_result : Option RoundResult
  bundle_revision : Option ℕ
  bundle_digest : Option Digest
  /-- `superseded_by` and `superseded_at_task_revision`. -/
  superseded : Option (Digest × ℕ)
  deriving DecidableEq

inductive LeaseStatus where
  | active | imported
  deriving DecidableEq

structure LoopLease where
  loop_id : Segment
  lease_id : ℕ
  status : LeaseStatus
  acquired_at : ℕ
  released_at : Option ℕ
  deriving DecidableEq

structure LastRound where
  loop_id : Segment
  result : RoundResult
  sha256 : Digest
  imported_at : ℕ
  deriving DecidableEq

structure DetailReadyReconciliation where
  authority_digest : Digest
  basis_digest : Digest
  post_state_digest : Digest
  deriving DecidableEq

structure ReplanFeedback where
  request_identity : Digest
  detail_digest : Digest
  macro_impact_digest : Digest
  source_task_revision : ℕ
  accepted_task_revision : ℕ
  source_detailer_job_id : Segment
  planner_job_id : Option Segment
  superseded_artifacts : List ArtifactKind
  accepted_at : ℕ
  updated_at : ℕ
  deriving DecidableEq

structure PlannerReplanBackfill where
  planner_job_id : Segment
  planner_feedback_digest : Digest
  backfill_path : Text
  deriving DecidableEq

structure TaskRecord where
  task_id : Segment
  title : Text
  status : TaskStatus
  task_revision : ℕ
  state_version : ℕ
  current_loop : Option Segment
  owner : Owner
  next_owner : NextOwner
  activation_reason : Text
  created_at : ℕ
  updated_at : ℕ
  artifacts : ArtifactKind → Option TaskArtifact
  loop_lease : Option LoopLease
  round_counters : RoundResult → ℕ
  last_round : Option LastRound
  detail_ready_reconciliation : Option DetailReadyReconciliation
  replan_feedback : Option ReplanFeedback
  planner_replan_backfill : Option PlannerReplanBackfill

/-- What a command makes of the record: nothing, with an idempotent answer, or the record
that `_replace_record` is given. -/
inductive Outcome where
  | unchanged
  | replaced (record : TaskRecord)

/-- What the libraries compute. -/
structure PlanLibrary where
  sha256 : Text → Digest
  /-- `_digest_json` of an authority and of a state after reconciliation. -/
  authority_digest : TaskRecord → Digest → Digest
  post_state_digest : TaskRecord → Digest → Digest

variable (library : PlanLibrary)

/-! ## Creating a task -/

structure CreateCommand where
  task_id : Segment
  title : Text
  now : ℕ
  deriving DecidableEq

/-- The record that `_task_create` appends. -/
def created_record (command : CreateCommand) : TaskRecord :=
  { task_id := command.task_id
    title := command.title
    status := .draft
    task_revision := 1
    state_version := 1
    current_loop := none
    owner := .planner
    next_owner := .planner
    activation_reason := asciiText "task_created"
    created_at := command.now
    updated_at := command.now
    artifacts := fun _ => none
    loop_lease := none
    round_counters := fun _ => 0
    last_round := none
    detail_ready_reconciliation := none
    replan_feedback := none
    planner_replan_backfill := none }

/-! ## Checks -/

def assert_expected_task_revision (expected : Option ℤ) (record : TaskRecord) :
    Except ValueError Unit :=
  match expected with
  | none => .ok ()
  | some expected => do
    refuseIf (expected ≤ 0) ⟨"expected_task_revision must be a positive integer"⟩
    refuseIf (expected ≠ record.task_revision) ⟨"stale managed activation task_revision: " ++
      s!"expected {expected}, current {record.task_revision}"⟩

def has_round_evidence (record : TaskRecord) (result : RoundResult) : Bool :=
  ((record.artifacts .round_summary).any fun artifact => artifact.round_result = some result) ||
    (record.artifacts result.legacy_artifact_kind).isSome

def require_artifacts (record : TaskRecord) (status : TaskStatus) (required : List ArtifactKind) :
    Except ValueError Unit :=
  let missing := required.filter fun kind => (record.artifacts kind).isNone
  refuseIf (missing ≠ []) ⟨s!"plan task {status.text} requires artifacts: " ++
    ", ".intercalate (missing.map fun kind => kind.text)⟩

def validate_status_requirements (record : TaskRecord) (status : TaskStatus) :
    Except ValueError Unit :=
  match status with
  | .ready_for_orchestration => require_artifacts record status orchestration_ready_required
  | .ready => require_artifacts record status ready_required
  | .detail_ready => require_artifacts record status detail_ready_required
  | .done =>
    refuseIf ((record.artifacts .completion).isNone ∧ ¬ has_round_evidence record .pass)
      ⟨"plan task done requires artifact: completion or round_summary"⟩
  | .partial_ =>
    refuseIf (¬ has_round_evidence record .partial_)
      ⟨"plan task partial requires artifact: round_summary"⟩
  | .replan_required =>
    refuseIf ((record.artifacts .macro_adjustment_request).isNone
        ∧ ¬ has_round_evidence record .replan_required)
      ⟨"plan task replan_required requires artifact: round_summary or macro_adjustment_request"⟩
  | .blocked =>
    refuseIf ((record.artifacts .completion).isNone ∧ (record.artifacts .blocker_evidence).isNone
        ∧ ¬ has_round_evidence record .blocked)
      ⟨"plan task blocked requires artifact: completion, round_summary, or blocker_evidence"⟩
  | .draft | .decomposed | .running | .needs_clarification => .ok ()

def validate_status_next_owner (status : TaskStatus) (next_owner : NextOwner) :
    Except ValueError Unit :=
  let expected := default_next_owner_for_status status
  refuseIf (next_owner ≠ expected)
    ⟨s!"plan task status {status.text} requires next_owner {expected.text}; " ++
      s!"got {next_owner.text}"⟩

def next_owner_for_status_command (argument : Argument NextOwner) (status : TaskStatus) :
    Except ValueError NextOwner :=
  match argument with
  | .unknown => .error ⟨"unknown plan task next_owner"⟩
  | .absent => .ok (default_next_owner_for_status status)
  | .given next_owner => do
    validate_status_next_owner status next_owner
    return next_owner

/-- `_activation_reason_for_command`; a newline is a line feed or a carriage return. -/
def activation_reason_for_command (reason : Text) (default : Text) : Except ValueError Text := do
  let reason := if strip reason = [] then default else strip reason
  refuseIf (reason.any fun c => c.val = 10 || c.val = 13)
    ⟨"plan task activation_reason must be a single line"⟩
  refuseIf (reason.length > 240) ⟨"plan task activation_reason must be 240 characters or fewer"⟩
  return reason

/-- `_reject_running_semantic_mutation`, of semantic artifacts. -/
def reject_running_semantic_mutation (semantic : Bool) (record : TaskRecord) :
    Except ValueError Unit :=
  refuseIf (semantic ∧ (record.status = .running ∨ record.current_loop.isSome))
    ⟨"cannot replace semantic artifact while task is bound to running loop"⟩

def orchestrator_route_for_record (record : TaskRecord) : Option OrchestratorRoute :=
  (record.artifacts .orchestration_notes).bind fun notes => notes.orchestrator_route

/-! ## Artifacts -/

structure OrchestrationBundle where
  bundle_revision : ℕ
  bundle_digest : Digest
  text : Text
  task_revision : ℕ
  deriving DecidableEq

structure ArtifactCommand where
  artifact_kind : Argument ArtifactKind
  route : Argument OrchestratorRoute
  /-- What is read of the file, `none` when it is refused. -/
  file : Option Text
  /-- `normalize_bundle_candidate` of it. -/
  bundle : Option OrchestrationBundle
  /-- The digest of the bundle that `load_task_orchestration_bundle` reads back. -/
  stored_bundle_digest : Option Digest
  /-- `actor_source`, `actor` and `job_id` of the command itself. -/
  named_actor : ArtifactActor
  /-- `_artifact_actor_metadata`, which falls back on the environment. -/
  actor : ArtifactActor
  expected_task_revision : Option ℤ
  now : ℕ
  deriving DecidableEq

/-- An artifact as `_import_text_artifact` builds it, without its `extra`. -/
def text_artifact (kind : ArtifactKind) (text : Text) (actor : ArtifactActor) (now : ℕ) :
    TaskArtifact :=
  { kind := kind
    sha256 := library.sha256 text
    imported_at := now
    actor := actor
    orchestrator_route := none
    task_revision := none
    loop_id := none
    round_result := none
    bundle_revision := none
    bundle_digest := none
    superseded := none }

def TaskRecord.put_artifact (record : TaskRecord) (kind : ArtifactKind) (artifact : TaskArtifact) :
    TaskRecord :=
  { record with artifacts := Function.update record.artifacts kind (some artifact) }

def synchronize_stop_contract_revisions (record : TaskRecord) : TaskRecord :=
  { record with
    artifacts := fun kind =>
      if kind ∈ stop_contract_artifacts then
        (record.artifacts kind).map fun artifact =>
          { artifact with task_revision := some record.task_revision }
      else record.artifacts kind }

def role_output_source : Text := asciiText "loop_runner_role_output_import"

def is_role_output_actor (actor : ArtifactActor) : Bool :=
  actor.source = role_output_source && actor.actor = asciiText "loop_runner" &&
    strip actor.job_id ≠ []

def is_role_output_detail_import (actor : ArtifactActor) (kind : ArtifactKind) : Bool :=
  kind ∈ detail_ready_required && is_role_output_actor actor

def task_orchestration_bundle_artifact (command : ArtifactCommand) (record : TaskRecord) :
    Except ValueError Outcome := do
  let route := orchestrator_route_for_record record
  refuseIf (route ≠ some .direct_execution ∧ route ≠ some .partial_completion)
    ⟨"orchestration_bundle requires direct_execution or partial_completion orchestration_notes"⟩
  let _ ← valueOr command.file ⟨"plan artifact file not found"⟩
  let normalized ← valueOr command.bundle ⟨"orchestration bundle candidate invalid"⟩
  let imported := { text_artifact library .orchestration_bundle normalized.text command.actor
      command.now with
    task_revision := some normalized.task_revision
    bundle_revision := some normalized.bundle_revision
    bundle_digest := some normalized.bundle_digest }
  let record' := { record.put_artifact .orchestration_bundle imported with
    updated_at := command.now }
  match record.artifacts .orchestration_bundle with
  | none =>
    refuseIf (normalized.bundle_revision ≠ 1)
      ⟨"plan task first orchestration_bundle revision must be 1"⟩
    return .replaced record'
  | some existing =>
    let existing_revision ← valueOr existing.bundle_revision
      ⟨"plan task bundle_revision must be a positive integer"⟩
    if normalized.bundle_revision = existing_revision then
      refuseIf (existing.bundle_digest ≠ some normalized.bundle_digest)
        ⟨"plan task orchestration_bundle conflicts with existing bundle"⟩
      refuseIf (command.stored_bundle_digest ≠ some normalized.bundle_digest)
        ⟨"plan task existing orchestration_bundle does not match its recorded digest"⟩
      return .unchanged
    else
      refuseIf (normalized.bundle_revision ≠ existing_revision + 1)
        ⟨"plan task orchestration_bundle revision must increase exactly once: " ++
          s!"expected {existing_revision + 1}, got {normalized.bundle_revision}"⟩
      refuseIf (record.status = .running ∨ record.current_loop.isSome)
        ⟨"plan task cannot replace orchestration_bundle while task is bound to running loop"⟩
      return .replaced record'

def optional_orchestrator_route (route : Argument OrchestratorRoute) :
    Except ValueError (Option OrchestratorRoute) :=
  match route with
  | .absent => .ok none
  | .unknown => .error ⟨"unknown orchestrator route"⟩
  | .given route => .ok (some route)

/-- `_task_artifact` on an artifact that is not the bundle. -/
def task_text_artifact (command : ArtifactCommand) (kind : ArtifactKind) (record : TaskRecord) :
    Except ValueError Outcome := do
  let route ← optional_orchestrator_route command.route
  refuseIf (route.isSome ∧ kind ≠ .orchestration_notes)
    ⟨"plan task artifact --route is only valid for orchestration_notes"⟩
  let text ← valueOr command.file ⟨"plan artifact file not found"⟩
  let existing := record.artifacts kind
  let role_output := is_role_output_detail_import command.named_actor kind
  let semantic : Bool := kind ∈ semantic_task_artifacts
  let same := existing.any fun artifact => artifact.sha256 = library.sha256 text &&
    ¬ (role_output && artifact.task_revision ≠ some record.task_revision)
  if semantic && same then
    refuseIf (route.isSome ∧ (existing.bind fun artifact => artifact.orchestrator_route) ≠ route)
      ⟨"semantic artifact metadata conflicts with byte-identical import"⟩
    return .unchanged
  else
    reject_running_semantic_mutation semantic record
    let revision :=
      if semantic && existing.isSome && ¬ role_output then record.task_revision + 1
      else record.task_revision
    let artifact := { text_artifact library kind text command.actor command.now with
      orchestrator_route := route
      task_revision := if semantic then some revision else none }
    let record := { record with task_revision := revision }.put_artifact kind artifact
    let record :=
      if kind ∈ stop_contract_artifacts then synchronize_stop_contract_revisions record else record
    return .replaced { record with updated_at := command.now }

/-- `_task_artifact`; the kind is refused before the lock is taken. -/
def task_artifact (command : ArtifactCommand) (record : TaskRecord) : Except ValueError Outcome :=
  match command.artifact_kind with
  | .absent | .unknown => .error ⟨"unknown plan artifact kind"⟩
  | .given .round_summary =>
    .error ⟨"plan task-artifact cannot import round_summary directly; use plan task-import-round"⟩
  | .given kind => do
    assert_expected_task_revision command.expected_task_revision record
    if kind = .orchestration_bundle then task_orchestration_bundle_artifact library command record
    else task_text_artifact library command kind record

/-! ## Status -/

structure StatusCommand where
  status : Argument TaskStatus
  next_owner : Argument NextOwner
  activation_reason : Text
  expected_task_revision : Option ℤ
  now : ℕ
  deriving DecidableEq

def task_status (command : StatusCommand) (record : TaskRecord) : Except ValueError Outcome := do
  assert_expected_task_revision command.expected_task_revision record
  match command.status with
  | .absent | .unknown => .error ⟨"unknown plan task status"⟩
  | .given status =>
    refuseIf (status ∉ status_edges record.status)
      ⟨s!"invalid plan task status transition: {record.status.text} -> {status.text}"⟩
    validate_status_requirements record status
    let next_owner ← next_owner_for_status_command command.next_owner status
    let activation_reason ← activation_reason_for_command command.activation_reason
      (asciiText "status:" ++ asciiText record.status.text ++ asciiText "->" ++
        asciiText status.text)
    return .replaced { record with
      status := status
      owner := owner_for_status status
      next_owner := next_owner
      activation_reason := activation_reason
      detail_ready_reconciliation := none
      updated_at := command.now }

/-! ## Binding a loop and importing its round -/

structure BindLoopCommand where
  loop_id : Segment
  lease_id : ℕ
  expected_task_revision : Option ℤ
  now : ℕ
  deriving DecidableEq

def task_bind_loop (command : BindLoopCommand) (record : TaskRecord) :
    Except ValueError Outcome := do
  assert_expected_task_revision command.expected_task_revision record
  refuseIf (record.status = .done ∨ record.status = .blocked)
    ⟨s!"plan task cannot bind terminal status: {record.status.text}"⟩
  if record.status = .running then
    refuseIf (record.current_loop ≠ some command.loop_id) ⟨"plan task already bound to loop"⟩
    return .unchanged
  else
    refuseIf (record.status ≠ .ready_for_orchestration ∧ record.status ≠ .ready)
      ⟨"plan task bind requires status ready_for_orchestration or legacy ready; " ++
        s!"current status is {record.status.text}"⟩
    validate_status_requirements record record.status
    refuseIf (record.current_loop.isSome ∧ record.current_loop ≠ some command.loop_id)
      ⟨"plan task already bound to loop"⟩
    return .replaced { record with
      status := .running
      owner := .loop_runner
      next_owner := .orchestrator
      activation_reason := asciiText "loop_bound:" ++ command.loop_id.val
      current_loop := some command.loop_id
      loop_lease := some {
        loop_id := command.loop_id
        lease_id := command.lease_id
        status := .active
        acquired_at := command.now
        released_at := none }
      updated_at := command.now }

structure ImportRoundCommand where
  loop_id : Segment
  result : RoundResult
  text : Text
  actor : ArtifactActor
  expected_task_revision : Option ℤ
  now : ℕ
  deriving DecidableEq

def existing_round_import (record : TaskRecord) (loop_id : Segment) (result : RoundResult)
    (sha256 : Digest) : Except ValueError Bool :=
  match (record.artifacts .round_summary).or (record.artifacts result.legacy_artifact_kind) with
  | none => .ok false
  | some artifact => do
    refuseIf (¬ (artifact.loop_id = some loop_id ∧ artifact.round_result = some result
        ∧ artifact.sha256 = sha256))
      ⟨"plan task round import conflicts with existing round_summary artifact"⟩
    return true

def task_import_round (command : ImportRoundCommand) (record : TaskRecord) :
    Except ValueError Outcome := do
  assert_expected_task_revision command.expected_task_revision record
  let existing ← existing_round_import record command.loop_id command.result
    (library.sha256 command.text)
  if existing then return .unchanged
  else
    refuseIf (record.current_loop ≠ some command.loop_id)
      ⟨"plan task round import requires current_loop"⟩
    refuseIf (record.status ≠ .running) ⟨"plan task round import requires status running; " ++
      s!"current status is {record.status.text}"⟩
    let artifact := { text_artifact library .round_summary command.text command.actor command.now with
      loop_id := some command.loop_id
      round_result := some command.result }
    let legacy := { artifact with kind := command.result.legacy_artifact_kind }
    let record := (record.put_artifact .round_summary artifact).put_artifact
      command.result.legacy_artifact_kind legacy
    let target := command.result.target_status
    return .replaced { record with
      round_counters := Function.update record.round_counters command.result
        (record.round_counters command.result + 1)
      last_round := some {
        loop_id := command.loop_id
        result := command.result
        sha256 := artifact.sha256
        imported_at := command.now }
      status := target
      owner := owner_for_status target
      next_owner := default_next_owner_for_status target
      activation_reason := asciiText "round_summary:" ++ asciiText command.result.text
      current_loop := none
      loop_lease := record.loop_lease.map fun lease =>
        { lease with status := .imported, released_at := some command.now }
      updated_at := command.now }

/-! ## Replanning -/

structure AcceptDetailerReplanCommand where
  request_identity : Digest
  detail_digest : Digest
  macro_impact_digest : Digest
  source_task_revision : ℕ
  source_detailer_job_id : Segment
  planner_job_id : Option Segment
  now : ℕ
  deriving DecidableEq

/-- The mark of an artifact that a replan supersedes. -/
def superseded_artifacts (record : TaskRecord) (identity : Digest) (next_revision : ℕ) :
    ArtifactKind → Option TaskArtifact := fun kind =>
  if kind = .orchestration_notes ∨ kind = .orchestration_bundle then
    (record.artifacts kind).map fun artifact =>
      { artifact with superseded := some (identity, next_revision) }
  else record.artifacts kind

def task_accept_detailer_replan (command : AcceptDetailerReplanCommand) (record : TaskRecord) :
    Except ValueError Outcome :=
  match record.replan_feedback with
  | some existing => do
    refuseIf (¬ (existing.request_identity = command.request_identity
        ∧ existing.detail_digest = command.detail_digest
        ∧ existing.macro_impact_digest = command.macro_impact_digest
        ∧ existing.source_task_revision = command.source_task_revision
        ∧ existing.source_detailer_job_id = command.source_detailer_job_id))
      ⟨"detailer replan request identity conflict"⟩
    refuseIf (existing.planner_job_id.isSome ∧ command.planner_job_id.isSome
        ∧ existing.planner_job_id ≠ command.planner_job_id)
      ⟨"detailer replan request already references another Planner job"⟩
    if command.planner_job_id.isSome ∧ existing.planner_job_id.isNone then
      -- the answer says idempotent all the same
      return .replaced { record with
        replan_feedback := some { existing with
          planner_job_id := command.planner_job_id, updated_at := command.now }
        updated_at := command.now }
    else return .unchanged
  | none => do
    refuseIf (command.source_task_revision ≠ record.task_revision)
      ⟨"stale detailer replan task revision: " ++
        s!"expected {command.source_task_revision}, current {record.task_revision}"⟩
    refuseIf (record.status ∉ [TaskStatus.draft, .needs_clarification, .detail_ready,
        .ready_for_orchestration])
      ⟨s!"detailer replan cannot fence task status: {record.status.text}"⟩
    refuseIf record.current_loop.isSome
      ⟨"detailer replan cannot fence a task bound to a running loop"⟩
    let next_revision := command.source_task_revision + 1
    return .replaced { record with
      artifacts := superseded_artifacts record command.request_identity next_revision
      task_revision := next_revision
      status := .replan_required
      owner := .planner
      next_owner := .planner
      activation_reason := asciiText "planner_replan_required_from_task_detailer"
      current_loop := none
      replan_feedback := some {
        request_identity := command.request_identity
        detail_digest := command.detail_digest
        macro_impact_digest := command.macro_impact_digest
        source_task_revision := command.source_task_revision
        accepted_task_revision := next_revision
        source_detailer_job_id := command.source_detailer_job_id
        planner_job_id := command.planner_job_id
        superseded_artifacts := [ArtifactKind.orchestration_notes, .orchestration_bundle].filter
          fun kind => (record.artifacts kind).isSome
        accepted_at := command.now
        updated_at := command.now }
      updated_at := command.now }

structure CompleteDetailerReplanCommand where
  expected_task_revision : ℕ
  planner_job_id : Segment
  planner_feedback_digest : Digest
  backfill_path : Text
  now : ℕ
  deriving DecidableEq

def task_complete_detailer_replan (command : CompleteDetailerReplanCommand)
    (record : TaskRecord) : Except ValueError Outcome := do
  refuseIf (command.expected_task_revision ≠ record.task_revision)
    ⟨"detailer replan completion revision conflict"⟩
  refuseIf ((record.replan_feedback.bind fun feedback => feedback.planner_job_id) ≠
      some command.planner_job_id)
    ⟨"detailer replan completion Planner job binding conflict"⟩
  refuseIf (strip command.backfill_path = [])
    ⟨"detailer replan completion backfill path required"⟩
  let expected_record : PlannerReplanBackfill := {
    planner_job_id := command.planner_job_id
    planner_feedback_digest := command.planner_feedback_digest
    backfill_path := strip command.backfill_path }
  match record.planner_replan_backfill with
  | some existing =>
    refuseIf (existing ≠ expected_record)
      ⟨"detailer replan completion authority conflict"⟩
    refuseIf (record.status ≠ .ready_for_orchestration ∨ record.current_loop.isSome)
      ⟨"detailer replan completion replay state conflict"⟩
    return .unchanged
  | none =>
    refuseIf (record.status ≠ .replan_required)
      ⟨"detailer replan completion status conflict"⟩
    return .replaced { record with
      planner_replan_backfill := some expected_record
      status := .ready_for_orchestration
      owner := .orchestrator
      next_owner := .orchestrator
      activation_reason := asciiText "detailer_replan_planner_backfill_imported"
      current_loop := none
      updated_at := command.now }

/-! ## Reconciling a task that is ready in detail -/

/-- The state of a task as the caller of `task-reconcile-detail-ready` expects it. -/
structure ObservedState where
  status : TaskStatus
  owner : Owner
  next_owner : NextOwner
  current_loop : Option Segment
  task_revision : ℕ
  state_version : ℕ
  activation_reason : Text
  deriving DecidableEq

def observed_state (record : TaskRecord) : ObservedState :=
  { status := record.status
    owner := record.owner
    next_owner := record.next_owner
    current_loop := record.current_loop
    task_revision := record.task_revision
    state_version := record.state_version
    activation_reason := record.activation_reason }

/-- `_detail_ready_reconcile_authority`, as far as its basis: `basis` is the digest of what
the artifact files, the activations and the import log show, if they agree. -/
def detail_ready_reconcile_basis (record : TaskRecord) (allowed_statuses : List TaskStatus)
    (basis : Option Digest) : Option Digest :=
  let expected_next_owner : NextOwner :=
    if record.status = .ready_for_orchestration then .orchestrator else .planner
  if record.status ∉ allowed_statuses then none
  else if record.status = .detail_ready ∧ record.owner ≠ owner_for_status .detail_ready then none
  else if record.next_owner ≠ expected_next_owner then none
  else if record.current_loop.isSome ∨ orchestrator_route_for_record record ≠ some .needs_detail then
    none
  else basis

structure ReconcileDetailReadyCommand where
  expected_authority_digest : Digest
  expected : ObservedState
  basis : Option Digest
  now : ℕ
  deriving DecidableEq

def reconciled_reason : Text := asciiText "reconciled_detail_ready_stop_contract"

def task_reconcile_detail_ready (command : ReconcileDetailReadyCommand) (record : TaskRecord) :
    Except ValueError Outcome := do
  let basis ← valueOr
    (detail_ready_reconcile_basis record [.ready_for_orchestration, .detail_ready] command.basis)
    ⟨"stale detail_ready reconciliation authority"⟩
  let replayed : Bool := record.status = .detail_ready && record.owner = .plan_reviewer &&
    record.next_owner = .planner && record.current_loop.isNone &&
    record.activation_reason = reconciled_reason &&
    record.detail_ready_reconciliation.any fun reconciliation =>
      reconciliation.authority_digest = command.expected_authority_digest &&
        reconciliation.basis_digest = basis &&
        reconciliation.post_state_digest = library.post_state_digest record basis
  if replayed then return .unchanged
  else
    refuseIf (library.authority_digest record basis ≠ command.expected_authority_digest)
      ⟨"stale detail_ready reconciliation authority"⟩
    refuseIf (observed_state record ≠ command.expected)
      ⟨"stale detail_ready reconciliation task state"⟩
    refuseIf (record.status ≠ .ready_for_orchestration)
      ⟨"detail_ready reconciliation requires ready_for_orchestration"⟩
    let record := { record with
      status := .detail_ready
      owner := owner_for_status .detail_ready
      next_owner := .planner
      activation_reason := reconciled_reason }
    return .replaced { record with
      detail_ready_reconciliation := some {
        authority_digest := command.expected_authority_digest
        basis_digest := basis
        post_state_digest := library.post_state_digest
          { record with state_version := record.state_version + 1 } basis }
      updated_at := command.now }

/-! ## Updates -/

inductive UpdateCommand where
  | artifact (command : ArtifactCommand)
  | status (command : StatusCommand)
  | reconcile_detail_ready (command : ReconcileDetailReadyCommand)
  | accept_detailer_replan (command : AcceptDetailerReplanCommand)
  | complete_detailer_replan (command : CompleteDetailerReplanCommand)
  | bind_loop (command : BindLoopCommand)
  | import_round (command : ImportRoundCommand)
  deriving DecidableEq

/-- What a command does under the task's lock, up to `_replace_record`. -/
def UpdateCommand.apply (command : UpdateCommand) (record : TaskRecord) :
    Except ValueError Outcome :=
  match command with
  | .artifact command => task_artifact library command record
  | .status command => task_status command record
  | .reconcile_detail_ready command => task_reconcile_detail_ready library command record
  | .accept_detailer_replan command => task_accept_detailer_replan command record
  | .complete_detailer_replan command => task_complete_detailer_replan command record
  | .bind_loop command => task_bind_loop command record
  | .import_round command => task_import_round library command record

/-- The record as `_replace_record` writes it. -/
def TaskRecord.bumped (record : TaskRecord) : TaskRecord :=
  { record with state_version := record.state_version + 1 }

def UpdateCommand.step (command : UpdateCommand) (record : TaskRecord) :
    Except ValueError TaskRecord := do
  match ← command.apply library record with
  | .unchanged => return record
  | .replaced record => return record.bumped

/-- Commands one after another, each of which succeeds. -/
def run_commands (commands : List UpdateCommand) (record : TaskRecord) :
    Except ValueError TaskRecord :=
  commands.foldlM (fun record command => command.step library record) record

/-! ## The runner's action -/

inductive RunnerActionKind where
  | activate_orchestrator | ask_first_execute | reconcile_detail_ready | activate_task_detailer
  | planner_next_action_required | blocker_evidence_required | execute
  | ask_first_execution_not_ready | activate_planner | paused | blocked | terminal
  deriving DecidableEq

structure RunnerAction where
  action : RunnerActionKind
  reason : String
  next_owner : NextOwner
  deriving DecidableEq

/-- What the project's files show of a task. -/
structure TaskFiles where
  /-- The basis of `detail_ready_reconcile_authority`, as above. -/
  basis : Option Digest
  /-- `_detail_reconcile_provenance`, whether there is any. -/
  detail_provenance : Bool
  /-- `_task_declares_status_stop`. -/
  declares_status_stop : Bool
  deriving DecidableEq

def detail_packet_ready (record : TaskRecord) : Bool :=
  detail_ready_required.all fun kind => (record.artifacts kind).isSome

def has_role_output_detail_artifacts (record : TaskRecord) : Bool :=
  detail_ready_required.all fun kind =>
    (record.artifacts kind).any fun artifact => is_role_output_actor artifact.actor

def orchestration_action (files : TaskFiles) (record : TaskRecord) : RunnerAction :=
  match orchestrator_route_for_record record with
  | none =>
    { action := .activate_orchestrator
      reason := "ready_for_orchestration"
      next_owner := .orchestrator }
  | some .direct_execution =>
    { action := .ask_first_execute
      reason := "orchestrator_route_direct_execution"
      next_owner := .orchestrator }
  | some .partial_completion =>
    { action := .ask_first_execute
      reason := "orchestrator_route_partial_completion"
      next_owner := .orchestrator }
  | some .needs_detail =>
    if (detail_ready_reconcile_basis record [.ready_for_orchestration] files.basis).isSome then
      { action := .reconcile_detail_ready
        reason := "explicit_detail_ready_stop_contract"
        next_owner := .orchestrator }
    else if detail_packet_ready record then
      if ¬ files.detail_provenance ∧ has_role_output_detail_artifacts record then
        { action := .activate_task_detailer
          reason := "orchestrator_route_needs_detail_stale_detail_authority"
          next_owner := .orchestrator }
      else
        { action := .activate_orchestrator
          reason := "orchestrator_route_needs_detail_detail_ready"
          next_owner := .orchestrator }
    else
      { action := .activate_task_detailer
        reason := "orchestrator_route_needs_detail"
        next_owner := .orchestrator }
  | some .macro_adjustment_request =>
    { action := .planner_next_action_required
      reason := "orchestrator_route_macro_adjustment_request"
      next_owner := .planner }
  | some .blocked =>
    { action := .blocker_evidence_required
      reason := "orchestrator_route_blocked"
      next_owner := .frontdesk }

def activation_runner_action_for_record (files : TaskFiles) (record : TaskRecord) :
    Except ValueError (Option RunnerAction) := do
  let status := record.status
  let next_owner := record.next_owner
  let bound := record.current_loop.isSome
  validate_status_next_owner status next_owner
  if next_owner = .terminal then
    if status = .blocked then
      return some { action := .blocked, reason := "blocked_task", next_owner := .terminal }
    else
      return some { action := .terminal, reason := status.text ++ "_task", next_owner := .terminal }
  else if status = .ready_for_orchestration ∧ next_owner = .orchestrator ∧ ¬ bound then
    return some (orchestration_action files record)
  else if status = .ready ∧ next_owner = .orchestrator ∧ ¬ bound then
    return some { action := .execute, reason := "ready_task", next_owner := .orchestrator }
  else if status = .running ∧ next_owner = .orchestrator ∧ bound then
    return some {
      action := .ask_first_execution_not_ready
      reason := "running_task_bound_to_loop"
      next_owner := .orchestrator }
  else if (status = .detail_ready ∨ status = .replan_required) ∧ next_owner = .planner ∧ ¬ bound
      ∧ files.declares_status_stop then
    return none
  else if status ∈ [TaskStatus.draft, .partial_, .replan_required, .detail_ready]
      ∧ next_owner = .planner ∧ ¬ bound then
    return some {
      action := .activate_planner, reason := status.text ++ "_task", next_owner := .planner }
  else if status = .needs_clarification ∧ next_owner = .task_detailer then
    return some {
      action := .paused, reason := "needs_clarification", next_owner := .task_detailer }
  else if next_owner = .frontdesk then
    return some {
      action := .paused, reason := status.text ++ "_task", next_owner := .frontdesk }
  else return none

end ClaudeCodeBridge.Model.PlanTask
