import ClaudeCodeBridge.Model.TaskBindings
import ClaudeCodeBridge.Program.Stops

/-!
# Task sets

`lib/cli/services/task_set_closure.py`: the record of a task set, the evidence that its
children have come to an end, the closure that is made of it and the intents that ask the
planner to take notice.  Record, closure, archived closures, settlements and intents are
files of their own, each replaced as a whole; a call is a program of reads and writes of
them.

The files are those of one task set, in one plan; what the tasks' own files show, the plan's
revision and what is found of a feedback's transport are what the project has at the time.
Requests come as they are normalized.  Paths are left out, and so is what constant keys say.
-/

set_option autoImplicit false

namespace ClaudeCodeBridge.Model.TaskSet

open Program
open Model.PlanTask

/-! ## Tasks -/

structure PlannedTask where
  plan_slug : Segment
  member : MemberRecord

abbrev Tasks := Segment → Option PlannedTask

def show_task (tasks : Tasks) (task_id : Segment) : Except ValueError PlannedTask :=
  valueOr (tasks task_id) ⟨"plan task not found"⟩

/-- A command on one task, up to `_replace_record`. -/
def plan_task (task_id : Segment) (command : MemberRecord → Except ValueError MemberOutcome)
    (tasks : Tasks) : Except ValueError Tasks := do
  let task ← show_task tasks task_id
  match ← command task.member with
  | .unchanged => return tasks
  | .replaced member =>
    return Function.update tasks task_id (some { task with member := member.bumped })

/-! ## Children -/

structure ChildRequest where
  task_id : Segment
  required : Bool
  deriving DecidableEq

structure TaskSetChild where
  task_id : Segment
  task_revision : ℕ
  required : Bool
  order : ℕ
  deriving DecidableEq

/-- What `_validate_task_set` asks of the children. -/
structure ValidChildren (children : List TaskSetChild) : Prop where
  nonempty : children ≠ []
  ordered : children.map TaskSetChild.order = List.range children.length
  nodup : (children.map TaskSetChild.task_id).Nodup
  positive : ∀ child ∈ children, 0 < child.task_revision

abbrev Children := { children : List TaskSetChild // ValidChildren children }

def child_ids (children : List TaskSetChild) : List Segment :=
  children.map TaskSetChild.task_id

/-- One turn of the loop of `_resolve_children`. -/
def resolve_child (tasks : Tasks) (plan_slug source_task_id : Segment)
    (resolved : List TaskSetChild) (request : ChildRequest) :
    Except ValueError (List TaskSetChild) := do
  refuseIf (request.task_id = source_task_id ∨ request.task_id ∈ child_ids resolved)
    ⟨"task-set child identity is invalid or duplicate"⟩
  let task ← show_task tasks request.task_id
  refuseIf (task.plan_slug ≠ plan_slug) ⟨"task-set child is outside the owning plan"⟩
  refuseIf (task.member.record.task_revision = 0) ⟨"task_revision must be a positive integer"⟩
  return resolved ++ [{
    task_id := request.task_id
    task_revision := task.member.record.task_revision
    required := request.required
    order := resolved.length }]

/-- What holds of the children that are resolved already. -/
structure Resolved (children : List TaskSetChild) : Prop where
  ordered : children.map TaskSetChild.order = List.range children.length
  nodup : (children.map TaskSetChild.task_id).Nodup
  positive : ∀ child ∈ children, 0 < child.task_revision

theorem resolved_nil : Resolved [] :=
  { ordered := rfl
    nodup := List.nodup_nil
    positive := by simp }

theorem Resolved.resolve_child {tasks : Tasks} {plan_slug source_task_id : Segment}
    {resolved children : List TaskSetChild} {request : ChildRequest} (hr : Resolved resolved)
    (h : resolve_child tasks plan_slug source_task_id resolved request = .ok children) :
    Resolved children := by
  simp only [TaskSet.resolve_child, bind_ok, refuseIf_ok, pure_ok] at h
  obtain ⟨_, hnew, task, -, _, -, _, hpos, rfl⟩ := h
  push Not at hnew
  refine ⟨?_, ?_, ?_⟩
  · rw [List.map_append, hr.ordered, List.length_append, List.length_singleton, List.range_succ]
    rfl
  · rw [List.map_append, List.map_singleton]
    apply List.Nodup.append hr.nodup (List.nodup_singleton _)
    rw [List.disjoint_singleton]
    exact hnew.2
  · intro child hchild
    rw [List.mem_append, List.mem_singleton] at hchild
    rcases hchild with hchild | rfl
    · exact hr.positive child hchild
    · exact Nat.pos_of_ne_zero hpos

theorem Resolved.foldlM {tasks : Tasks} {plan_slug source_task_id : Segment}
    {requests : List ChildRequest} {resolved children : List TaskSetChild}
    (hr : Resolved resolved)
    (h : requests.foldlM (TaskSet.resolve_child tasks plan_slug source_task_id) resolved
      = .ok children) : Resolved children := by
  induction requests generalizing resolved with
  | nil =>
    rw [List.foldlM_nil, pure_ok] at h
    exact h ▸ hr
  | cons request requests ih =>
    rw [List.foldlM_cons, bind_ok] at h
    obtain ⟨next, hnext, h⟩ := h
    exact ih (hr.resolve_child hnext) h

def resolve_children (tasks : Tasks) (plan_slug source_task_id : Segment)
    (requests : List ChildRequest) : Except ValueError Children := do
  refuseIf (requests = []) ⟨"task set requires at least one child"⟩
  match h : requests.foldlM (resolve_child tasks plan_slug source_task_id) [] with
  | .error e => throw e
  | .ok children =>
    if hrequired : children.any TaskSetChild.required then
      have hresolved := resolved_nil.foldlM h
      have hnonempty : children ≠ [] := fun hnil => by simp [hnil] at hrequired
      return ⟨children, hnonempty, hresolved.ordered, hresolved.nodup, hresolved.positive⟩
    else throw ⟨"task set requires at least one required child"⟩

/-! ## Terminal evidence -/

/-- `_TERMINAL_RESULTS`. -/
def terminal_result : TaskStatus → Option RoundResult
  | .done | .detail_ready => some .pass
  | .partial_ => some .partial_
  | .replan_required => some .replan_required
  | .blocked => some .blocked
  | _ => none

structure RoundRelease where
  loop_topology_status : String
  released_count : Option ℤ
  retained_count : Option ℤ
  release_incomplete_count : Option ℤ
  deriving DecidableEq

/-- A `round.json`, as far as `_terminal_authority` reads it: `round_result` is the first of
its three places that is filled, `cleanup` the status of a cleanup's result. -/
structure RoundRecord where
  task_id : Option Segment
  round_result : Option String
  release : Option RoundRelease
  topology_release : Option RoundRelease
  multi_workgroup : Bool
  cleanup : Option String
  digest : Digest
  deriving DecidableEq

/-- What the files show of the tasks' terminal evidence. -/
structure TerminalFiles where
  /-- The basis of `detail_ready_stop_contract_authority`. -/
  detail_ready_basis : TaskRecord → Option Digest
  /-- `_verified_artifact_digest`. -/
  artifact_digest : TaskArtifact → Except ValueError Digest
  round : Segment → Except ValueError (Option RoundRecord)

inductive Cleanup where
  | complete
  | not_applicable_single_round
  deriving DecidableEq

/-- What `_terminal_authority` returns. -/
inductive TerminalAuthority where
  | detail_ready_stop_contract (authority_digest basis_digest : Digest)
  | no_execution (artifact_kind : ArtifactKind) (artifact_digest : Digest)
  | round_summary (artifact_digest : Digest) (loop_id : Segment) (round_digest : Digest)
      (release : RoundRelease) (cleanup : Cleanup)
  deriving DecidableEq

inductive EvidenceStatus where
  | pending (reason : String)
  | system_failure (result : Option RoundResult) (reason : String)
  | terminal (result : RoundResult) (authority : TerminalAuthority) (evidence_digest : Digest)
  deriving DecidableEq

/-- What `_child_evidence` returns. -/
structure ChildEvidence where
  task_id : Segment
  task_revision : ℕ
  status : TaskStatus
  evidence : EvidenceStatus
  deriving DecidableEq

inductive ClosureStatus where
  | closure_pending
  | system_failure
  deriving DecidableEq

structure SourceRequest where
  source_job_id : Segment
  sha256 : Digest
  bytes : ℕ
  /-- The path of a `body_artifact`. -/
  body_artifact : Option Text
  deriving DecidableEq

structure PlannerJob where
  job_id : Segment
  reply_sha256 : Digest
  deriving DecidableEq

/-- A `ccb.plan.task_set_closure.v1` without its digest. -/
structure ClosureContent where
  task_set_id : Segment
  task_set_revision : ℕ
  source_request : SourceRequest
  planner_job : PlannerJob
  expected_plan_revision : Digest
  ordered_children : List ChildEvidence
  ordered_terminal_evidence_digest : Digest
  status : ClosureStatus
  aggregate_result : Option RoundResult
  reason : String
  created_at : ℕ
  deriving DecidableEq

/-- The digests that `_digest` gives, and the id that is cut from one. -/
structure TaskSetLibrary where
  authority_digest : TaskRecord → Digest → Digest
  child_digest : Segment → ℕ → TerminalAuthority → Digest
  evidence_digest : ℕ → List ChildEvidence → Digest
  closure_digest : ClosureContent → Digest
  intent_id : Segment → ℕ → Digest → Segment

variable (library : TaskSetLibrary)

/-- `_terminal_authority` where a round has been imported. -/
def round_authority (files : TerminalFiles) (task : TaskRecord) (last_round : LastRound)
    (result : RoundResult) : Except ValueError TerminalAuthority := do
  refuseIf (last_round.result ≠ result) ⟨"terminal_child_round_result_mismatch"⟩
  let artifact ← valueOr (task.artifacts .round_summary)
    ⟨"terminal_child_round_summary_missing"⟩
  let artifact_digest ← files.artifact_digest artifact
  let round ← valueOr (← files.round last_round.loop_id)
    ⟨"terminal_child_round_authority_missing"⟩
  refuseIf (round.task_id.any fun task_id => task_id ≠ task.task_id)
    ⟨"terminal_child_round_task_mismatch"⟩
  refuseIf (round.round_result.any fun text => text ≠ result.text)
    ⟨"terminal_child_round_record_result_mismatch"⟩
  let release ← valueOr (round.release.or round.topology_release)
    ⟨"terminal_child_release_incomplete"⟩
  refuseIf (release.loop_topology_status ≠ "released" ∨ release.retained_count.getD 0 ≠ 0
      ∨ release.release_incomplete_count.getD 0 ≠ 0)
    ⟨"terminal_child_release_incomplete"⟩
  if round.multi_workgroup ∨ round.cleanup.isSome then
    refuseIf (round.cleanup ≠ some "complete") ⟨"terminal_child_cleanup_incomplete"⟩
    return .round_summary artifact_digest last_round.loop_id round.digest release .complete
  else
    return .round_summary artifact_digest last_round.loop_id round.digest release
      .not_applicable_single_round

def terminal_authority (files : TerminalFiles) (task : TaskRecord) (result : RoundResult) :
    Except ValueError TerminalAuthority := do
  if task.status = .detail_ready then
    let basis ← valueOr
      (detail_ready_reconcile_basis task [.detail_ready] (files.detail_ready_basis task))
      ⟨"terminal_child_detail_ready_authority_missing"⟩
    return .detail_ready_stop_contract (library.authority_digest task basis) basis
  else
    match task.last_round with
    | none => do
      let kind : ArtifactKind :=
        if result = .blocked then .blocker_evidence else .macro_adjustment_request
      let artifact ← valueOr (task.artifacts kind) ⟨"terminal_child_evidence_missing"⟩
      return .no_execution kind (← files.artifact_digest artifact)
    | some last_round => round_authority files task last_round result

/-- `_child_evidence`, of the task that `_show_task` has found. -/
def task_evidence (files : TerminalFiles) (plan_slug : Segment) (child : TaskSetChild)
    (task : PlannedTask) : EvidenceStatus :=
  let record := task.member.record
  if task.plan_slug ≠ plan_slug then .system_failure none "child_plan_drift"
  else if record.task_revision ≠ child.task_revision then
    .system_failure none "stale_child_revision"
  else
    match terminal_result record.status with
    | none => .pending s!"child_status_{record.status.text}"
    | some result =>
      match terminal_authority library files record result with
      | .error e => .system_failure (some result) e.text
      | .ok authority =>
        .terminal result authority
          (library.child_digest child.task_id record.task_revision authority)

def child_evidence (tasks : Tasks) (files : TerminalFiles) (plan_slug : Segment)
    (child : TaskSetChild) : Except ValueError ChildEvidence := do
  let task ← show_task tasks child.task_id
  return {
    task_id := child.task_id
    task_revision := task.member.record.task_revision
    status := task.member.record.status
    evidence := task_evidence library files plan_slug child task }

def required_evidence (tasks : Tasks) (files : TerminalFiles) (plan_slug : Segment)
    (children : List TaskSetChild) : Except ValueError (List ChildEvidence) :=
  (children.filter TaskSetChild.required).mapM (child_evidence library tasks files plan_slug)

def ChildEvidence.is_pending (item : ChildEvidence) : Bool :=
  match item.evidence with
  | .pending _ => true
  | _ => false

def ChildEvidence.is_system_failure (item : ChildEvidence) : Bool :=
  match item.evidence with
  | .system_failure _ _ => true
  | _ => false

def ChildEvidence.result (item : ChildEvidence) : Option RoundResult :=
  match item.evidence with
  | .pending _ => none
  | .system_failure result _ => result
  | .terminal result _ _ => some result

def aggregate_required_results (evidence : List ChildEvidence) :
    Except ValueError (RoundResult × String) :=
  let results := evidence.map ChildEvidence.result
  if some .replan_required ∈ results then
    .ok (.replan_required, "one_or_more_required_children_require_replan")
  else if some .partial_ ∈ results then
    .ok (.partial_, "one_or_more_required_children_are_partial")
  else if some .pass ∈ results ∧ some .blocked ∈ results then
    .ok (.partial_, "required_children_include_pass_and_blocked")
  else if results ≠ [] ∧ ∀ result ∈ results, result = some .blocked then
    .ok (.blocked, "all_required_children_are_blocked")
  else if results ≠ [] ∧ ∀ result ∈ results, result = some .pass then
    .ok (.pass, "all_required_children_passed")
  else .error ⟨"unsupported task-set aggregate results"⟩

/-! ## The files of a task set -/

structure Closure where
  content : ClosureContent
  closure_digest : Digest
  deriving DecidableEq

def validate_closure (closure : Closure) : Except ValueError Unit :=
  refuseIf (closure.closure_digest ≠ library.closure_digest closure.content)
    ⟨"task-set closure digest mismatch"⟩

/-- What a task set records of its closure. -/
structure ClosureRef where
  closure_digest : Digest
  ordered_terminal_evidence_digest : Digest
  deriving DecidableEq

def Closure.ref (closure : Closure) : ClosureRef :=
  { closure_digest := closure.closure_digest
    ordered_terminal_evidence_digest := closure.content.ordered_terminal_evidence_digest }

/-- The state of a task set; one that is revised holds `pending_revision` and
`pending_children`. -/
inductive TaskSetState where
  | binding
  | running
  | revising (pending_revision : ℕ) (pending_children : Children)
  | closure_pending
  | system_failure
  | closed
  | partial_
  | replan_required
  | blocked
  deriving DecidableEq

def TaskSetState.is_revising : TaskSetState → Bool
  | revising _ _ => true
  | _ => false

/-- A `ccb.plan.task_set.v1`. -/
structure TaskSetRecord where
  task_set_id : Segment
  task_set_revision : ℕ
  plan_slug : Segment
  source_task_id : Segment
  source_request : SourceRequest
  planner_job : PlannerJob
  plan_revision : Digest
  children : Children
  state : TaskSetState
  aggregate_result : Option RoundResult
  closure : Option ClosureRef
  created_at : ℕ
  updated_at : ℕ
  deriving DecidableEq

structure TransportRef where
  planner_feedback_digest : Digest
  fields : Text
  deriving DecidableEq

inductive IntentStatus where
  | pending_planner_backfill
  | stale (stale_at : ℕ)
  | feedback_closed (transport_ref : TransportRef) (feedback_closed_at : ℕ)
  deriving DecidableEq

/-- A `ccb.plan.task_set_closure_intent.v1`. -/
structure ClosureIntent where
  intent_id : Segment
  task_set_id : Segment
  task_set_revision : ℕ
  ordered_terminal_evidence_digest : Digest
  closure_digest : Digest
  status : IntentStatus
  created_at : ℕ
  deriving DecidableEq

/-- A `ccb.plan.task_set_closure_settlement.v2`. -/
structure ClosureSettlement where
  task_set_id : Segment
  task_set_revision : ℕ
  intent_id : Segment
  aggregate_result : Option RoundResult
  closure_digest : Digest
  ordered_terminal_evidence_digest : Digest
  transport_ref : TransportRef
  deriving DecidableEq

/-- `_validate_feedback_transport`: what the runtime, the backfill and the jobs of a feedback
make of its transport. -/
abbrev TransportCheck :=
  TaskSetRecord → Closure → ClosureIntent → TransportRef → Except ValueError TransportRef

/-- The files of a task set and what the rest of the project shows to its calls. -/
structure TaskSetFiles where
  task_set : Option TaskSetRecord
  closure : Option Closure
  /-- `closure-r{revision}.json`. -/
  archives : ℕ → Option Closure
  /-- `closure-settlement-r{revision}.json`. -/
  settlements : ℕ → Option ClosureSettlement
  /-- `closure-intents.json`. -/
  intents : Option (List ClosureIntent)
  tasks : Tasks
  terminal : TerminalFiles
  plan_revision : Except ValueError Digest
  transport : TransportCheck
  clock : ℕ

inductive LockName where
  | task_set
  | closure_settlement (revision : ℕ)
  | closure_intents
  deriving DecidableEq

/-- What a step of a call is about. -/
inductive AccessName where
  | lock (name : LockName)
  | unlock (name : LockName)
  | task_set
  | closure
  | archive
  | settlement
  | intents
  | tasks
  | project
  | clock
  deriving DecidableEq

abbrev SetCall (α : Type) := Prog AccessName TaskSetFiles ValueError α

open Prog

def file_lock {α : Type} (name : LockName) (call : SetCall α) : SetCall α :=
  within (.lock name) (.unlock name) call

def now : SetCall ℕ := update .clock TaskSetFiles.clock fun w => { w with clock := w.clock + 1 }

def write_task_set (record : TaskSetRecord) : SetCall Unit :=
  write .task_set fun w => { w with task_set := some record }

def write_closure (closure : Closure) : SetCall Unit :=
  write .closure fun w => { w with closure := some closure }

def write_intents (intents : List ClosureIntent) : SetCall Unit :=
  write .intents fun w => { w with intents := some intents }

/-- `plan_task_fn` on one task. -/
def plan_task_fn (task_id : Segment) (command : MemberRecord → Except ValueError MemberOutcome) :
    SetCall Unit :=
  attempt .tasks fun w => (plan_task task_id command w.tasks).map fun tasks =>
    { w with tasks := tasks }

/-- `_validate_task_set`, as far as the types leave something to check. -/
def validate_task_set (record : TaskSetRecord) : Except ValueError Unit :=
  refuseIf (record.task_set_revision = 0) ⟨"task_set_revision must be a positive integer"⟩

def find_task_set : SetCall TaskSetRecord :=
  inspect .task_set fun w => do
    let record ← valueOr w.task_set ⟨"task set not found or ambiguous"⟩
    validate_task_set record
    return record

/-! ## Binding the tasks -/

def bind_parent_command (record : TaskSetRecord) (revision : ℕ) (source_task : PlannedTask)
    (now : ℕ) : BindParentCommand :=
  { task_set_id := record.task_set_id
    task_set_revision := revision
    expected_task_revision := some source_task.member.record.task_revision
    now := now }

def bind_child_command (task_set_id : Segment) (revision : ℕ) (child : TaskSetChild) (now : ℕ) :
    BindChildCommand :=
  { task_set_id := task_set_id
    task_set_revision := revision
    required := child.required
    order := child.order
    expected_task_revision := some child.task_revision
    now := now }

def unbind_command (record : TaskSetRecord) (now : ℕ) : UnbindCommand :=
  { task_set_id := record.task_set_id
    task_set_revision := record.task_set_revision
    now := now }

def bind_parent (record : TaskSetRecord) (revision : ℕ) (source_task : PlannedTask) :
    SetCall Unit := do
  let at_ ← now
  plan_task_fn record.source_task_id
    (task_bind_parent (bind_parent_command record revision source_task at_))

def bind_children (task_set_id : Segment) (revision : ℕ) (children : List TaskSetChild) :
    SetCall Unit :=
  forEach children fun child => do
    let at_ ← now
    plan_task_fn child.task_id (task_bind_child (bind_child_command task_set_id revision child at_))

/-- The loop of `revise_task_set_authority` over the children that are left out. -/
def unbind_children (record : TaskSetRecord) (children : List TaskSetChild) : SetCall Unit :=
  forEach children fun child => do
    let at_ ← now
    plan_task_fn child.task_id (task_unbind_task_set (unbind_command record at_))

/-! ## Creating and revising -/

/-- The arguments of `create_task_set_authority`, normalized. -/
structure CreateTaskSet where
  task_set_id : Segment
  plan_slug : Segment
  source_task_id : Segment
  source_request : SourceRequest
  planner_job : PlannerJob
  children : List ChildRequest
  deriving DecidableEq

def created_task_set (command : CreateTaskSet) (plan_revision : Digest) (children : Children)
    (now : ℕ) : TaskSetRecord :=
  { task_set_id := command.task_set_id
    task_set_revision := 1
    plan_slug := command.plan_slug
    source_task_id := command.source_task_id
    source_request := command.source_request
    planner_job := command.planner_job
    plan_revision := plan_revision
    children := children
    state := .binding
    aggregate_result := none
    closure := none
    created_at := now
    updated_at := now }

/-- The keys of `identity` agree with those of a record. -/
def same_identity (command : CreateTaskSet) (plan_revision : Digest) (children : Children)
    (existing : TaskSetRecord) : Prop :=
  existing.task_set_id = command.task_set_id ∧ existing.source_task_id = command.source_task_id ∧
    existing.source_request = command.source_request ∧
    existing.planner_job = command.planner_job ∧ existing.plan_revision = plan_revision ∧
    existing.children = children

instance decidableSameIdentity (command : CreateTaskSet) (plan_revision : Digest)
    (children : Children) (existing : TaskSetRecord) :
    Decidable (same_identity command plan_revision children existing) :=
  inferInstanceAs (Decidable (_ ∧ _))

/-- `create_task_set_authority` as far as the record that it binds the tasks for. -/
def open_task_set (command : CreateTaskSet) (plan_revision : Digest) (children : Children) :
    SetCall TaskSetRecord := do
  match ← read .task_set TaskSetFiles.task_set with
  | some existing => do
    ofExcept (validate_task_set existing)
    ofExcept (refuseIf (¬ same_identity command plan_revision children existing
        ∨ existing.task_set_revision ≠ 1)
      ⟨"task-set creation conflicts with existing authority"⟩)
    return existing
  | none => do
    let record := created_task_set command plan_revision children (← now)
    write_task_set record
    return record

/-- The `target_state` of a record that is created or created again. -/
def target_state : TaskSetState → TaskSetState
  | .binding => .running
  | state => state

def create_task_set_authority (command : CreateTaskSet) : SetCall TaskSetRecord := do
  let children ← inspect .tasks fun w =>
    resolve_children w.tasks command.plan_slug command.source_task_id command.children
  let source_task ← inspect .tasks fun w => show_task w.tasks command.source_task_id
  ofExcept (refuseIf (source_task.plan_slug ≠ command.plan_slug)
    ⟨"task-set source task is outside the owning plan"⟩)
  let plan_revision ← inspect .project TaskSetFiles.plan_revision
  file_lock .task_set do
    let record ← open_task_set command plan_revision children
    bind_parent record 1 source_task
    bind_children command.task_set_id 1 children.val
    let record := { record with
      state := target_state record.state
      updated_at := ← now }
    write_task_set record
    return record

/-- What becomes of `closure.json` when the task set is revised. -/
def archive_closure (current_revision : ℕ) : SetCall Unit := do
  match ← read .closure TaskSetFiles.closure with
  | none => return ()
  | some closure => do
    match ← read .archive fun w => w.archives current_revision with
    | some archived => do
      ofExcept (refuseIf (archived ≠ closure)
        ⟨"task-set closure revision archive conflicts with current closure"⟩)
      write .closure fun w => { w with closure := none }
    | none =>
      write .archive fun w => { w with
        closure := none
        archives := Function.update w.archives current_revision w.closure }

/-- An intent of the revision that is given up, if it is open. -/
def ClosureIntent.staled (current_revision now : ℕ) (intent : ClosureIntent) : ClosureIntent :=
  if intent.task_set_revision = current_revision ∧ intent.status = .pending_planner_backfill then
    { intent with status := .stale now }
  else intent

def stale_open_intents (current_revision : ℕ) : SetCall Unit := do
  match ← read .intents TaskSetFiles.intents with
  | none => return ()
  | some intents => do
    let at_ ← now
    let staled := intents.map (ClosureIntent.staled current_revision at_)
    if staled ≠ intents then write_intents staled

/-- `revise_task_set_authority` between the record that is being revised and the one that is:
children that are left out are unbound, parent and children bound at the new revision. -/
def rebind_tasks (record : TaskSetRecord) (new_revision : ℕ) (new_children : Children) :
    SetCall Unit := do
  unbind_children record
    (record.children.val.filter fun child => child.task_id ∉ child_ids new_children.val)
  let source_task ← inspect .tasks fun w => show_task w.tasks record.source_task_id
  bind_parent record new_revision source_task
  bind_children record.task_set_id new_revision new_children.val

def revised_task_set (record : TaskSetRecord) (new_revision : ℕ) (new_children : Children)
    (now : ℕ) : TaskSetRecord :=
  { record with
    task_set_revision := new_revision
    children := new_children
    state := .running
    aggregate_result := none
    closure := none
    updated_at := now }

def revise_task_set_authority (expected_revision : ℕ) (requests : List ChildRequest) :
    SetCall TaskSetRecord := do
  let _ ← find_task_set
  file_lock .task_set do
    let record ← find_task_set
    let current_revision := record.task_set_revision
    ofExcept (refuseIf (current_revision ≠ expected_revision) ⟨"stale task-set revision"⟩)
    let new_revision := current_revision + 1
    let new_children ← inspect .tasks fun w =>
      resolve_children w.tasks record.plan_slug record.source_task_id requests
    archive_closure current_revision
    write_task_set { record with
      state := .revising new_revision new_children
      updated_at := ← now }
    stale_open_intents current_revision
    rebind_tasks record new_revision new_children
    let revised := revised_task_set record new_revision new_children (← now)
    write_task_set revised
    return revised

/-! ## Evaluating -/

def closure_record (record : TaskSetRecord) (evidence : List ChildEvidence)
    (aggregate_result : Option RoundResult) (status : ClosureStatus) (reason : String)
    (now : ℕ) : Closure :=
  let content : ClosureContent := {
    task_set_id := record.task_set_id
    task_set_revision := record.task_set_revision
    source_request := record.source_request
    planner_job := record.planner_job
    expected_plan_revision := record.plan_revision
    ordered_children := evidence
    ordered_terminal_evidence_digest := library.evidence_digest record.task_set_revision evidence
    status := status
    aggregate_result := aggregate_result
    reason := reason
    created_at := now }
  { content := content
    closure_digest := library.closure_digest content }

/-- The search of `_ensure_closure_intent` for an intent of the revision. -/
def find_intent (revision : ℕ) (evidence_digest : Digest) (intents : List ClosureIntent) :
    Except ValueError (Option ClosureIntent) :=
  match intents.find? fun intent => intent.task_set_revision = revision with
  | none => .ok none
  | some intent => do
    refuseIf (intent.ordered_terminal_evidence_digest ≠ evidence_digest)
      ⟨"task-set closure intent conflicts with terminal evidence digest"⟩
    return some intent

def closure_intent (record : TaskSetRecord) (closure : Closure) (now : ℕ) : ClosureIntent :=
  { intent_id := library.intent_id record.task_set_id record.task_set_revision
      closure.content.ordered_terminal_evidence_digest
    task_set_id := record.task_set_id
    task_set_revision := record.task_set_revision
    ordered_terminal_evidence_digest := closure.content.ordered_terminal_evidence_digest
    closure_digest := closure.closure_digest
    status := .pending_planner_backfill
    created_at := now }

/-- `_ensure_closure_intent`: the intent and whether it was there. -/
def ensure_closure_intent (record : TaskSetRecord) (closure : Closure) :
    SetCall (ClosureIntent × Bool) := do
  let intents := (← read .intents TaskSetFiles.intents).getD []
  match ← ofExcept (find_intent record.task_set_revision
      closure.content.ordered_terminal_evidence_digest intents) with
  | some intent => return (intent, true)
  | none => do
    let intent := closure_intent library record closure (← now)
    write_intents (intents ++ [intent])
    return (intent, false)

/-- What `evaluate_task_set_closure` returns. -/
inductive Evaluation where
  | pending (reason : String) (child_task_ids : List Segment)
  | system_failure (task_set : TaskSetRecord) (closure : Closure) (failures : List ChildEvidence)
  | closure_pending (task_set : TaskSetRecord) (closure : Closure) (intent : ClosureIntent)
      (idempotent : Bool)
  deriving DecidableEq

def Evaluation.is_closure_pending : Evaluation → Bool
  | closure_pending _ _ _ _ => true
  | _ => false

/-- `evaluate_task_set_closure` where the authority of a required child has failed. -/
def evaluate_failures (record : TaskSetRecord) (evidence : List ChildEvidence) :
    SetCall Evaluation := do
  let closure := closure_record library record evidence none .system_failure
    "required_child_authority_incomplete" (← now)
  write_closure closure
  let record := { record with
    state := .system_failure
    aggregate_result := none
    closure := some closure.ref
    updated_at := ← now }
  write_task_set record
  return .system_failure record closure (evidence.filter ChildEvidence.is_system_failure)

/-- The closure that exists for the evidence, or a new one in place of none and of one that
records a failure; and whether it was there. -/
def ensure_closure (record : TaskSetRecord) (evidence : List ChildEvidence)
    (aggregate_result : RoundResult) (reason : String) : SetCall (Closure × Bool) := do
  let existing ← read .closure TaskSetFiles.closure
  ofExcept (existing.elim (.ok ()) (validate_closure library))
  match existing.filter fun closure => closure.content.status ≠ .system_failure with
  | some closure => do
    ofExcept (refuseIf (closure.content.task_set_revision ≠ record.task_set_revision
        ∨ closure.content.ordered_terminal_evidence_digest
          ≠ library.evidence_digest record.task_set_revision evidence)
      ⟨"task-set closure conflicts with existing terminal evidence digest"⟩)
    return (closure, true)
  | none => do
    let closure := closure_record library record evidence (some aggregate_result)
      .closure_pending reason (← now)
    write_closure closure
    return (closure, false)

/-- `evaluate_task_set_closure` where every required child has come to an end. -/
def evaluate_terminal (record : TaskSetRecord) (evidence : List ChildEvidence) :
    SetCall Evaluation := do
  let (aggregate_result, reason) ← ofExcept (aggregate_required_results evidence)
  let (closure, closure_idempotent) ← ensure_closure library record evidence aggregate_result reason
  let (intent, intent_idempotent) ← ensure_closure_intent library record closure
  let record := { record with
    state := .closure_pending
    aggregate_result := some aggregate_result
    closure := some closure.ref
    updated_at := ← now }
  write_task_set record
  return .closure_pending record closure intent (closure_idempotent && intent_idempotent)

/-- What `evaluate_task_set_closure` makes of the evidence of the required children. -/
def evaluate_evidence (record : TaskSetRecord) (evidence : List ChildEvidence) :
    SetCall Evaluation :=
  if evidence.any ChildEvidence.is_pending then
    return .pending "required_children_not_terminal"
      ((evidence.filter ChildEvidence.is_pending).map ChildEvidence.task_id)
  else if evidence.any ChildEvidence.is_system_failure then
    evaluate_failures library record evidence
  else evaluate_terminal library record evidence

def evaluate_task_set_closure (expected_revision : Option ℕ) : SetCall Evaluation := do
  let _ ← find_task_set
  file_lock .task_set do
    let record ← find_task_set
    ofExcept (refuseIf (expected_revision.any fun expected => expected ≠ record.task_set_revision)
      ⟨"stale task-set revision"⟩)
    if record.state.is_revising then
      return .pending "task_set_revision_in_progress" []
    else do
      let evidence ← inspect .tasks fun w =>
        required_evidence library w.tasks w.terminal record.plan_slug record.children.val
      evaluate_evidence library record evidence

/-! ## Discovering closures -/

structure PendingClosures where
  pending : List ClosureIntent
  stale : List ClosureIntent
  deriving DecidableEq

/-- The intents that `find_pending_task_set_closures` takes for open. -/
def ClosureIntent.is_open (record : TaskSetRecord) (intent : ClosureIntent) : Bool :=
  intent.status = .pending_planner_backfill ∧
    intent.task_set_revision = record.task_set_revision ∧ record.state = .closure_pending

def ClosureIntent.is_stale (record : TaskSetRecord) (intent : ClosureIntent) : Bool :=
  match intent.status with
  | .stale _ => true
  | .feedback_closed _ _ => false
  | .pending_planner_backfill => !intent.is_open record

/-- `find_pending_task_set_closures`, for the intents of the task set. -/
def find_pending_task_set_closures : SetCall PendingClosures := do
  match ← read .intents TaskSetFiles.intents with
  | none => return { pending := [], stale := [] }
  | some intents => do
    let record ← find_task_set
    return {
      pending := intents.filter (ClosureIntent.is_open record)
      stale := intents.filter (ClosureIntent.is_stale record) }

/-- `evaluate_current_task_set_closures`, for the task set. -/
def evaluate_current_task_set_closures : SetCall (PendingClosures × Option Evaluation) := do
  match ← read .task_set TaskSetFiles.task_set with
  | none => return (← find_pending_task_set_closures, none)
  | some record => do
    ofExcept (validate_task_set record)
    if record.state ∈ [TaskSetState.running, .closure_pending, .system_failure] then do
      let evaluation ← evaluate_task_set_closure library (some record.task_set_revision)
      return (← find_pending_task_set_closures, some evaluation)
    else return (← find_pending_task_set_closures, none)

/-! ## Settling -/

/-- The arguments of `settle_task_set_closure_feedback`. -/
structure SettleFeedback where
  task_set_revision : ℕ
  intent_id : Segment
  ordered_terminal_evidence_digest : Digest
  transport_ref : TransportRef
  deriving DecidableEq

def the_intent (intent_id : Segment) (intents : List ClosureIntent) :
    Except ValueError ClosureIntent :=
  match intents.filter fun intent => intent.intent_id = intent_id with
  | [intent] => .ok intent
  | _ => .error ⟨"task-set closure intent not found or ambiguous"⟩

def settled_state : RoundResult → TaskSetState
  | .pass => .closed
  | .partial_ => .partial_
  | .replan_required => .replan_required
  | .blocked => .blocked

def settlement_record (record : TaskSetRecord) (closure : Closure) (command : SettleFeedback)
    (transport_ref : TransportRef) : ClosureSettlement :=
  { task_set_id := record.task_set_id
    task_set_revision := command.task_set_revision
    intent_id := command.intent_id
    aggregate_result := closure.content.aggregate_result
    closure_digest := closure.closure_digest
    ordered_terminal_evidence_digest := command.ordered_terminal_evidence_digest
    transport_ref := transport_ref }

def settle_parent_command (record : TaskSetRecord) (closure : Closure) (result : RoundResult)
    (transport_ref : TransportRef) (now : ℕ) : SettleParentCommand :=
  { task_set_id := record.task_set_id
    task_set_revision := record.task_set_revision
    aggregate_result := result
    closure_digest := closure.closure_digest
    planner_feedback_digest := transport_ref.planner_feedback_digest
    now := now }

/-- What `settle_task_set_closure_feedback` has read before its locks. -/
structure SettlementBasis where
  task_set : TaskSetRecord
  closure : Closure
  intents : List ClosureIntent
  transport_ref : TransportRef

/-- `settle_task_set_closure_feedback` before its locks. -/
def settlement_basis (command : SettleFeedback) : SetCall SettlementBasis := do
  let task_set ← find_task_set
  ofExcept (refuseIf (task_set.task_set_revision ≠ command.task_set_revision
      ∨ task_set.state ∉ [TaskSetState.closure_pending, .closed, .partial_, .replan_required,
        .blocked])
    ⟨"task-set closure settlement task-set authority mismatch"⟩)
  let closure ← inspect .closure fun w => valueOr
    (w.closure.filter fun closure => closure.content.ordered_terminal_evidence_digest
      = command.ordered_terminal_evidence_digest)
    ⟨"task-set closure settlement evidence mismatch"⟩
  let intents := (← read .intents TaskSetFiles.intents).getD []
  let intent ← ofExcept (the_intent command.intent_id intents)
  ofExcept (refuseIf (intent.task_set_revision ≠ command.task_set_revision
      ∨ intent.ordered_terminal_evidence_digest ≠ command.ordered_terminal_evidence_digest
      ∨ intent.closure_digest ≠ closure.closure_digest)
    ⟨"task-set closure feedback settlement authority mismatch"⟩)
  let transport_ref ← inspect .project fun w =>
    w.transport task_set closure intent command.transport_ref
  return {
    task_set := task_set
    closure := closure
    intents := intents
    transport_ref := transport_ref }

/-- The section of `settle_task_set_closure_feedback` under the lock of the task set. -/
def settle_task_set (command : SettleFeedback) (basis : SettlementBasis) : SetCall Unit := do
  let record ← find_task_set
  let closure ← inspect .closure fun w => valueOr w.closure ⟨"invalid task-set closure schema"⟩
  ofExcept (validate_closure library closure)
  let intents ← file_lock .closure_intents do
    return (← read .intents TaskSetFiles.intents).getD []
  ofExcept (refuseIf (record ≠ basis.task_set ∨ closure ≠ basis.closure ∨ intents ≠ basis.intents)
    ⟨"task-set closure settlement authority changed during validation"⟩)
  let settlement := settlement_record record closure command basis.transport_ref
  match ← read .settlement fun w => w.settlements command.task_set_revision with
  | some existing =>
    ofExcept (refuseIf (existing ≠ settlement)
      ⟨"task-set closure settlement transaction conflict"⟩)
  | none =>
    write .settlement fun w => { w with
      settlements := Function.update w.settlements command.task_set_revision (some settlement) }
  let result ← ofExcept (valueOr closure.content.aggregate_result
    ⟨"task-set parent aggregate result invalid"⟩)
  let at_ ← now
  plan_task_fn record.source_task_id (settle_task_set_parent
    (settle_parent_command record closure result basis.transport_ref at_))
  if record.state = .closure_pending then do
    write_task_set { record with
      state := settled_state result
      aggregate_result := some result
      updated_at := ← now }
  else ofExcept (refuseIf (record.state ≠ settled_state result)
    ⟨"task-set closure settlement state conflict"⟩)

def ClosureIntent.closed (intent : ClosureIntent) (transport_ref : TransportRef) (now : ℕ) :
    ClosureIntent :=
  { intent with status := .feedback_closed transport_ref now }

/-- The section of `settle_task_set_closure_feedback` under the lock of the intents. -/
def close_intent (command : SettleFeedback) (transport_ref : TransportRef) :
    SetCall ClosureIntent := do
  let intents := (← read .intents TaskSetFiles.intents).getD []
  let intent ← ofExcept (the_intent command.intent_id intents)
  ofExcept (refuseIf (intent.task_set_revision ≠ command.task_set_revision
      ∨ intent.ordered_terminal_evidence_digest ≠ command.ordered_terminal_evidence_digest)
    ⟨"task-set closure feedback settlement authority mismatch"⟩)
  match intent.status with
  | .feedback_closed existing _ => do
    ofExcept (refuseIf (existing ≠ transport_ref)
      ⟨"task-set closure feedback settlement conflicts with persisted transport"⟩)
    return intent
  | .stale _ => raise ⟨"task-set closure intent is not pending feedback"⟩
  | .pending_planner_backfill => do
    let closed := intent.closed transport_ref (← now)
    write_intents (intents.map fun item =>
      if item.intent_id = command.intent_id then closed else item)
    return closed

def settle_task_set_closure_feedback (command : SettleFeedback) : SetCall ClosureIntent := do
  let basis ← settlement_basis command
  file_lock (.closure_settlement command.task_set_revision)
    (file_lock .task_set (settle_task_set library command basis))
  file_lock .closure_intents (close_intent command basis.transport_ref)

/-! ## Runs -/

inductive TaskSetCall where
  | create (command : CreateTaskSet)
  | evaluate (expected_revision : Option ℕ)
  | find_pending
  | revise (expected_revision : ℕ) (children : List ChildRequest)

inductive Answer where
  | task_set (record : TaskSetRecord)
  | evaluation (evaluation : Evaluation)
  | closures (closures : PendingClosures)

def TaskSetCall.call : TaskSetCall → SetCall Answer
  | .create command => do return .task_set (← create_task_set_authority command)
  | .evaluate expected_revision => do
    return .evaluation (← evaluate_task_set_closure library expected_revision)
  | .find_pending => do return .closures (← find_pending_task_set_closures)
  | .revise expected_revision children => do
    return .task_set (← revise_task_set_authority expected_revision children)

/-- What happens to a task set: a call, a call whose process stops after some of its steps, and
whatever else the project does meanwhile. -/
inductive Event where
  | called (call : TaskSetCall)
  | stopped (call : TaskSetCall) (steps : ℕ)
  | task_created (plan_slug : Segment) (command : CreateCommand)
  | task_changed (task_id : Segment) (command : TaskCommand)
  | project_changed (terminal : TerminalFiles) (plan_revision : Except ValueError Digest)
      (transport : TransportCheck)
  | elapsed (time : ℕ)

variable (plans : PlanLibrary)

def create_task (plan_slug : Segment) (command : CreateCommand) (tasks : Tasks) : Tasks :=
  match tasks command.task_id with
  | some _ => tasks
  | none => Function.update tasks command.task_id
      (some { plan_slug := plan_slug, member := created_member command })

def Event.step (event : Event) (w : TaskSetFiles) : TaskSetFiles :=
  match event with
  | .called call => ((call.call library).run w).2
  | .stopped call steps => stopAfter steps (call.call library) w
  | .task_created plan_slug command => { w with tasks := create_task plan_slug command w.tasks }
  | .task_changed task_id command =>
    { w with tasks := (plan_task task_id (command.apply plans) w.tasks).toOption.getD w.tasks }
  | .project_changed terminal plan_revision transport =>
    { w with
      terminal := terminal
      plan_revision := plan_revision
      transport := transport }
  | .elapsed time => { w with clock := w.clock + time }

def run_events (events : List Event) (w : TaskSetFiles) : TaskSetFiles :=
  events.foldl (fun w event => event.step library plans w) w

/-- No call has been made on the task set. -/
structure Untouched (w : TaskSetFiles) : Prop where
  task_set : w.task_set = none
  closure : w.closure = none
  archives : ∀ revision, w.archives revision = none
  intents : w.intents = none

end ClaudeCodeBridge.Model.TaskSet
