import ClaudeCodeBridge.Model.PlanTasks

/-!
# Bindings of plan tasks

The rest of `lib/cli/services/plan_tasks.py`: a task set names its tasks in their records,
the parent that was decomposed and the children, and writes the settlement of a closed set
into the parent.
-/

set_option autoImplicit false

namespace ClaudeCodeBridge.Model.PlanTask

open Program

/-- A `ccb.plan.task_set_binding.v1` of role `child`. -/
structure ChildBinding where
  task_set_id : Segment
  task_set_revision : ℕ
  bound_task_revision : ℕ
  required : Bool
  order : ℕ
  deriving DecidableEq

/-- A `ccb.plan.task_set_binding.v1` of role `parent`. -/
structure ParentBinding where
  task_set_id : Segment
  task_set_revision : ℕ
  bound_task_revision : ℕ
  deriving DecidableEq

/-- A `ccb.plan.task_set_parent_settlement.v1`. -/
structure ParentSettlement where
  task_set_id : Segment
  task_set_revision : ℕ
  aggregate_result : RoundResult
  closure_digest : Digest
  planner_feedback_digest : Digest
  deriving DecidableEq

/-- The record of a task with what task sets write into it: `task_set`, `task_set_parent` and
`task_set_closure`. -/
structure MemberRecord where
  record : TaskRecord
  task_set : Option ChildBinding
  task_set_parent : Option ParentBinding
  task_set_closure : Option ParentSettlement

def created_member (command : CreateCommand) : MemberRecord :=
  { record := created_record command
    task_set := none
    task_set_parent := none
    task_set_closure := none }

/-- What a command makes of the record, as `Outcome`. -/
inductive MemberOutcome where
  | unchanged
  | replaced (member : MemberRecord)

def MemberRecord.bumped (member : MemberRecord) : MemberRecord :=
  { member with record := member.record.bumped }

/-- A `task-bind-task-set` of role `child`. -/
structure BindChildCommand where
  task_set_id : Segment
  task_set_revision : ℕ
  required : Bool
  order : ℕ
  expected_task_revision : Option ℤ
  now : ℕ
  deriving DecidableEq

/-- A `task-bind-task-set` of role `parent`. -/
structure BindParentCommand where
  task_set_id : Segment
  task_set_revision : ℕ
  expected_task_revision : Option ℤ
  now : ℕ
  deriving DecidableEq

/-- What `_task_bind_task_set` makes of a binding that exists: whether the new one is the same. -/
def check_existing_binding {β : Type} [DecidableEq β] (id : β → Segment) (revision : β → ℕ)
    (existing : Option β) (binding : β) : Except ValueError Bool :=
  match existing with
  | none => .ok false
  | some existing => do
    refuseIf (id existing ≠ id binding) ⟨"plan task is already bound to a different task set"⟩
    refuseIf (revision binding < revision existing) ⟨"plan task-set binding revision is stale"⟩
    if revision existing = revision binding then
      refuseIf (existing ≠ binding) ⟨"plan task-set binding conflicts with existing authority"⟩
      return true
    else return false

/-- `_positive_record_int` of a task-set revision. -/
def positive_revision (revision : ℕ) : Except ValueError Unit :=
  refuseIf (revision = 0) ⟨"plan task task_set_revision must be a positive integer"⟩

/-- `_task_bind_task_set`, for a child. -/
def task_bind_child (command : BindChildCommand) (member : MemberRecord) :
    Except ValueError MemberOutcome := do
  positive_revision command.task_set_revision
  assert_expected_task_revision command.expected_task_revision member.record
  let binding : ChildBinding := {
    task_set_id := command.task_set_id
    task_set_revision := command.task_set_revision
    bound_task_revision := member.record.task_revision
    required := command.required
    order := command.order }
  let same ← check_existing_binding ChildBinding.task_set_id ChildBinding.task_set_revision
    member.task_set binding
  if same then return .unchanged
  else
    return .replaced { member with
      task_set := some binding
      record := { member.record with updated_at := command.now } }

/-- The decimal digits of a number. -/
def decimal (n : ℕ) : Text := asciiText (toString n)

/-- `_task_bind_task_set`, for a parent. -/
def task_bind_parent (command : BindParentCommand) (member : MemberRecord) :
    Except ValueError MemberOutcome := do
  positive_revision command.task_set_revision
  assert_expected_task_revision command.expected_task_revision member.record
  let binding : ParentBinding := {
    task_set_id := command.task_set_id
    task_set_revision := command.task_set_revision
    bound_task_revision := member.record.task_revision }
  let same ← check_existing_binding ParentBinding.task_set_id ParentBinding.task_set_revision
    member.task_set_parent binding
  if same then return .unchanged
  else
    refuseIf (member.record.status ∉ [TaskStatus.draft, .decomposed, .ready_for_orchestration])
      ⟨s!"plan task-set parent cannot bind from status {member.record.status.text}"⟩
    return .replaced { member with
      task_set_parent := some binding
      record := { member.record with
        status := .decomposed
        owner := .planner
        next_owner := .planner
        activation_reason := asciiText "task_set_decomposed:" ++ command.task_set_id.val ++
          asciiText ":r" ++ decimal command.task_set_revision
        updated_at := command.now } }

/-- A `task-unbind-task-set`. -/
structure UnbindCommand where
  task_set_id : Segment
  task_set_revision : ℕ
  now : ℕ
  deriving DecidableEq

def task_unbind_task_set (command : UnbindCommand) (member : MemberRecord) :
    Except ValueError MemberOutcome := do
  positive_revision command.task_set_revision
  match member.task_set with
  | none => return .unchanged
  | some binding =>
    refuseIf (binding.task_set_id ≠ command.task_set_id
        ∨ binding.task_set_revision ≠ command.task_set_revision)
      ⟨"plan task-set unbind authority does not match current binding"⟩
    return .replaced { member with
      task_set := none
      record := { member.record with updated_at := command.now } }

structure SettleParentCommand where
  task_set_id : Segment
  task_set_revision : ℕ
  aggregate_result : RoundResult
  closure_digest : Digest
  planner_feedback_digest : Digest
  now : ℕ
  deriving DecidableEq

def settle_task_set_parent (command : SettleParentCommand) (member : MemberRecord) :
    Except ValueError MemberOutcome := do
  refuseIf (¬ member.task_set_parent.any fun binding =>
      binding.task_set_id = command.task_set_id ∧
        binding.task_set_revision = command.task_set_revision)
    ⟨"task-set parent binding authority mismatch"⟩
  let settlement : ParentSettlement := {
    task_set_id := command.task_set_id
    task_set_revision := command.task_set_revision
    aggregate_result := command.aggregate_result
    closure_digest := command.closure_digest
    planner_feedback_digest := command.planner_feedback_digest }
  match member.task_set_closure with
  | some existing =>
    refuseIf (existing ≠ settlement) ⟨"task-set parent settlement authority conflict"⟩
    return .unchanged
  | none =>
    refuseIf (member.record.status ≠ .decomposed) ⟨"task-set parent is not decomposed"⟩
    let status := command.aggregate_result.target_status
    return .replaced { member with
      task_set_closure := some settlement
      record := { member.record with
        status := status
        owner := owner_for_status status
        next_owner := default_next_owner_for_status status
        activation_reason := asciiText "task_set_closed:" ++ command.task_set_id.val ++
          asciiText ":r" ++ decimal command.task_set_revision
        updated_at := command.now } }

inductive TaskCommand where
  | update (command : UpdateCommand)
  | bind_child (command : BindChildCommand)
  | bind_parent (command : BindParentCommand)
  | unbind_task_set (command : UnbindCommand)
  | settle_parent (command : SettleParentCommand)

variable (library : PlanLibrary)

/-- What a command does under the task's lock, up to `_replace_record`. -/
def TaskCommand.apply (command : TaskCommand) (member : MemberRecord) :
    Except ValueError MemberOutcome :=
  match command with
  | .update command => do
    match ← command.apply library member.record with
    | .unchanged => return .unchanged
    | .replaced record => return .replaced { member with record := record }
  | .bind_child command => task_bind_child command member
  | .bind_parent command => task_bind_parent command member
  | .unbind_task_set command => task_unbind_task_set command member
  | .settle_parent command => settle_task_set_parent command member

def TaskCommand.step (command : TaskCommand) (member : MemberRecord) :
    Except ValueError MemberRecord := do
  match ← command.apply library member with
  | .unchanged => return member
  | .replaced member => return member.bumped

/-- Commands one after another, each of which succeeds; one that is refused leaves the record. -/
def run_member (commands : List TaskCommand) (member : MemberRecord) :
    Except ValueError MemberRecord :=
  commands.foldlM (fun member command => command.step library member) member

end ClaudeCodeBridge.Model.PlanTask
