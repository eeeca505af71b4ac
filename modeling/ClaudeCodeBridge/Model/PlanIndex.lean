import ClaudeCodeBridge.Model.PlanTasks

/-!
# The index of a plan's tasks

`lib/cli/services/plan_tasks.py` once more: the commands of several processes on the tasks
of one plan.  A step is a read of the index, its replacement, the making of a task's
directory, or the taking or giving back of a task's lock.  An update reads the index
again under the lock of its task; `_task_create` takes no lock.

What a command returns is noted in `returned`, which nothing reads back; a command that
raises or answers without writing leaves no note.
-/

set_option autoImplicit false

namespace ClaudeCodeBridge.Model.PlanTask

open Program

abbrev ProcessId := ℕ

/-- `_find_task` in the plan's index. -/
def find_task (index : List TaskRecord) (task_id : Segment) :
    Except ValueError (Option TaskRecord) :=
  match index.filter fun record => record.task_id = task_id with
  | [] => .ok none
  | [record] => .ok (some record)
  | _ => .error ⟨"plan task id is ambiguous across plans"⟩

def require_task (index : List TaskRecord) (task_id : Segment) : Except ValueError TaskRecord := do
  let task ← find_task index task_id
  valueOr task ⟨"plan task not found"⟩

/-- The tasks that `_replace_record` writes. -/
def replace_record (index : List TaskRecord) (record : TaskRecord) : List TaskRecord :=
  index.map fun item => if item.task_id = record.task_id then record.bumped else item

/-- Where the command of a process is; with the index that it has read, where it goes on
from that. -/
inductive CommandPoint where
  | idle
  /-- `_task_create` before `_find_task`. -/
  | finding (command : CreateCommand) (index : List TaskRecord)
  /-- Before the directory is made. -/
  | making (command : CreateCommand) (index : List TaskRecord)
  /-- Before `_write_index`. -/
  | creating (command : CreateCommand) (index : List TaskRecord)
  | locking (task_id : Segment) (command : UpdateCommand)
  /-- Under the lock, before the index is read again. -/
  | rereading (task_id : Segment) (command : UpdateCommand)
  /-- Before `_replace_record`. -/
  | replacing (task_id : Segment) (index : List TaskRecord) (record : TaskRecord)
  /-- Before the lock is given back, with the record that was written. -/
  | releasing (task_id : Segment) (written : Option TaskRecord)

/-- What a command has returned after it has written. -/
inductive Returned where
  | created (record : TaskRecord)
  | updated (record : TaskRecord)

def Returned.record : Returned → TaskRecord
  | created record => record
  | updated record => record

structure PlanIndex where
  tasks : List TaskRecord
  /-- The directories of tasks. -/
  task_roots : List Segment
  locks : Segment → Option ProcessId
  process : ProcessId → CommandPoint
  returned : List Returned

namespace PlanIndex

def empty : PlanIndex :=
  { tasks := []
    task_roots := []
    locks := fun _ => none
    process := fun _ => .idle
    returned := [] }

def goto (s : PlanIndex) (p : ProcessId) (point : CommandPoint) : PlanIndex :=
  { s with process := Function.update s.process p point }

variable (library : PlanLibrary)

/-- `_task_create` as far as `_load_index`. -/
def start_create (s : PlanIndex) (p : ProcessId) (command : CreateCommand) : PlanIndex :=
  s.goto p (.finding command s.tasks)

/-- An update as far as its first `_require_task`. -/
def start_update (s : PlanIndex) (p : ProcessId) (task_id : Segment) (command : UpdateCommand) :
    PlanIndex :=
  match require_task s.tasks task_id with
  | .error _ => s
  | .ok _ => s.goto p (.locking task_id command)

/-- The next step of a process's command. -/
def turn (s : PlanIndex) (p : ProcessId) : PlanIndex :=
  match s.process p with
  | .idle => s
  | .finding command index =>
    match find_task s.tasks command.task_id with
    | .ok none => s.goto p (.making command index)
    | _ => s.goto p .idle
  | .making command index =>
    if command.task_id ∈ s.task_roots then s.goto p .idle
    else { s with task_roots := s.task_roots ++ [command.task_id] }.goto p (.creating command index)
  | .creating command index =>
    let record := created_record command
    { s with tasks := index ++ [record], returned := s.returned ++ [Returned.created record] }.goto p .idle
  | .locking task_id command =>
    match s.locks task_id with
    | some _ => s
    | none =>
      { s with locks := Function.update s.locks task_id (some p) }.goto p
        (.rereading task_id command)
  | .rereading task_id command =>
    match require_task s.tasks task_id with
    | .error _ => s.goto p (.releasing task_id none)
    | .ok record =>
      match command.apply library record with
      | .ok (.replaced record) => s.goto p (.replacing task_id s.tasks record)
      | _ => s.goto p (.releasing task_id none)
  | .replacing task_id index record =>
    { s with tasks := replace_record index record }.goto p (.releasing task_id (some record.bumped))
  | .releasing task_id written =>
    let s := { s with locks := Function.update s.locks task_id none }
    match written with
    | none => s.goto p .idle
    | some record => { s with returned := s.returned ++ [Returned.updated record] }.goto p .idle

inductive PlanStep where
  | create (p : ProcessId) (command : CreateCommand)
  | update (p : ProcessId) (task_id : Segment) (command : UpdateCommand)
  | turn (p : ProcessId)

def step (s : PlanIndex) : PlanStep → PlanIndex
  | .create p command =>
    match s.process p with
    | .idle => s.start_create p command
    | _ => s
  | .update p task_id command =>
    match s.process p with
    | .idle => s.start_update p task_id command
    | _ => s
  | .turn p => s.turn library p

def run (steps : List PlanStep) (s : PlanIndex) : PlanIndex := steps.foldl (step library) s

end PlanIndex

end ClaudeCodeBridge.Model.PlanTask
