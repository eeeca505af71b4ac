import ClaudeCodeBridge.Model.TaskSets
import ClaudeCodeBridge.Program.NamedLocks

/-!
# Processes at work on one task set

Processes evaluate, settle and revise one task set at a time of their own: each makes one
call, and a schedule lists whose turn it is.  At its turn a process makes one access to the
files, or takes or gives back one of the locks.  `task-set.lock`, `closure-intents.lock` and
the lock of a settlement are different locks.

`Watched` is what an observer notes of a schedule: who holds which lock, the record that a
process has first read, and the intents as they were when it last read or wrote them.
-/

set_option autoImplicit false

namespace ClaudeCodeBridge.Model.TaskSet

open Program
open Model.PlanTask

/-- A call of a process on the task set. -/
inductive FeedbackCall where
  | evaluate_current
  | settle (command : SettleFeedback)
  | revise (expected_revision : ℕ) (children : List ChildRequest)

variable {ι : Type} (library : TaskSetLibrary)

def FeedbackCall.call : FeedbackCall → SetCall Unit
  | .evaluate_current => do
    let _ ← evaluate_current_task_set_closures library
    return ()
  | .settle command => do
    let _ ← settle_task_set_closure_feedback library command
    return ()
  | .revise expected_revision children => do
    let _ ← revise_task_set_authority expected_revision children
    return ()

def FeedbackCall.evaluates : FeedbackCall → Bool
  | .evaluate_current => true
  | _ => false

def AccessName.locking : AccessName → Locking LockName
  | .lock name => .takes name
  | .unlock name => .gives name
  | _ => .apart

abbrev FileAccess := AccessName × (TaskSetFiles → TaskSetFiles)

abbrev Processes (ι : Type) := Config ι FileAccess TaskSetFiles ValueError Unit

/-- The processes before their first turn. -/
def processes (files : TaskSetFiles) (calls : ι → FeedbackCall) : Processes ι :=
  { store := files
    lock := none
    thread := fun i => ((calls i).call library).signed }

structure Watched (ι : Type) where
  holder : LockName → Option ι
  before : TaskSetFiles
  looked : ι → Option TaskSetRecord
  /-- The intents before the last access that a process made to them. -/
  seen : ι → Option (List ClosureIntent)

/-- What is noted before the first turn. -/
def unwatched (files : TaskSetFiles) : Watched ι :=
  { holder := fun _ => none
    before := files
    looked := fun _ => none
    seen := fun _ => none }

variable [DecidableEq ι]

def Watched.notes (i : ι) (access : FileAccess) (w : TaskSetFiles) (g : Watched ι) : Watched ι :=
  { holder := holders i access.1.locking g.holder
    before := w
    looked := if access.1 = .task_set then
        Function.update g.looked i ((g.looked i).or w.task_set)
      else g.looked
    seen := if access.1 = .intents then Function.update g.seen i w.intents else g.seen }

/-- The locks let a schedule happen in which each lock is free when it is taken. -/
def interleaving (ι : Type) [DecidableEq ι] : Monitor ι FileAccess TaskSetFiles (Watched ι) where
  permits _ access _ g := free access.1.locking g.holder
  notes i access w _ g := g.notes i access w

def TaskSetState.is_settled : TaskSetState → Bool
  | .closed | .partial_ | .replan_required | .blocked => true
  | _ => false

/-- No required child has work left. -/
def all_terminal (w : TaskSetFiles) (record : TaskSetRecord) : Bool :=
  match required_evidence library w.tasks w.terminal record.plan_slug record.children.val with
  | .ok evidence => !evidence.any ChildEvidence.is_pending
  | .error _ => false

/-- The task set has been settled since a process looked at it, at the revision that the
process saw, and its required children are at their ends. -/
def settled_meanwhile (looked : Option TaskSetRecord) (w : TaskSetFiles) : Bool :=
  match looked, w.task_set with
  | some looked, some record =>
    record.state.is_settled && record.task_set_revision = looked.task_set_revision
      && all_terminal library w record
  | _, _ => false

/-- No evaluation takes the lock of a task set that has been settled since it looked, and no
process writes the intents where another has written them since it read them. -/
def undisturbed (calls : ι → FeedbackCall) : Monitor ι FileAccess TaskSetFiles (Watched ι) where
  permits i access w g :=
    free access.1.locking g.holder
      && !(access.1 = .lock .task_set && (calls i).evaluates
        && settled_meanwhile library (g.looked i) w)
      && decide ((access.2 w).intents = w.intents ∨ g.seen i = w.intents)
  notes i access w _ g := g.notes i access w

/-- An intent as it may be later: only one that is pending changes, and only its status. -/
def ClosureIntent.Becomes (intent later : ClosureIntent) : Prop :=
  later = intent ∨ intent.status = .pending_planner_backfill ∧
    later = { intent with status := later.status }

/-- No intent and no change of a status is lost; an intent keeps its place. -/
def NothingLost (intents later : List ClosureIntent) : Prop :=
  ∀ (n : ℕ) (intent : ClosureIntent), intents[n]? = some intent →
    ∃ intent', later[n]? = some intent' ∧ intent.Becomes intent'

def StaysSettled (w later : TaskSetFiles) : Prop :=
  ∀ record record', w.task_set = some record → later.task_set = some record' →
    record'.task_set_revision = record.task_set_revision → record.state.is_settled = true →
    record'.state ≠ .closure_pending ∧ record'.state ≠ .system_failure

/-- What later files keep of earlier ones. -/
structure Lasts (w later : TaskSetFiles) : Prop where
  settled : StaysSettled w later
  intents : NothingLost (w.intents.getD []) (later.intents.getD [])

end ClaudeCodeBridge.Model.TaskSet
