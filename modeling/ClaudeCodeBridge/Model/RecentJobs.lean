import ClaudeCodeBridge.Model.JobRecords
import Mathlib.Data.List.DropRight
import Mathlib.Data.List.Sort

/-!
# Recent jobs of a project

The jobs that a project's view shows (`JobStore.list_project_view_recent_jobs`): those that were
updated last, among what the last records of each agent say.  How many records are read of an
agent grows while too few jobs have been found.
-/

set_option autoImplicit false

namespace ClaudeCodeBridge.Model.RecentJobs

open Program

abbrev JobHistories := AgentName → List JobRecord

structure ProjectViewJobSummary where
  job_id : JobId
  agent_name : AgentName
  provider : ProviderName
  request : MessageEnvelope
  status : JobStatus
  terminal_decision : Option CompletionDecision
  created_at : Timestamp
  updated_at : Timestamp
  provider_options : ProviderOptions
  deriving DecidableEq

def project_view_job_summary_from_job (record : JobRecord) : ProjectViewJobSummary :=
  { job_id := record.job_id, agent_name := record.agent_name, provider := record.provider
    request := record.request, status := record.status
    terminal_decision := record.terminal_decision, created_at := record.created_at
    updated_at := record.updated_at, provider_options := record.provider_options }

def PROJECT_VIEW_RECENT_JOB_STATUS_VALUES : List JobStatus :=
  [.completed, .cancelled, .failed, .incomplete]

/-- The statuses that are asked for, or the terminal ones. -/
def status_values (statuses : List JobStatus) : List JobStatus :=
  if statuses = [] then PROJECT_VIEW_RECENT_JOB_STATUS_VALUES else statuses

variable (histories : JobHistories)

def list_agent_tail (limit : ℕ) (agent_name : AgentName) : List JobRecord :=
  (histories agent_name).rtake limit

def agent_recent_jobs (statuses : List JobStatus) (per_agent_limit : ℕ)
    (agent_name : AgentName) : List ProjectViewJobSummary :=
  let latest_by_job :=
    collapse JobRecord.job_id (list_agent_tail histories per_agent_limit agent_name)
  (latest_by_job.filter fun record => record.status ∈ statuses).map
    project_view_job_summary_from_job

/-- The later update comes first; jobs updated at once stay in their order. -/
def sort_by_update (jobs : List ProjectViewJobSummary) : List ProjectViewJobSummary :=
  jobs.insertionSort fun a b => b.updated_at ≤ a.updated_at

def list_project_view_recent_jobs_python (agent_names : List AgentName)
    (statuses : List JobStatus) (result_limit per_agent_limit : ℕ) :
    List ProjectViewJobSummary :=
  let jobs := agent_names.flatMap (agent_recent_jobs histories statuses per_agent_limit)
  (sort_by_update jobs).take result_limit

/-- The limit after one that has found too little. -/
def next_limit (per_agent_limit current_limit : ℕ) : ℕ :=
  min per_agent_limit (max (current_limit + 1) (current_limit * 2))

/-- The loop; `none` after that many turns. -/
def deepen (query : ℕ → List ProjectViewJobSummary) (result_limit per_agent_limit : ℕ) :
    ℕ → ℕ → Option (List ProjectViewJobSummary)
  | 0, _ => none
  | turns + 1, current_limit =>
    let jobs := query current_limit
    if result_limit ≤ jobs.length ∨ per_agent_limit ≤ current_limit then some jobs
    else deepen query result_limit per_agent_limit turns (next_limit per_agent_limit current_limit)

def first_limit (per_agent_limit : ℕ) (per_agent_initial_limit : Option ℕ) : ℕ :=
  let initial_limit := match per_agent_initial_limit with
    | none => per_agent_limit
    | some limit => min limit per_agent_limit
  if initial_limit = 0 then min per_agent_limit 1 else initial_limit

/-- `list_project_view_recent_jobs`, in so many turns of its loop. -/
def list_project_view_recent_jobs (agent_names : List AgentName) (per_agent_limit result_limit : ℤ)
    (statuses : List JobStatus) (per_agent_initial_limit : Option ℤ) (turns : ℕ) :
    Except String (Option (List ProjectViewJobSummary)) :=
  if per_agent_limit < 0 then .error "per_agent_limit cannot be negative"
  else if result_limit < 0 then .error "result_limit cannot be negative"
  else if per_agent_initial_limit.any fun limit => limit < 0 then
    .error "per_agent_initial_limit cannot be negative"
  else if agent_names = [] ∨ per_agent_limit = 0 ∨ result_limit = 0 then .ok (some [])
  else
    .ok (deepen
      (list_project_view_recent_jobs_python histories agent_names (status_values statuses)
        result_limit.toNat)
      result_limit.toNat per_agent_limit.toNat turns
      (first_limit per_agent_limit.toNat (per_agent_initial_limit.map Int.toNat)))

end ClaudeCodeBridge.Model.RecentJobs
