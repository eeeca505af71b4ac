import ClaudeCodeBridge.Program.Dict
import ClaudeCodeBridge.Model.JobRecords

/-!
# What the dispatcher keeps in memory

`DispatcherState` of `lib/ccbd/services/dispatcher_runtime/state*.py`: a queue of job ids
and an active job for each target, and the target of each known job.  It is lost when the
process stops; `rebuild` recomputes it from the job store and the mailbox order.
-/

set_option autoImplicit false

namespace ClaudeCodeBridge.Model

open Program

def list_agent (jobs : List JobRecord) (agent_name : AgentName) : List JobRecord :=
  jobs.filter fun job => job.agent_name = agent_name

theorem list_agent_append (jobs : List JobRecord) (job : JobRecord) (agent_name : AgentName) :
    list_agent (jobs ++ [job]) agent_name =
      if job.agent_name = agent_name then list_agent jobs agent_name ++ [job]
      else list_agent jobs agent_name := by
  unfold list_agent
  by_cases h : job.agent_name = agent_name
  · simp [h]
  · simp [h]

structure DispatcherState where
  queues : Dict AgentName (List JobId)
  job_index : Dict JobId AgentName
  active_jobs : Dict AgentName JobId
  deriving DecidableEq

namespace DispatcherState

def ensure_queue (s : DispatcherState) (slot : AgentName) : DispatcherState :=
  match s.queues.get slot with
  | some _ => s
  | none => { s with queues := s.queues.set slot [] }

/-- `DispatcherState(agent_names)`. -/
def init (agent_names : List AgentName) : DispatcherState :=
  agent_names.foldl ensure_queue ⟨Dict.empty, Dict.empty, Dict.empty⟩

def slots (s : DispatcherState) : List AgentName := s.queues.items.map Prod.fst

def queued_items_for (s : DispatcherState) (slot : AgentName) : List JobId :=
  (s.queues.get slot).getD []

def enqueue_for (s : DispatcherState) (slot : AgentName) (job_id : JobId) : DispatcherState :=
  { s with queues := s.queues.set slot (s.queued_items_for slot ++ [job_id]) }

def remove_queued_for (s : DispatcherState) (slot : AgentName) (job_id : JobId) : DispatcherState :=
  { s with queues := s.queues.set slot ((s.queued_items_for slot).erase job_id) }

def active_job_for (s : DispatcherState) (slot : AgentName) : Option JobId :=
  s.active_jobs.get slot

def has_outstanding_for (s : DispatcherState) (slot : AgentName) : Bool :=
  (s.active_job_for slot).isSome || !(s.queued_items_for slot).isEmpty

def mark_active_for (s : DispatcherState) (slot : AgentName) (job_id : JobId) : DispatcherState :=
  { s.ensure_queue slot with active_jobs := s.active_jobs.set slot job_id }

/-- `clear_active_for` with a job id. -/
def clear_active_for (s : DispatcherState) (slot : AgentName) (job_id : JobId) : DispatcherState :=
  if s.active_jobs.get slot ≠ some job_id then s
  else { s with active_jobs := s.active_jobs.pop slot }

def active_items (s : DispatcherState) : List (AgentName × JobId) := s.active_jobs.items

def target_for_job (s : DispatcherState) (job_id : JobId) : Option AgentName :=
  s.job_index.get job_id

def remember_job (s : DispatcherState) (job_id : JobId) (slot : AgentName) : DispatcherState :=
  { s.ensure_queue slot with job_index := s.job_index.set job_id slot }

def record (s : DispatcherState) (job : JobRecord) : DispatcherState :=
  s.remember_job job.job_id job.agent_name

@[simp] theorem ensure_queue_active_jobs (s : DispatcherState) (slot : AgentName) :
    (s.ensure_queue slot).active_jobs = s.active_jobs := by
  unfold ensure_queue
  split <;> rfl

@[simp] theorem clear_active_for_target (s : DispatcherState) (slot : AgentName)
    (job_id k : JobId) : (s.clear_active_for slot job_id).target_for_job k =
      s.target_for_job k := by
  unfold clear_active_for
  split <;> rfl

def admission_ordered (pending mailbox_job_ids : List JobId) : List JobId :=
  let ordered := (mailbox_job_ids.filter fun job_id => job_id ∈ pending).eraseDups
  ordered ++ pending.filter fun job_id => job_id ∉ ordered

def job_order (records : List JobRecord) : List JobId :=
  (collapse (fun r => r.job_id) records).map fun r => r.job_id

/-- The jobs whose latest record satisfies `p`, in the order of their first records. -/
def jobs_with (p : JobStatus → Bool) (records : List JobRecord) : List JobId :=
  ((collapse (fun r => r.job_id) records).filter fun r => p r.status).map fun r => r.job_id

def remember_jobs (s : DispatcherState) (slot : AgentName) (job_ids : List JobId) :
    DispatcherState :=
  job_ids.foldl (fun s job_id => s.remember_job job_id slot) s

def enqueue_jobs (s : DispatcherState) (slot : AgentName) (job_ids : List JobId) :
    DispatcherState :=
  job_ids.foldl (fun s job_id => s.enqueue_for slot job_id) s

/-- The last running job of a slot is the active one. -/
def activate_jobs (s : DispatcherState) (slot : AgentName) (job_ids : List JobId) :
    DispatcherState :=
  job_ids.foldl (fun s job_id => { s with active_jobs := s.active_jobs.set slot job_id }) s

/-- One agent's turn in `rebuild`. -/
def rebuild_agent (s : DispatcherState) (records : List JobRecord)
    (mailbox_job_ids : List JobId) (agent_name : AgentName) : DispatcherState :=
  ((s.remember_jobs agent_name (job_order records)).enqueue_jobs agent_name
    (admission_ordered (jobs_with JobStatus.pending records) mailbox_job_ids)).activate_jobs
      agent_name (jobs_with (fun status => status = .running) records)

/-- `DispatcherState(agent_names)` followed by `rebuild`, as at a start of the daemon. -/
def rebuild (list_agent : AgentName → List JobRecord) (agent_names : List AgentName)
    (mailbox_order : AgentName → List JobId) : DispatcherState :=
  agent_names.foldl
    (fun s agent_name =>
      s.rebuild_agent (list_agent agent_name) (mailbox_order agent_name) agent_name)
    (init agent_names)

@[simp] theorem enqueue_jobs_job_index (s : DispatcherState) (slot : AgentName)
    (job_ids : List JobId) : (s.enqueue_jobs slot job_ids).job_index = s.job_index := by
  unfold enqueue_jobs
  induction job_ids generalizing s with
  | nil => rfl
  | cons job_id job_ids ih => exact ih (s.enqueue_for slot job_id)

@[simp] theorem enqueue_jobs_active_jobs (s : DispatcherState) (slot : AgentName)
    (job_ids : List JobId) : (s.enqueue_jobs slot job_ids).active_jobs = s.active_jobs := by
  unfold enqueue_jobs
  induction job_ids generalizing s with
  | nil => rfl
  | cons job_id job_ids ih => exact ih (s.enqueue_for slot job_id)

@[simp] theorem activate_jobs_job_index (s : DispatcherState) (slot : AgentName)
    (job_ids : List JobId) : (s.activate_jobs slot job_ids).job_index = s.job_index := by
  unfold activate_jobs
  induction job_ids generalizing s with
  | nil => rfl
  | cons job_id job_ids ih => exact ih _

@[simp] theorem remember_jobs_active_jobs (s : DispatcherState) (slot : AgentName)
    (job_ids : List JobId) : (s.remember_jobs slot job_ids).active_jobs = s.active_jobs := by
  unfold remember_jobs
  induction job_ids generalizing s with
  | nil => rfl
  | cons job_id job_ids ih =>
    exact (ih (s.remember_job job_id slot)).trans (ensure_queue_active_jobs s slot)

theorem remember_jobs_get (s : DispatcherState) (slot : AgentName) (job_ids : List JobId)
    (job_id : JobId) :
    (s.remember_jobs slot job_ids).job_index.get job_id =
      if job_id ∈ job_ids then some slot else s.job_index.get job_id := by
  unfold remember_jobs
  induction job_ids generalizing s with
  | nil => rfl
  | cons first job_ids ih =>
    rw [List.foldl_cons, ih]
    by_cases hfirst : job_id = first
    · subst hfirst
      simp [remember_job]
    · simp [remember_job, hfirst, Dict.get_set_of_ne _ hfirst]

theorem activate_jobs_get (s : DispatcherState) (slot agent_name : AgentName)
    (job_ids : List JobId) :
    (s.activate_jobs slot job_ids).active_jobs.get agent_name =
      if agent_name = slot then job_ids.getLast? <|> s.active_jobs.get slot
      else s.active_jobs.get agent_name := by
  unfold activate_jobs
  induction job_ids generalizing s with
  | nil =>
    by_cases hslot : agent_name = slot
    · simp [hslot]
    · simp [hslot]
  | cons first job_ids ih =>
    rw [List.foldl_cons, ih]
    by_cases hslot : agent_name = slot
    · simp only [hslot, if_true, Dict.get_set_self]
      cases job_ids with
      | nil => rfl
      | cons second rest => simp [List.getLast?_cons]
    · rw [if_neg hslot, if_neg hslot, Dict.get_set_of_ne _ hslot]

theorem rebuild_agent_job_index (s : DispatcherState) (records : List JobRecord)
    (mailbox_job_ids : List JobId) (agent_name : AgentName) (job_id : JobId) :
    (s.rebuild_agent records mailbox_job_ids agent_name).job_index.get job_id =
      if job_id ∈ job_order records then some agent_name else s.job_index.get job_id := by
  unfold rebuild_agent
  rw [activate_jobs_job_index, enqueue_jobs_job_index, remember_jobs_get]

theorem rebuild_agent_active_jobs (s : DispatcherState) (records : List JobRecord)
    (mailbox_job_ids : List JobId) (agent_name slot : AgentName) :
    (s.rebuild_agent records mailbox_job_ids agent_name).active_jobs.get slot =
      if slot = agent_name then
        (jobs_with (fun status => status = .running) records).getLast?
          <|> s.active_jobs.get agent_name
      else s.active_jobs.get slot := by
  unfold rebuild_agent
  rw [activate_jobs_get, enqueue_jobs_active_jobs, remember_jobs_active_jobs]

theorem rebuild_target_for_job {list_agent : AgentName → List JobRecord}
    {agent_names : List AgentName} {mailbox_order : AgentName → List JobId}
    {job_id : JobId} {agent_name : AgentName}
    (howner : ∀ name, job_id ∈ job_order (list_agent name) ↔ name = agent_name)
    (hagent : agent_name ∈ agent_names) :
    (rebuild list_agent agent_names mailbox_order).target_for_job job_id
      = some agent_name := by
  have hfold : ∀ s : DispatcherState,
      ((agent_names.foldl (fun s name =>
        s.rebuild_agent (list_agent name) (mailbox_order name) name) s).job_index.get job_id)
        = if agent_name ∈ agent_names then some agent_name else s.job_index.get job_id := by
    clear hagent
    induction agent_names with
    | nil => intro s; rfl
    | cons name agent_names ih =>
      intro s
      rw [List.foldl_cons, ih, rebuild_agent_job_index]
      by_cases hname : name = agent_name
      · subst hname
        rw [if_pos ((howner name).mpr rfl), if_pos List.mem_cons_self]
        split <;> rfl
      · rw [if_neg (fun h => hname ((howner name).mp h))]
        simp [List.mem_cons, Ne.symm hname]
  unfold rebuild target_for_job
  rw [hfold, if_pos hagent]

theorem rebuild_active_job_for {list_agent : AgentName → List JobRecord}
    {agent_names : List AgentName} (mailbox_order : AgentName → List JobId)
    {job_id : JobId} {agent_name : AgentName}
    (hrunning : jobs_with (fun status => status = .running) (list_agent agent_name)
      = [job_id])
    (hagent : agent_name ∈ agent_names) :
    (rebuild list_agent agent_names mailbox_order).active_job_for agent_name
      = some job_id := by
  have hfold : ∀ s : DispatcherState,
      ((agent_names.foldl (fun s name =>
        s.rebuild_agent (list_agent name) (mailbox_order name) name) s).active_jobs.get
          agent_name)
        = if agent_name ∈ agent_names then some job_id else s.active_jobs.get agent_name := by
    clear hagent
    induction agent_names with
    | nil => intro s; rfl
    | cons name agent_names ih =>
      intro s
      rw [List.foldl_cons, ih, rebuild_agent_active_jobs]
      by_cases hname : agent_name = name
      · subst hname
        rw [if_pos rfl, if_pos List.mem_cons_self, hrunning]
        split <;> rfl
      · rw [if_neg hname]
        simp [List.mem_cons, hname]
  unfold rebuild active_job_for
  rw [hfold, if_pos hagent]

end DispatcherState

end ClaudeCodeBridge.Model
