import ClaudeCodeBridge.Model.RelayCrypto

/-!
# Drains of a reload

A reload that takes an agent away, or replaces it, has to wait for the agent's work.  While the
agent is busy the reload is blocked and leaves a record on the drain queue; while the record is
not terminal, the agent gets no new work.  The daemon's heartbeat tries the removals again once
the agents are idle, and a reload that has come through retires the records of its agents.

The queue is a file that each operation loads, changes and saves; a file that is not there loads
as the empty queue.  Times are seconds.  What the daemon finds elsewhere (its configuration, the
work of an agent, the outcome of the namespace patch and of the runtime mount) is in the answers
of a step.
-/

set_option autoImplicit false

namespace ClaudeCodeBridge.Model.ReloadDrain

open Program
open Model.Relay (strip)

structure DrainBounds where
  max_pending : ℕ
  timeout_s : ℚ
  max_age_s : ℚ
  max_pending_pos : 0 < max_pending
  timeout_pos : 0 < timeout_s
  max_age_pos : 0 < max_age_s

inductive IntentKind where
  | unload
  | replace
  deriving DecidableEq

inductive DrainPhase where
  | pending_unload
  | pending_replace
  | draining
  | retiring
  | retired
  | rejected
  deriving DecidableEq

inductive DrainStatus where
  | pending
  | waiting
  | idle_ready
  | timed_out
  | rejected_queue_full
  | retired
  deriving DecidableEq

structure DrainIntent where
  intent_id : Text
  intent_kind : IntentKind
  agent_name : Text
  created_at_s : ℚ
  reason : Option Text
  old_config_signature : Option Text
  new_config_signature : Option Text
  intent_id_set : strip intent_id ≠ []
  agent_name_set : strip agent_name ≠ []
  deriving DecidableEq

def DrainIntent.initial_phase (intent : DrainIntent) : DrainPhase :=
  match intent.intent_kind with
  | .unload => .pending_unload
  | .replace => .pending_replace

structure DrainRecord where
  intent : DrainIntent
  phase : DrainPhase
  status : DrainStatus
  created_at_s : ℚ
  updated_at_s : ℚ
  deadline_at_s : ℚ
  max_age_deadline_at_s : ℚ
  reason : Option Text
  busy : Option Bool
  transition_count : ℕ
  deriving DecidableEq

def DrainStatus.terminal : DrainStatus → Bool
  | .timed_out => true
  | .rejected_queue_full => true
  | .retired => true
  | _ => false

def DrainRecord.terminal (record : DrainRecord) : Bool := record.status.terminal

def DrainRecord.with_transition (record : DrainRecord) (phase : DrainPhase) (status : DrainStatus)
    (now_s : ℚ) (reason : Text) (busy : Option Bool) : DrainRecord :=
  { record with
    phase := phase
    status := status
    updated_at_s := now_s
    reason := some reason
    busy := busy
    transition_count := record.transition_count + 1 }

def DrainRecord.pending (intent : DrainIntent) (bounds : DrainBounds) (now_s : ℚ) : DrainRecord :=
  { intent := intent
    phase := intent.initial_phase
    status := .pending
    created_at_s := now_s
    updated_at_s := now_s
    deadline_at_s := now_s + bounds.timeout_s
    max_age_deadline_at_s := intent.created_at_s + bounds.max_age_s
    reason := intent.reason
    busy := none
    transition_count := 0 }

def DrainRecord.rejected_queue_full (intent : DrainIntent) (bounds : DrainBounds) (now_s : ℚ) :
    DrainRecord :=
  { intent := intent
    phase := .rejected
    status := .rejected_queue_full
    created_at_s := now_s
    updated_at_s := now_s
    deadline_at_s := now_s + bounds.timeout_s
    max_age_deadline_at_s := intent.created_at_s + bounds.max_age_s
    reason := some (asciiText "pending drain queue is full")
    busy := none
    transition_count := 0 }

structure DrainQueue where
  bounds : DrainBounds
  records : List DrainRecord

def DrainQueue.empty (bounds : DrainBounds) : DrainQueue := { bounds := bounds, records := [] }

def DrainQueue.pending_count (queue : DrainQueue) : ℕ :=
  (queue.records.filter fun record => !record.terminal).length

structure DrainQueueResult where
  queue : DrainQueue
  record : DrainRecord
  accepted : Bool

def DrainQueue.enqueue (queue : DrainQueue) (intent : DrainIntent) (now_s : ℚ) : DrainQueueResult :=
  if intent.created_at_s + queue.bounds.max_age_s < now_s then
    { queue := queue
      record := (DrainRecord.pending intent queue.bounds now_s).with_transition .draining .timed_out
        now_s (asciiText "intent age exceeds max_age_s") none
      accepted := false }
  else if queue.bounds.max_pending ≤ queue.pending_count then
    { queue := queue
      record := DrainRecord.rejected_queue_full intent queue.bounds now_s
      accepted := false }
  else
    { queue :=
        { queue with records := queue.records ++ [DrainRecord.pending intent queue.bounds now_s] }
      record := DrainRecord.pending intent queue.bounds now_s
      accepted := true }

/-- `replace_record`: every record of that intent id is the updated one. -/
def DrainQueue.replace_record (queue : DrainQueue) (updated : DrainRecord) : DrainQueue :=
  { queue with
    records := queue.records.map fun record =>
      if record.intent.intent_id = updated.intent.intent_id then updated else record }

def DrainQueue.active_records_for (queue : DrainQueue) (agent_name : Text) : List DrainRecord :=
  queue.records.filter fun record => record.intent.agent_name = agent_name && !record.terminal

def DrainQueue.blocks_new_work_for (queue : DrainQueue) (agent_name : Text) : Bool :=
  !(queue.active_records_for agent_name).isEmpty

def plan_drain_transition (record : DrainRecord) (now_s : ℚ) (is_busy : DrainRecord → Bool) :
    DrainRecord :=
  if record.terminal then record
  else if record.status = .idle_ready then record
  else if record.max_age_deadline_at_s ≤ now_s then
    record.with_transition .draining .timed_out now_s (asciiText "drain max_age_s exceeded") none
  else if record.deadline_at_s ≤ now_s then
    record.with_transition .draining .timed_out now_s (asciiText "drain timeout_s exceeded") none
  else if is_busy record then
    record.with_transition .draining .waiting now_s
      (asciiText "agent is busy; drain remains bounded and pending") (some true)
  else
    record.with_transition .retiring .idle_ready now_s
      (asciiText "agent is idle and ready for retire step") (some false)

def retire_record (record : DrainRecord) (now_s : ℚ) : DrainRecord :=
  if record.status = .retired then record
  else if record.status ≠ .idle_ready then record
  else record.with_transition .retired .retired now_s
    (asciiText "record retired; Phase 4 performs no runtime or tmux mutation") (some false)

inductive ReloadOp where
  | remove_agent
  | replace_agent
  | other
  deriving DecidableEq

/-- An entry of `operations`. -/
structure ReloadOperation where
  op : ReloadOp
  agent : Text
  deriving DecidableEq

/-- An entry of `drain_intents`. -/
structure DrainSuggestion where
  intent_id : Text
  intent_kind : IntentKind
  agent : Text
  deriving DecidableEq

/-- The parts of a reload plan that the drains read; `blocked` and `no_change` are what
`plan_blocker` and the plan class say of it. -/
structure ReloadPlan where
  operations : List ReloadOperation
  drain_intents : List DrainSuggestion
  old_config_signature : Text
  new_config_signature : Text
  blocked : Bool
  no_change : Bool
  deriving DecidableEq

def agents_of (op : ReloadOp) (plan : ReloadPlan) : List Text :=
  (plan.operations.filter fun item => item.op = op).map fun item => strip item.agent

/-- `_remove_agents` of the automatic retry. -/
def remove_agents (plan : ReloadPlan) : List Text :=
  (agents_of .remove_agent plan).filter fun agent => agent ≠ []

/-- `int(float(now_s) * 1000)`. -/
def milliseconds (now_s : ℚ) : ℤ := (now_s * 1000).num.tdiv (now_s * 1000).den

/-- `str(... or '') or None`. -/
def text_or_none (text : Text) : Option Text := if text = [] then none else some text

/-- The intent of a drain: its id is the first that the plan suggests, or made of agent and
time.  A blank agent name is a `ValueError`. -/
def intent_from_plan (kind : IntentKind) (label : Text) (plan : Option ReloadPlan)
    (agent_name : Text) (now_s : ℚ) (reason : Text) : Option DrainIntent :=
  let suggested := (plan.map ReloadPlan.drain_intents).getD []
  let found := suggested.find? fun item => item.intent_kind = kind && item.agent = agent_name
  let planned := strip ((found.map DrainSuggestion.intent_id).getD [])
  let intent_id :=
    if planned = [] then
      label ++ agent_name ++ asciiText "_" ++ asciiText (toString (milliseconds now_s))
    else planned
  if hset : strip intent_id ≠ [] ∧ strip agent_name ≠ [] then
    some
      { intent_id := intent_id
        intent_kind := kind
        agent_name := agent_name
        created_at_s := now_s
        reason := some reason
        old_config_signature := plan.bind fun plan => text_or_none plan.old_config_signature
        new_config_signature := plan.bind fun plan => text_or_none plan.new_config_signature
        intent_id_set := hset.1
        agent_name_set := hset.2 }
  else none

def unload_intent_from_plan (plan : Option ReloadPlan) (agent_name : Text) (now_s : ℚ)
    (reason : Text) : Option DrainIntent :=
  intent_from_plan .unload (asciiText "drain_unload_") plan agent_name now_s reason

def replace_intent_from_plan (plan : Option ReloadPlan) (agent_name : Text) (now_s : ℚ)
    (reason : Text) : Option DrainIntent :=
  intent_from_plan .replace (asciiText "drain_replace_") plan agent_name now_s reason

/-- A reload is blocked on an agent: the agent's active record is looked at again, or the intent
is enqueued.  An intent that raises leaves the queue as it is. -/
def record_drain (intent : Option DrainIntent) (agent_name : Text) (now_s : ℚ)
    (queue : DrainQueue) : DrainQueue :=
  match (queue.active_records_for agent_name).getLast? with
  | some existing =>
    queue.replace_record (plan_drain_transition existing now_s fun _ => true)
  | none =>
    match intent with
    | none => queue
    | some intent =>
      let result := queue.enqueue intent now_s
      if result.accepted then
        result.queue.replace_record (plan_drain_transition result.record now_s fun _ => true)
      else queue

def record_unload_drain (plan : Option ReloadPlan) (agent_name : Text) (reason : Text)
    (now_s : ℚ) (queue : DrainQueue) : DrainQueue :=
  record_drain (unload_intent_from_plan plan agent_name now_s reason) agent_name now_s queue

def record_replace_drain (plan : ReloadPlan) (agent_name : Text) (reason : Text) (now_s : ℚ)
    (queue : DrainQueue) : DrainQueue :=
  record_drain (replace_intent_from_plan (some plan) agent_name now_s reason) agent_name now_s queue

/-- A record is brought to its end. -/
def retire_active (now_s : ℚ) (queue : DrainQueue) (record : DrainRecord) : DrainQueue :=
  let ready := plan_drain_transition record now_s fun _ => false
  let retired := retire_record ready now_s
  if retired = record then queue else queue.replace_record retired

def retire_unload_drain_records (agent_names : List Text) (now_s : ℚ) (queue : DrainQueue) :
    DrainQueue :=
  agent_names.foldl
    (fun queue agent_name =>
      (queue.active_records_for agent_name).foldl (retire_active now_s) queue) queue

def retire_replace_drain_records (agent_names : List Text) (now_s : ℚ) (queue : DrainQueue) :
    DrainQueue :=
  agent_names.foldl
    (fun queue agent_name =>
      ((queue.active_records_for agent_name).filter fun record =>
        record.intent.intent_kind = .replace).foldl (retire_active now_s) queue) queue

structure AgentWork where
  has_outstanding_work : Text → Bool
  runtime_busy : Text → Bool

structure NamespacePatch where
  removed_agents : List Text
  replaced_agents : List Text
  deriving DecidableEq

/-- What a reload finds: the plan, the work of the agents when it looks for what blocks it and
again when it unloads, the patch whose runtime mount it runs, if it comes that far, and whether
the mount succeeds. -/
structure ReloadAnswers where
  plan : ReloadPlan
  work : AgentWork
  patch : Option NamespacePatch
  work_at_unload : AgentWork
  mounts : Bool
  now_s : ℚ

/-- `sorted({...})`. -/
def sorted_names (names : List Text) : List Text := names.dedup.insertionSort (· ≤ ·)

def first_blocked (outstanding busy : Text) (work : AgentWork) (agents : List Text) :
    Option (Text × Text) :=
  agents.findSome? fun agent_name =>
    if work.has_outstanding_work agent_name then some (agent_name, outstanding ++ agent_name)
    else if work.runtime_busy agent_name then some (agent_name, busy ++ agent_name)
    else none

def unload_blocker (work : AgentWork) (agents : List Text) : Option (Text × Text) :=
  first_blocked (asciiText "cannot unload agent with outstanding work: ")
    (asciiText "cannot unload busy agent: ") work agents

/-- The agents that `pre_namespace_replace_blocker` looks at. -/
def replace_blocker (work : AgentWork) (agents : List Text) : Option (Text × Text) :=
  first_blocked (asciiText "cannot replace agent with outstanding work: ")
    (asciiText "cannot replace busy agent: ") work agents

/-- What a reload does with the drain queue. -/
inductive DrainAction where
  | keep
  | unload_blocked (plan : Option ReloadPlan) (agent_name reason : Text)
  | replace_blocked (plan : ReloadPlan) (agent_name reason : Text)
  | unloaded (agent_names : List Text)
  | replaced (agent_names : List Text)
  deriving DecidableEq

/-- `run_runtime_mount`: `run_removed_agent_unloads`, `run_replaced_agent_runtime_updates`, or a
mount that has no drains. -/
def runtime_mount_action (answers : ReloadAnswers) (patch : NamespacePatch) : DrainAction :=
  if patch.removed_agents ≠ [] then
    match unload_blocker answers.work_at_unload (sorted_names patch.removed_agents) with
    | some (agent_name, reason) => .unload_blocked none agent_name reason
    | none => if answers.mounts then .unloaded (sorted_names patch.removed_agents) else .keep
  else if patch.replaced_agents ≠ [] then
    if answers.mounts then .replaced (sorted_names patch.replaced_agents) else .keep
  else .keep

/-- `run_additive_reload_apply`. -/
def reload_action (answers : ReloadAnswers) : DrainAction :=
  if answers.plan.blocked then .keep
  else
    let removed := sorted_names (agents_of .remove_agent answers.plan)
    match unload_blocker answers.work removed with
    | some (agent_name, reason) => .unload_blocked (some answers.plan) agent_name reason
    | none =>
      match replace_blocker answers.work (sorted_names (agents_of .replace_agent answers.plan)) with
      | some (agent_name, reason) => .replace_blocked answers.plan agent_name reason
      | none =>
        if answers.plan.no_change then .keep
        else
          match answers.patch with
          | none => .keep
          | some patch => runtime_mount_action answers patch

def DrainAction.apply (action : DrainAction) (now_s : ℚ) (queue : DrainQueue) : DrainQueue :=
  match action with
  | .keep => queue
  | .unload_blocked plan agent_name reason =>
    record_unload_drain plan agent_name reason now_s queue
  | .replace_blocked plan agent_name reason =>
    record_replace_drain plan agent_name reason now_s queue
  | .unloaded agent_names => retire_unload_drain_records agent_names now_s queue
  | .replaced agent_names => retire_replace_drain_records agent_names now_s queue

def run_additive_reload_apply (answers : ReloadAnswers) (queue : DrainQueue) : DrainQueue :=
  (reload_action answers).apply answers.now_s queue

/-- What a tick finds: the work of the agents, the plan for the configuration on file, if that
can be loaded, and what the reload finds that it runs. -/
structure RetryAnswers where
  enabled : Bool
  work : AgentWork
  plan : Option ReloadPlan
  reload : ReloadAnswers
  now_s : ℚ

def active_unload_records (queue : DrainQueue) : List DrainRecord :=
  queue.records.filter fun record => !record.terminal && record.intent.intent_kind = .unload

def agent_busy (work : AgentWork) (record : DrainRecord) : Bool :=
  work.has_outstanding_work record.intent.agent_name || work.runtime_busy record.intent.agent_name

/-- `_transition_records`: the queue and the records that are ready. -/
def transition_records (work : AgentWork) (now_s : ℚ) (queue : DrainQueue)
    (records : List DrainRecord) : DrainQueue × List DrainRecord :=
  records.foldl
    (fun (queue, ready) record =>
      let updated := plan_drain_transition record now_s (agent_busy work)
      (if updated = record then queue else queue.replace_record updated,
        if updated.status = .idle_ready then ready ++ [updated] else ready))
    (queue, [])

def retire_records (now_s : ℚ) (queue : DrainQueue) (records : List DrainRecord) : DrainQueue :=
  records.foldl (fun queue record => queue.replace_record (retire_record record now_s)) queue

/-- The queue that a tick leaves before it reloads, and whether it reloads. -/
def auto_retry_ready (answers : RetryAnswers) (queue : DrainQueue) : DrainQueue × Bool :=
  let active := active_unload_records queue
  let (queue, ready) := transition_records answers.work answers.now_s queue active
  match answers.plan with
  | none => (queue, false)
  | some plan =>
    let stale_ready := ready.filter fun record => record.intent.agent_name ∉ remove_agents plan
    let retry_records := ready.filter fun record => record.intent.agent_name ∈ remove_agents plan
    (retire_records answers.now_s queue stale_ready, !retry_records.isEmpty)

def tick_reload_drain_auto_retry (answers : RetryAnswers) (queue : DrainQueue) : DrainQueue :=
  if answers.enabled then
    let (queue, retries) := auto_retry_ready answers queue
    if retries then run_additive_reload_apply answers.reload queue else queue
  else queue

/-- A step of the daemon: a reload, or the automatic retry of its heartbeat. -/
inductive Step where
  | reload (answers : ReloadAnswers)
  | auto_retry (answers : RetryAnswers)

def DrainQueue.step (queue : DrainQueue) : Step → DrainQueue
  | .reload answers => run_additive_reload_apply answers queue
  | .auto_retry answers => tick_reload_drain_auto_retry answers queue

def DrainQueue.run (queue : DrainQueue) (steps : List Step) : DrainQueue :=
  steps.foldl DrainQueue.step queue

/-- The times at which a step looks at the clock. -/
def Step.times : Step → List ℚ
  | .reload answers => [answers.now_s]
  | .auto_retry answers => [answers.now_s, answers.reload.now_s]

/-- The clock does not go back. -/
def Chronological (steps : List Step) : Prop := (steps.flatMap Step.times).Pairwise (· ≤ ·)

instance decidableChronological (steps : List Step) : Decidable (Chronological steps) :=
  inferInstanceAs (Decidable (List.Pairwise _ _))

/-- A step keeps the drains within their bounds: what is terminal stays as it is, an agent has at
most one record that is not, no more than `max_pending` are not, and a tick ends every record
that is too old, so that its agent is blocked by a newer one or not at all. -/
structure DrainQueue.Bounded (queue : DrainQueue) (step : Step) : Prop where
  terminal : ∀ (i : ℕ) (record : DrainRecord), queue.records[i]? = some record →
    record.terminal = true → (queue.step step).records[i]? = some record
  one_active : ∀ agent_name, ((queue.step step).active_records_for agent_name).length ≤ 1
  pending : (queue.step step).pending_count ≤ (queue.step step).bounds.max_pending
  ends : ∀ answers, step = .auto_retry answers → answers.enabled = true →
    ∀ (i : ℕ) (record : DrainRecord), (queue.step step).records[i]? = some record →
      record.max_age_deadline_at_s ≤ answers.now_s → record.terminal = true ∧
        ((queue.step step).blocks_new_work_for record.intent.agent_name = true →
          ∃ (j : ℕ) (newer : DrainRecord), i < j ∧ (queue.step step).records[j]? = some newer ∧
            newer.intent.agent_name = record.intent.agent_name ∧ newer.terminal = false)

def DrainAction.intent (action : DrainAction) (now_s : ℚ) : Option (Text × DrainIntent) :=
  match action with
  | .unload_blocked plan agent_name reason =>
    (unload_intent_from_plan plan agent_name now_s reason).map fun intent => (agent_name, intent)
  | .replace_blocked plan agent_name reason =>
    (replace_intent_from_plan (some plan) agent_name now_s reason).map fun intent =>
      (agent_name, intent)
  | _ => none

def DrainAction.Fresh (action : DrainAction) (now_s : ℚ) (queue : DrainQueue) : Prop :=
  ∀ agent_name intent, action.intent now_s = some (agent_name, intent) →
    queue.active_records_for agent_name = [] → queue.pending_count < queue.bounds.max_pending →
      ∀ record ∈ queue.records, record.intent.intent_id ≠ intent.intent_id

/-- The action ends a record that is too old. -/
def DrainAction.Ends (action : DrainAction) (record : DrainRecord) : Prop :=
  match action with
  | .keep => False
  | .unload_blocked _ agent_name _ =>
    record.intent.agent_name = agent_name ∧ record.status ≠ .idle_ready
  | .replace_blocked _ agent_name _ =>
    record.intent.agent_name = agent_name ∧ record.status ≠ .idle_ready
  | .unloaded agent_names => record.intent.agent_name ∈ agent_names
  | .replaced agent_names =>
    record.intent.agent_name ∈ agent_names ∧ record.intent.intent_kind = .replace

/-- A removal that the configuration on file still asks for is ready when the tick comes. -/
def RetryAnswers.Reloads (answers : RetryAnswers) (queue : DrainQueue) : Prop :=
  ∃ plan, answers.plan = some plan ∧ ∃ record ∈ queue.records, record.terminal = false ∧
    record.intent.intent_kind = .unload ∧ record.intent.agent_name ∈ remove_agents plan ∧
      (record.status = .idle_ready ∨ answers.now_s < record.max_age_deadline_at_s ∧
        answers.now_s < record.deadline_at_s ∧ agent_busy answers.work record = false)

/-- What a tick can end of the records that are too old: a removal that is not ready yet, or that
the configuration no longer asks for, and what the reload ends that the tick runs. -/
def RetryAnswers.Timely (answers : RetryAnswers) (queue : DrainQueue) : Prop :=
  ∀ record ∈ queue.records, record.terminal = false →
    record.max_age_deadline_at_s ≤ answers.now_s →
      (record.intent.intent_kind = .unload ∧ (record.status ≠ .idle_ready ∨
        ∃ plan, answers.plan = some plan ∧ record.intent.agent_name ∉ remove_agents plan)) ∨
      answers.Reloads queue ∧ (reload_action answers.reload).Ends record

/-- A reload enqueues no intent whose id is on the queue already, and a tick comes on no record
that is too old and that it cannot end. -/
def DrainQueue.Safe (queue : DrainQueue) : Step → Prop
  | .reload answers => (reload_action answers).Fresh answers.now_s queue
  | .auto_retry answers => answers.enabled = true → answers.Timely queue ∧
      (answers.Reloads queue → (reload_action answers.reload).Fresh answers.reload.now_s
        (auto_retry_ready answers queue).1)

end ClaudeCodeBridge.Model.ReloadDrain
