import ClaudeCodeBridge.Model.ReloadPlans

/-!
# Namespace patches

`build_namespace_patch_plan` plans the steps from the old topology to the new one: windows are
made, agents are moved, appended and removed, and each of these may block the plan.

`execute` runs the steps on the windows, as lists of agent panes.  A pane is split off the pane it
is anchored to; in a window that the patch has made it is put behind the others.  A pane that
moves goes behind the panes that the patch has not made, as `move_agent_panes` anchors it: to the
last agent that was there, or that moved there before, or to the root of a new window.  A step
that finds no window, agent or anchor fails.
-/

set_option autoImplicit false

namespace ClaudeCodeBridge.Model.ReloadPatch

open Program

inductive NamespacePatchStep where
  | refresh_project_view
  | reuse_agent_pane_for_replace (window agent : Text)
  | create_window (window : Text)
  | create_sidebar_pane (window : Text)
  | create_agent_pane (window agent : Text) (anchor_agent : Option Text)
  | create_tool_pane (window : Text)
  | move_agent_pane (window target_window agent : Text)
  | kill_agent_pane (window agent : Text)
  | kill_window (window : Text)
  | kill_tool_window (window : Text)
  deriving DecidableEq

/-- Why a plan is blocked. -/
inductive BlockedOp where
  | namespace_scope
  | operation (op : OpName)
  deriving DecidableEq

structure BlockedOperation where
  op : BlockedOp
  agent : Option Text
  window : Option Text
  target_window : Option Text
  reason : Text
  deriving DecidableEq

/-- The steps and the blocked operations that a part of the planner comes to. -/
structure PatchSteps where
  steps : List NamespacePatchStep
  blocked : List BlockedOperation

def PatchSteps.planned (steps : List NamespacePatchStep) : PatchSteps :=
  { steps := steps, blocked := [] }

def PatchSteps.refused (blocked : BlockedOperation) : PatchSteps :=
  { steps := [], blocked := [blocked] }

/-- The parts of a plan, one after the other. -/
def PatchSteps.all (parts : List PatchSteps) : PatchSteps :=
  { steps := parts.flatMap PatchSteps.steps, blocked := parts.flatMap PatchSteps.blocked }

structure AppendAgentPlan where
  agent : Text
  direction : Text
  deriving DecidableEq

def append_direction : BranchKind → Text
  | .horizontal => asciiText "right"
  | .vertical => asciiText "bottom"

def expanded_leaf_append_plan (anchor_node : LayoutNode) :
    LayoutNode → Option (List AppendAgentPlan)
  | .leaf item => if (LayoutNode.leaf item).render = anchor_node.render then some [] else none
  | .branch kind left right =>
    match expanded_leaf_append_plan anchor_node left with
    | none => none
    | some left_plan =>
      match right with
      | .leaf item =>
        some (left_plan ++ [{ agent := item.name, direction := append_direction kind }])
      | .branch _ _ _ => none

def rightmost_leaf_append_plan_for_nodes : LayoutNode → LayoutNode → Option (List AppendAgentPlan)
  | .leaf item, new_node => expanded_leaf_append_plan (.leaf item) new_node
  | .branch _ _ _, .leaf _ => none
  | .branch old_kind old_left old_right, .branch new_kind new_left new_right =>
    if old_kind ≠ new_kind then none
    else if old_left.render ≠ new_left.render then none
    else rightmost_leaf_append_plan_for_nodes old_right new_right

def all_branch_kinds (kind : BranchKind) : LayoutNode → Bool
  | .leaf _ => true
  | .branch other left right =>
    other = kind && all_branch_kinds kind left && all_branch_kinds kind right

def sequence_kind : LayoutNode → Option BranchKind
  | .leaf _ => none
  | .branch kind left right =>
    if all_branch_kinds kind (.branch kind left right) then some kind else none

def trailing_sequence_append_plan (old_node new_node : LayoutNode) :
    Option (List AppendAgentPlan) :=
  let old_leaves := old_node.iter_leaves.map LayoutLeaf.name
  let new_leaves := new_node.iter_leaves.map LayoutLeaf.name
  if old_leaves = [] ∨ new_leaves.take old_leaves.length ≠ old_leaves then none
  else if new_leaves.drop old_leaves.length = [] then some []
  else
    match sequence_kind old_node, sequence_kind new_node with
    | some old_kind, some new_kind =>
      if old_kind ≠ new_kind then none
      else
        some ((new_leaves.drop old_leaves.length).map fun agent =>
          { agent := agent, direction := append_direction old_kind })
    | _, _ => none

def rightmost_leaf_append_plan (old_window new_window : WindowPlan) :
    Option (List AppendAgentPlan) :=
  match old_window.user_layout, new_window.user_layout with
  | some old_layout, some new_layout =>
    match rightmost_leaf_append_plan_for_nodes old_layout new_layout with
    | some plan => some plan
    | none => trailing_sequence_append_plan old_layout new_layout
  | _, _ => none

def append_agent_plan_for_window (old_window new_window : WindowPlan) :
    Option (List AppendAgentPlan) :=
  let old_agents := old_window.agent_names
  let new_agents := new_window.agent_names
  if old_agents = new_agents then some []
  else if new_agents.length < old_agents.length then some []
  else if new_agents.take old_agents.length ≠ old_agents then none
  else
    match rightmost_leaf_append_plan old_window new_window with
    | none => none
    | some append_plan =>
      if append_plan.map AppendAgentPlan.agent ≠ new_agents.drop old_agents.length then none
      else some append_plan

structure MovedAgent where
  agent : Text
  source_window : Text
  target_window : Text
  deriving DecidableEq

variable (old_topology new_topology : Topology)

def moved_agents : List MovedAgent :=
  new_topology.flatMap fun window =>
    window.agent_names.filterMap fun agent =>
      match agent_window old_topology agent with
      | none => none
      | some old_window =>
        if old_window = window.name then none
        else
          some { agent := agent, source_window := old_window, target_window := window.name }

/-- `_moved_by_target(moved).get(target_window, ())`. -/
def moved_by_target (target_window : Text) (moved : List MovedAgent) : List Text :=
  (moved.filter fun item => item.target_window = target_window).map MovedAgent.agent

/-- `_moved_by_source(moved).get(source_window, ())`. -/
def moved_by_source (source_window : Text) (moved : List MovedAgent) : List Text :=
  (moved.filter fun item => item.source_window = source_window).map MovedAgent.agent

def blocked_move (item : MovedAgent) (reason : String) : BlockedOperation :=
  { op := .operation .move_agent
    agent := some item.agent
    window := some item.source_window
    target_window := some item.target_window
    reason := asciiText reason }

def move_step (item : MovedAgent) : PatchSteps :=
  .planned [.move_agent_pane item.source_window item.target_window item.agent]

/-- What `_move_agent_step` asks of the target window. -/
def move_agent_target (moved : List MovedAgent) (item : MovedAgent) (new_target : WindowPlan) :
    PatchSteps :=
  match window_of old_topology item.target_window with
  | none =>
    let moved_target_agents := moved_by_target item.target_window moved
    if moved_target_agents = [] ∨
        new_target.agent_names.take moved_target_agents.length ≠ moved_target_agents ∨
        item.agent ∉ moved_target_agents then
      .refused (blocked_move item "new target window must start with moved agents")
    else move_step item
  | some old_target =>
    match append_agent_plan_for_window old_target new_target with
    | none => .refused (blocked_move item "target window must append moved agents at the end")
    | some append_plan =>
      if item.agent ∉ append_plan.map AppendAgentPlan.agent then
        .refused (blocked_move item "target append plan does not include moved agent")
      else move_step item

def move_agent_step (moved : List MovedAgent) (item : MovedAgent) : PatchSteps :=
  let moved_source_agents := moved_by_source item.source_window moved
  match window_of old_topology item.source_window with
  | none => .refused (blocked_move item "source window must remain present")
  | some old_source =>
    match window_of new_topology item.source_window, window_of new_topology item.target_window with
    | none, new_target =>
      if ¬ (old_source.agent_names ⊆ moved_source_agents ∧
          moved_source_agents ⊆ old_source.agent_names) then
        .refused (blocked_move item
          "source window can be removed only when all source agents move in the same transaction")
      else
        match new_target with
        | none => .refused (blocked_move item "target window must exist in new topology")
        | some new_target => move_agent_target old_topology moved item new_target
    | some _, none => .refused (blocked_move item "target window must exist in new topology")
    | some new_source, some new_target =>
      if old_source.agent_names.filter (· ∉ moved_source_agents) ≠ new_source.agent_names then
        .refused (blocked_move item "source window order must be preserved after move")
      else move_agent_target old_topology moved item new_target

def move_agent_steps : PatchSteps :=
  let moved := moved_agents old_topology new_topology
  .all (moved.map (move_agent_step old_topology new_topology moved))

/-- `_additive_window_steps`, for one window of the new topology. -/
def additive_window_steps_for (excluded_agents : List Text) (window : WindowPlan) :
    List NamespacePatchStep :=
  if (window_of old_topology window.name).isSome then []
  else
    .create_window window.name ::
      ((if window.sidebar then [.create_sidebar_pane window.name] else []) ++
        ((window.agent_names.filter (· ∉ excluded_agents)).map fun agent =>
          .create_agent_pane window.name agent none) ++
        if window.kind = .tool then [.create_tool_pane window.name] else [])

def additive_window_steps (excluded_agents : List Text) : List NamespacePatchStep :=
  new_topology.flatMap (additive_window_steps_for old_topology excluded_agents)

/-- `_append_steps`, from an anchor on. -/
def append_steps (window_name : Text) (excluded_agents : List Text) :
    Option Text → List AppendAgentPlan → List NamespacePatchStep
  | _, [] => []
  | anchor, append :: rest =>
    if append.agent ∈ excluded_agents then
      append_steps window_name excluded_agents (some append.agent) rest
    else
      .create_agent_pane window_name append.agent anchor ::
        append_steps window_name excluded_agents (some append.agent) rest

def blocked_append (window_name : Text) (reason : String) : BlockedOperation :=
  { op := .operation .add_agent
    agent := none
    window := some window_name
    target_window := none
    reason := asciiText reason }

/-- `_steps_for_window`. -/
def additive_steps_for_window (excluded_agents : List Text) (old_window new_window : WindowPlan) :
    PatchSteps :=
  let old_agents := old_window.agent_names
  let new_agents := new_window.agent_names
  if old_agents = new_agents then .planned []
  else if new_agents.length < old_agents.length then .planned []
  else if new_agents.take old_agents.length ≠ old_agents then
    .refused (blocked_append new_window.name
      "Phase 5 additive patch only supports appending new agents after existing panes")
  else
    match append_agent_plan_for_window old_window new_window with
    | none =>
      .refused (blocked_append new_window.name
        "Phase 5 additive patch only supports expanding the last existing agent pane")
    | some append_plan =>
      .planned (append_steps new_window.name excluded_agents old_agents.getLast? append_plan)

def additive_agent_steps (excluded_agents : List Text) : PatchSteps :=
  .all (new_topology.map fun new_window =>
    match window_of old_topology new_window.name with
    | none => .planned []
    | some old_window => additive_steps_for_window excluded_agents old_window new_window)

def blocked_remove (window_name : Text) (reason : String) : BlockedOperation :=
  { op := .operation .remove_agent
    agent := none
    window := some window_name
    target_window := none
    reason := asciiText reason }

/-- `_remove_agent_steps`. -/
def remove_agent_steps_for (excluded_agents : List Text) (old_window new_window : WindowPlan) :
    PatchSteps :=
  let old_agents := old_window.agent_names
  let new_agents := new_window.agent_names
  let removed := old_agents.filter fun agent => agent ∉ new_agents ∧ agent ∉ excluded_agents
  if removed = [] then .planned []
  else if old_agents.filter (· ∈ new_agents) ≠ new_agents then
    .refused (blocked_remove old_window.name
      "Phase 7 remove_agent only supports deleting agents while preserving remaining order")
  else .planned (removed.map fun agent => .kill_agent_pane old_window.name agent)

def remove_window_steps (old_window : WindowPlan) : PatchSteps :=
  if old_window.agent_names = [] then
    .refused (blocked_remove old_window.name "cannot remove an empty managed window")
  else
    .planned ((old_window.agent_names.map fun agent => .kill_agent_pane old_window.name agent) ++
      [.kill_window old_window.name])

/-- What `remove_agent_steps` does with a window of the old topology. -/
def remove_steps_for_window (excluded_agents : List Text) (old_window : WindowPlan) : PatchSteps :=
  match window_of new_topology old_window.name with
  | none =>
    if old_window.kind = .tool then .planned []
    else if old_window.agent_names ≠ [] ∧ old_window.agent_names ⊆ excluded_agents then
      .planned [.kill_window old_window.name]
    else if old_window.agent_names.any (· ∈ excluded_agents) then
      .refused (blocked_remove old_window.name
        "move_agent does not support removing the source window in the same transaction")
    else remove_window_steps old_window
  | some new_window => remove_agent_steps_for excluded_agents old_window new_window

def remove_agent_steps (excluded_agents : List Text) : PatchSteps :=
  .all (old_topology.map (remove_steps_for_window new_topology excluded_agents))

def remove_tool_window_steps : List NamespacePatchStep :=
  (old_topology.filter fun window =>
    (window_of new_topology window.name).isNone && window.kind = .tool).map fun window =>
      .kill_tool_window window.name

def view_refresh_steps (operations : List Operation) : List NamespacePatchStep :=
  if operations.any fun item => item.op = .view_only_change || item.op = .maintenance_change then
    [.refresh_project_view]
  else []

def replace_agent_steps (operations : List Operation) : List NamespacePatchStep :=
  operations.filterMap fun item =>
    match item.op, item.agent with
    | .replace_agent, some agent =>
      some (.reuse_agent_pane_for_replace (item.window.getD []) agent)
    | _, _ => none

def operation_agents (op : OpName) (operations : List Operation) : List Text :=
  operations.filterMap fun item => if item.op = op then item.agent else none

def missing_agent_steps (op : OpName) (reason : String) (planned : NamespacePatchStep → Option Text)
    (operations : List Operation) (steps : List NamespacePatchStep) : List BlockedOperation :=
  (sorted_names ((operation_agents op operations).dedup.filter fun agent =>
    agent ∉ steps.filterMap planned)).map fun agent =>
      { op := .operation op
        agent := some agent
        window := none
        target_window := none
        reason := asciiText reason }

def missing_additive_agent_steps : List Operation → List NamespacePatchStep →
    List BlockedOperation :=
  missing_agent_steps .add_agent
    "add_agent operation was not covered by an additive namespace patch step"
    fun
      | .create_agent_pane _ agent _ => some agent
      | _ => none

def missing_remove_agent_steps : List Operation → List NamespacePatchStep → List BlockedOperation :=
  missing_agent_steps .remove_agent
    "remove_agent operation was not covered by a namespace pane removal step"
    fun
      | .kill_agent_pane _ agent => some agent
      | _ => none

def missing_replace_agent_steps : List Operation → List NamespacePatchStep →
    List BlockedOperation :=
  missing_agent_steps .replace_agent
    "replace_agent operation was not covered by a same-slot runtime replacement step"
    fun
      | .reuse_agent_pane_for_replace _ agent => some agent
      | _ => none

def missing_move_agent_steps : List Operation → List NamespacePatchStep → List BlockedOperation :=
  missing_agent_steps .move_agent
    "move_agent operation was not covered by a namespace pane move step"
    fun
      | .move_agent_pane _ _ agent => some agent
      | _ => none

def missing_tool_window_steps (operations : List Operation) (steps : List NamespacePatchStep) :
    List BlockedOperation :=
  operations.filterMap fun item =>
    match item.op, item.window with
    | .add_tool_window, some window =>
      if .create_tool_pane window ∈ steps then none
      else
        some
          { op := .operation .add_tool_window
            agent := none
            window := some window
            target_window := none
            reason := asciiText
              "add_tool_window operation was not covered by a tool pane creation step" }
    | .remove_tool_window, some window =>
      if .kill_tool_window window ∈ steps then none
      else
        some
          { op := .operation .remove_tool_window
            agent := none
            window := some window
            target_window := none
            reason := asciiText
              "remove_tool_window operation was not covered by a tool window removal step" }
    | _, _ => none

inductive PatchStatus where
  | planned
  | blocked
  | no_op
  deriving DecidableEq

structure NamespacePatchPlan where
  status : PatchStatus
  preserved_agents : List Text
  steps : List NamespacePatchStep
  blocked_operations : List BlockedOperation
  deriving DecidableEq

def blocked_unsupported_operations (operations : List Operation) : List BlockedOperation :=
  (operations.filter fun item =>
    item.op = .layout_change && !item.removes_window || item.op = .change_tool_window).map
    fun item =>
      { op := .operation item.op
        agent := item.agent
        window := item.window
        target_window := none
        reason := asciiText ("namespace patch planner supports config-only, additive, " ++
          "idle remove_agent, and guarded move_agent operations") }

/-- `_MUTATING_OPS`. -/
def OpName.mutating : OpName → Bool
  | .add_agent => true
  | .add_window => true
  | .remove_agent => true
  | .replace_agent => true
  | .move_agent => true
  | .add_tool_window => true
  | .remove_tool_window => true
  | _ => false

def blocked_scope (scope_verified : Bool) (operations : List Operation) : List BlockedOperation :=
  if (operations.any fun item => item.op.mutating) && !scope_verified then
    [{ op := .namespace_scope
       agent := none
       window := none
       target_window := none
       reason := asciiText "current project namespace scope is unavailable or mismatched" }]
  else []

def preserved_agents (operations : List Operation) : List Text :=
  sorted_names ((old_topology.flatMap WindowPlan.agent_names).filter fun agent =>
    agent ∈ new_topology.flatMap WindowPlan.agent_names ∧
      agent ∉ operation_agents .replace_agent operations)

/-- The steps of a plan that is not refused from the start. -/
def patch_parts (operations : List Operation) : PatchSteps :=
  let moved := (moved_agents old_topology new_topology).map MovedAgent.agent
  .all
    [.planned (view_refresh_steps operations),
      .planned (replace_agent_steps operations),
      .planned (additive_window_steps old_topology new_topology moved),
      move_agent_steps old_topology new_topology,
      additive_agent_steps old_topology new_topology moved,
      remove_agent_steps old_topology new_topology moved,
      .planned (remove_tool_window_steps old_topology new_topology)]

def build_namespace_patch_plan (operations : List Operation) (scope_verified : Bool) :
    NamespacePatchPlan :=
  let refused := blocked_unsupported_operations operations ++
    blocked_scope scope_verified operations
  let parts :=
    if refused = [] then patch_parts old_topology new_topology operations
    else { steps := [], blocked := refused }
  let blocked :=
    if refused = [] then
      parts.blocked ++ missing_additive_agent_steps operations parts.steps ++
        missing_remove_agent_steps operations parts.steps ++
        missing_replace_agent_steps operations parts.steps ++
        missing_move_agent_steps operations parts.steps ++
        missing_tool_window_steps operations parts.steps
    else refused
  { status :=
      if blocked ≠ [] then .blocked else if parts.steps = [] then .no_op else .planned
    preserved_agents := preserved_agents old_topology new_topology operations
    steps := parts.steps
    blocked_operations := blocked }

structure ReloadPlan where
  plan_class : OpName
  future_safe_to_apply : Bool
  operations : List Operation
  namespace_patch_plan : NamespacePatchPlan

/-- What the comparison of the configurations rests on besides their records: whether their
signatures are the same, whether their presentation is, too, and whether the scope of the current
namespace is verified. -/
structure PlanAnswers where
  same_signature : Bool
  same_record : Bool
  scope_verified : Bool

def build_reload_dry_run_plan (current_config new_config : ProjectConfig) (answers : PlanAnswers) :
    ReloadPlan :=
  let operations :=
    if answers.same_signature then
      if answers.same_record then [] else [Operation.named .view_only_change]
    else if build_operations current_config new_config = [] then [Operation.named .layout_change]
    else build_operations current_config new_config
  { plan_class := select_plan_class operations
    future_safe_to_apply := future_safe_to_apply (select_plan_class operations) operations
    operations := operations
    namespace_patch_plan :=
      build_namespace_patch_plan (build_namespace_topology_plan current_config)
        (build_namespace_topology_plan new_config) operations answers.scope_verified }

/-- An agent's pane: the one that it had before the patch, or none if the patch has made it. -/
structure AgentPane where
  agent : Text
  pane : Option ℕ
  deriving DecidableEq

/-- The agent panes of a window, in order, and whether the patch has made the window. -/
structure Window where
  panes : List AgentPane
  made : Bool

abbrev Windows := Text → Option Window

def split_pane (anchor : Text) (pane : AgentPane) : List AgentPane → Option (List AgentPane)
  | [] => none
  | first :: rest =>
    if first.agent = anchor then some (first :: pane :: rest)
    else (split_pane anchor pane rest).map (first :: ·)

def Window.create_agent_pane (agent : Text) (anchor_agent : Option Text) (window : Window) :
    Option Window :=
  let pane : AgentPane := { agent := agent, pane := none }
  match anchor_agent with
  | some anchor =>
    (split_pane anchor pane window.panes).map fun panes => { window with panes := panes }
  | none => if window.made then some { window with panes := window.panes ++ [pane] } else none

def Window.kill_agent_pane (agent : Text) (window : Window) : Option Window :=
  if agent ∈ window.panes.map AgentPane.agent then
    some { window with panes := window.panes.filter fun pane => pane.agent ≠ agent }
  else none

/-- A pane moves in behind those that the patch has not made. -/
def Window.move_in (pane : AgentPane) (window : Window) : Option Window :=
  if window.panes = [] ∧ window.made = false then none
  else
    some
      { window with
        panes := window.panes.takeWhile (fun other => other.pane.isSome) ++
          pane :: window.panes.dropWhile fun other => other.pane.isSome }

/-- The window that a step is on, but for a move. -/
def NamespacePatchStep.window : NamespacePatchStep → Option Text
  | .refresh_project_view => none
  | .reuse_agent_pane_for_replace window _ => some window
  | .create_window window => some window
  | .create_sidebar_pane window => some window
  | .create_agent_pane window _ _ => some window
  | .create_tool_pane window => some window
  | .move_agent_pane _ _ _ => none
  | .kill_agent_pane window _ => some window
  | .kill_window window => some window
  | .kill_tool_window window => some window

def NamespacePatchStep.on (step : NamespacePatchStep) (window : Option Window) :
    Option (Option Window) :=
  match step, window with
  | .create_window _, none => some (some { panes := [], made := true })
  | .reuse_agent_pane_for_replace _ agent, some window =>
    if agent ∈ window.panes.map AgentPane.agent then some (some window) else none
  | .create_sidebar_pane _, some window => some (some window)
  | .create_tool_pane _, some window => some (some window)
  | .create_agent_pane _ agent anchor, some window =>
    (window.create_agent_pane agent anchor).map some
  | .kill_agent_pane _ agent, some window => (window.kill_agent_pane agent).map some
  | .kill_window _, some _ => some none
  | .kill_tool_window _, some _ => some none
  | _, _ => none

/-- A pane leaves its window for another. -/
def move_pane (source target agent : Text) (windows : Windows) : Option Windows :=
  match windows source with
  | none => none
  | some from_window =>
    match from_window.panes.find? fun pane => pane.agent = agent with
    | none => none
    | some pane =>
      let left := from_window.panes.filter fun other => other.agent ≠ agent
      let windows := Function.update windows source (some { from_window with panes := left })
      match windows target with
      | none => none
      | some to_window =>
        (to_window.move_in pane).map fun entered => Function.update windows target (some entered)

def execute_step (windows : Windows) : NamespacePatchStep → Option Windows
  | .refresh_project_view => some windows
  | .move_agent_pane window target_window agent => move_pane window target_window agent windows
  | step =>
    match step.window with
    | none => none
    | some name => (step.on (windows name)).map fun after => Function.update windows name after

/-- The steps of a plan, in order. -/
def execute (steps : List NamespacePatchStep) (windows : Windows) : Option Windows :=
  steps.foldlM execute_step windows

def windows_of (topology : Topology) (pane : Text → ℕ) : Windows := fun name =>
  (window_of topology name).map fun window =>
    { panes := window.agent_names.map fun agent => { agent := agent, pane := some (pane agent) }
      made := false }

/-- The steps can be executed, and leave exactly the windows of the new topology, each with its
agents in order; who was there before is in the same pane. -/
def Realises (steps : List NamespacePatchStep) (pane : Text → ℕ) : Prop :=
  ∃ after, execute steps (windows_of old_topology pane) = some after ∧
    ∀ name, (after name).map Window.panes = (window_of new_topology name).map fun window =>
      window.agent_names.map fun agent =>
        { agent := agent
          pane := if agent ∈ old_topology.flatMap WindowPlan.agent_names then some (pane agent)
            else none }

/-- A window that is there before and has agents after has agents before. -/
def Anchored : Prop :=
  ∀ name old_window new_window, window_of old_topology name = some old_window →
    window_of new_topology name = some new_window → new_window.agent_names ≠ [] →
      old_window.agent_names ≠ []

def replaced (current_config new_config : ProjectConfig) (agent : Text) : Bool :=
  match current_config.spec agent, new_config.spec agent with
  | some old_record, some new_record => old_record.record ≠ new_record.record
  | _, _ => false

/-- Who is replaced is in the window that all replacements are given. -/
def Slotted (current_config new_config : ProjectConfig) (answers : PlanAnswers) : Prop :=
  answers.same_signature = false → ∀ agent ∈ common_agents current_config new_config,
    replaced current_config new_config agent →
      agent_window (build_namespace_topology_plan current_config) agent =
        last_old_window current_config new_config

end ClaudeCodeBridge.Model.ReloadPatch
