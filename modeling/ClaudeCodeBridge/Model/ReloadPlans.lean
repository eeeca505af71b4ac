import ClaudeCodeBridge.Program.JsonText

/-!
# Reload plans

A reload compares the configuration on file with the published one.  The operations say what has
changed; the patch plan says which windows and panes are made, moved and killed for it, or why it
is blocked.  Both are computed from the two configurations alone.

Names are as the loader leaves them, normalised and not blank; records that are only compared
stand for themselves as texts; a layout is what its text parses to.
-/

set_option autoImplicit false

namespace ClaudeCodeBridge.Model.ReloadPatch

open Program

structure LayoutLeaf where
  name : Text
  provider : Option Text
  worktree : Bool
  weight : ℕ
  percent : Option ℕ
  deriving DecidableEq

inductive BranchKind where
  | horizontal
  | vertical
  deriving DecidableEq

inductive LayoutNode where
  | leaf (item : LayoutLeaf)
  | branch (kind : BranchKind) (left right : LayoutNode)
  deriving DecidableEq

def LayoutLeaf.render (leaf : LayoutLeaf) : Text :=
  leaf.name ++
    ((leaf.provider.map fun provider =>
      asciiText ":" ++ provider ++ if leaf.worktree then asciiText "(worktree)" else []).getD []) ++
    (if leaf.weight = 1 then []
      else asciiText "(" ++ asciiText (toString leaf.weight) ++ asciiText ")") ++
    ((leaf.percent.map fun percent => asciiText "@" ++ asciiText (toString percent)).getD [])

/-- `render_child`: a horizontal branch stands in parentheses under a vertical one. -/
def render_child (node : LayoutNode) (parent_kind : BranchKind) (text : Text) : Text :=
  match node, parent_kind with
  | .branch .horizontal _ _, .vertical => asciiText "(" ++ text ++ asciiText ")"
  | _, _ => text

def LayoutNode.render : LayoutNode → Text
  | .leaf item => item.render
  | .branch kind left right =>
    render_child left kind left.render ++
      (match kind with
        | .horizontal => asciiText "; "
        | .vertical => asciiText ", ") ++
      render_child right kind right.render

def LayoutNode.iter_leaves : LayoutNode → List LayoutLeaf
  | .leaf item => [item]
  | .branch _ left right => left.iter_leaves ++ right.iter_leaves

structure WindowSpec where
  name : Text
  order : ℕ
  layout : LayoutNode
  agent_names : List Text
  deriving DecidableEq

/-- A tool window; `layout` is what its command parses to as a layout, if it does. -/
structure ToolWindowSpec where
  name : Text
  order : ℕ
  command : Text
  layout : Option LayoutNode
  deriving DecidableEq

/-- An agent's record; `record` is all of it but `dispatch_disabled`. -/
structure AgentSpec where
  dispatch_disabled : Bool
  record : Text
  deriving DecidableEq

/-- What the loader has validated: windows and tool windows have different names, an agent is in
one window, and the windows' agents are the configured ones. -/
structure ProjectConfig where
  agents : List (Text × AgentSpec)
  windows : List WindowSpec
  tool_windows : List ToolWindowSpec
  entry_window : Text
  sidebar : Text
  sidebar_enabled : Bool
  maintenance_heartbeat : Text
  names : ((windows.map WindowSpec.name) ++ (tool_windows.map ToolWindowSpec.name)).Nodup
  agent_keys : (agents.map Prod.fst).Nodup
  window_agents : (windows.flatMap WindowSpec.agent_names).Nodup
  referenced : ∀ agent, agent ∈ windows.flatMap WindowSpec.agent_names ↔ agent ∈ agents.map Prod.fst
  deriving DecidableEq

def ProjectConfig.agent_names (config : ProjectConfig) : List Text := config.agents.map Prod.fst

def ProjectConfig.spec (config : ProjectConfig) (agent : Text) : Option AgentSpec :=
  (config.agents.find? fun entry => entry.1 = agent).map Prod.snd

inductive WindowKind where
  | agents
  | tool
  deriving DecidableEq

structure WindowPlan where
  name : Text
  kind : WindowKind
  user_layout : Option LayoutNode
  agent_names : List Text
  sidebar : Bool
  deriving DecidableEq

abbrev Topology := List WindowPlan

def build_namespace_topology_plan (config : ProjectConfig) : Topology :=
  (config.windows.map fun window =>
    { name := window.name
      kind := .agents
      user_layout := some window.layout
      agent_names := window.agent_names
      sidebar := config.sidebar_enabled }) ++
  config.tool_windows.map fun tool =>
    { name := tool.name
      kind := .tool
      user_layout := tool.layout
      agent_names := []
      sidebar := config.sidebar_enabled }

/-- `window_map(topology).get(name)`. -/
def window_of (topology : Topology) (name : Text) : Option WindowPlan :=
  topology.find? fun window => window.name = name

/-- `_agent_window_map(topology).get(agent)`. -/
def agent_window (topology : Topology) (agent : Text) : Option Text :=
  (topology.find? fun window => agent ∈ window.agent_names).map WindowPlan.name

inductive OpName where
  | no_change
  | view_only_change
  | maintenance_change
  | add_tool_window
  | add_agent
  | add_window
  | remove_tool_window
  | change_tool_window
  | layout_change
  | move_agent
  | remove_agent
  | replace_agent
  deriving DecidableEq

/-- An operation, with the entries that something reads. -/
structure Operation where
  op : OpName
  agent : Option Text
  window : Option Text
  from_window : Option Text
  to_window : Option Text
  agents : List Text
  removes_window : Bool
  deriving DecidableEq

/-- An operation of a name, all else left out. -/
def Operation.named (op : OpName) : Operation :=
  { op := op
    agent := none
    window := none
    from_window := none
    to_window := none
    agents := []
    removes_window := false }

/-- `sorted(...)` of names. -/
def sorted_names (names : List Text) : List Text := names.insertionSort (· ≤ ·)

def strip_layout_providers : LayoutNode → LayoutNode
  | .leaf item =>
    .leaf { name := item.name
            provider := none
            worktree := false
            weight := 1
            percent := item.percent }
  | .branch kind left right =>
    .branch kind (strip_layout_providers left) (strip_layout_providers right)

def provider_neutral_layout_spec (layout : LayoutNode) : Text :=
  (strip_layout_providers layout).render

def WindowSpec.has_name (name : Text) (window : WindowSpec) : Bool := window.name = name

def ProjectConfig.has_window (config : ProjectConfig) (name : Text) : Bool :=
  config.windows.any (WindowSpec.has_name name)

def ProjectConfig.has_tool (config : ProjectConfig) (name : Text) : Bool :=
  config.tool_windows.any fun tool => tool.name = name

/-- `_ordered_windows`: by order and name. -/
def ordered_windows (windows : List WindowSpec) : List WindowSpec :=
  windows.insertionSort fun a b => a.order < b.order ∨ a.order = b.order ∧ a.name ≤ b.name

def ordered_tool_windows (tools : List ToolWindowSpec) : List ToolWindowSpec :=
  tools.insertionSort fun a b => a.order < b.order ∨ a.order = b.order ∧ a.name ≤ b.name

/-- `sorted(old_agents & new_agents)`. -/
def common_agents (current_config new_config : ProjectConfig) : List Text :=
  sorted_names (current_config.agent_names.filter (· ∈ new_config.agent_names))

/-- `old_window` as the loop over the moves leaves it: the window of the last agent that both
configurations have. -/
def last_old_window (current_config new_config : ProjectConfig) : Option Text :=
  (common_agents current_config new_config).getLast?.bind
    (agent_window (build_namespace_topology_plan current_config))

/-- What has become of an agent that both configurations have.  A replacement is given the
window that the loop before has ended with, not the agent's own. -/
def agent_operation (current_config new_config : ProjectConfig) (agent : Text) : Option Operation :=
  match current_config.spec agent, new_config.spec agent with
  | some old_record, some new_record =>
    if old_record = new_record then none
    else if old_record.record = new_record.record then
      some { Operation.named .view_only_change with agent := some agent }
    else
      some
        { Operation.named .replace_agent with
          agent := some agent
          window := last_old_window current_config new_config }
  | _, _ => none

def topology_operations (current_config new_config : ProjectConfig) : List Operation :=
  ((ordered_windows (current_config.windows.filter fun window =>
      !new_config.has_window window.name)).map fun window =>
    { Operation.named .layout_change with window := some window.name, removes_window := true }) ++
  ((ordered_windows new_config.windows).filterMap fun new_record =>
    match current_config.windows.find? (WindowSpec.has_name new_record.name) with
    | none => none
    | some old_record =>
      if old_record.agent_names.all (· ∈ new_record.agent_names) &&
          new_record.agent_names.all (· ∈ old_record.agent_names) then
        if old_record.order ≠ new_record.order ∨ old_record.agent_names ≠ new_record.agent_names ∨
            provider_neutral_layout_spec old_record.layout ≠
              provider_neutral_layout_spec new_record.layout then
          some { Operation.named .layout_change with window := some new_record.name }
        else none
      else none) ++
  (if current_config.entry_window ≠ new_config.entry_window then [Operation.named .layout_change]
    else []) ++
  (if current_config.sidebar ≠ new_config.sidebar then [Operation.named .layout_change] else [])

def tool_window_operations (current_config new_config : ProjectConfig) : List Operation :=
  ((ordered_tool_windows (new_config.tool_windows.filter fun tool =>
      !current_config.has_tool tool.name)).map fun tool =>
    { Operation.named .add_tool_window with window := some tool.name }) ++
  ((ordered_tool_windows (current_config.tool_windows.filter fun tool =>
      !new_config.has_tool tool.name)).map fun tool =>
    { Operation.named .remove_tool_window with window := some tool.name }) ++
  (ordered_tool_windows new_config.tool_windows).filterMap fun new_record =>
    match current_config.tool_windows.find? fun tool => tool.name = new_record.name with
    | none => none
    | some old_record =>
      if old_record.command ≠ new_record.command then
        some { Operation.named .change_tool_window with window := some new_record.name }
      else none

def build_operations (current_config new_config : ProjectConfig) : List Operation :=
  let old_topology := build_namespace_topology_plan current_config
  let new_topology := build_namespace_topology_plan new_config
  let common := common_agents current_config new_config
  ((ordered_windows (new_config.windows.filter fun window =>
      !current_config.has_window window.name)).map fun window =>
    { Operation.named .add_window with
      window := some window.name
      agents := window.agent_names }) ++
  ((sorted_names (new_config.agent_names.filter (· ∉ current_config.agent_names))).map fun agent =>
    { Operation.named .add_agent with
      agent := some agent, window := agent_window new_topology agent }) ++
  ((sorted_names (current_config.agent_names.filter (· ∉ new_config.agent_names))).map fun agent =>
    { Operation.named .remove_agent with
      agent := some agent, window := agent_window old_topology agent }) ++
  (common.filterMap fun agent =>
    if agent_window old_topology agent = agent_window new_topology agent then none
    else
      some
        { Operation.named .move_agent with
          agent := some agent
          from_window := agent_window old_topology agent
          to_window := agent_window new_topology agent }) ++
  common.filterMap (agent_operation current_config new_config) ++
  topology_operations current_config new_config ++
  tool_window_operations current_config new_config ++
  (if current_config.maintenance_heartbeat = new_config.maintenance_heartbeat then []
    else [Operation.named .maintenance_change])

/-- `_PLAN_PRIORITY`. -/
def plan_priority : OpName → ℕ
  | .no_change => 0
  | .view_only_change => 10
  | .maintenance_change => 20
  | .add_tool_window => 30
  | .add_agent => 40
  | .add_window => 50
  | .remove_tool_window => 55
  | .layout_change => 60
  | .change_tool_window => 65
  | .move_agent => 70
  | .remove_agent => 80
  | .replace_agent => 90

/-- `_select_plan_class`: the first operation of the greatest priority. -/
def select_plan_class (operations : List Operation) : OpName :=
  operations.foldl
    (fun best item => if plan_priority best < plan_priority item.op then item.op else best)
    .no_change

def remove_agent_operations_are_safe (operations : List Operation) : Bool :=
  operations.all (fun item =>
      item.op = .remove_agent || item.op = .layout_change && item.removes_window) &&
    operations.any fun item => item.op = .remove_agent

def replace_agent_operations_are_safe (operations : List Operation) : Bool :=
  !operations.isEmpty && operations.all fun item => item.op = .replace_agent

def moved_targets (operations : List Operation) : List (Text × Text) :=
  operations.filterMap fun item =>
    match item.op, item.agent with
    | .move_agent, some agent => some (agent, item.to_window.getD [])
    | _, _ => none

/-- What `_move_agent_operations_are_safe` asks of one operation. -/
def move_operation_is_safe (operations : List Operation) (item : Operation) : Bool :=
  let moved := moved_targets operations
  let sources := operations.filterMap fun other =>
    if other.op = .move_agent then other.from_window else none
  let window := item.window.getD []
  let added := operations.filterMap fun other =>
    if other.op = .add_agent ∧ other.window = some window then other.agent else none
  let moved_for_window := (moved.filter fun entry => entry.2 = window).map Prod.fst
  match item.op with
  | .move_agent => true
  | .add_agent => moved.any fun entry => entry.2 = window
  | .add_window =>
    !item.agents.isEmpty && !moved_for_window.isEmpty &&
      (item.agents.take moved_for_window.length).all (· ∈ moved_for_window) &&
      moved_for_window.all (· ∈ item.agents.take moved_for_window.length) &&
      item.agents.all (fun agent => agent ∈ moved_for_window || agent ∈ added) &&
      (moved_for_window ++ added).all (· ∈ item.agents)
  | .layout_change => item.removes_window && sources.any (· = window)
  | _ => false

def move_agent_operations_are_safe (operations : List Operation) : Bool :=
  !(moved_targets operations).isEmpty && operations.all (move_operation_is_safe operations)

def future_safe_to_apply (plan_class : OpName) (operations : List Operation) : Bool :=
  match plan_class with
  | .no_change => true
  | .view_only_change => true
  | .maintenance_change => true
  | .add_tool_window => operations.all fun item =>
      item.op ≠ .change_tool_window && item.op ≠ .replace_agent && item.op ≠ .move_agent
  | .remove_tool_window => operations.all fun item =>
      item.op ≠ .change_tool_window && item.op ≠ .replace_agent && item.op ≠ .move_agent
  | .remove_agent => remove_agent_operations_are_safe operations
  | .replace_agent => replace_agent_operations_are_safe operations
  | .move_agent => move_agent_operations_are_safe operations
  | plan_class =>
    operations.all (fun item =>
      item.op ≠ .replace_agent && item.op ≠ .move_agent && item.op ≠ .layout_change &&
        item.op ≠ .change_tool_window) &&
      (plan_class = .add_agent || plan_class = .add_window)

end ClaudeCodeBridge.Model.ReloadPatch
