import ClaudeCodeBridge.Model.PlanTasks
import ClaudeCodeBridge.Program.Dependencies

/-!
# Orchestration bundles

`lib/cli/services/loop_orchestration_bundle.py`, as far as it decides whether the nodes of a
normalized bundle may run: their dependencies, their scopes and the capacity that their widest
frontier asks for.  Whether two scopes overlap is what `loop_execution_scope.scopes_overlap`
answers.
-/

set_option autoImplicit false

namespace ClaudeCodeBridge.Model.Workgroup

open Program
open Model.PlanTask (Segment ValueError)

abbrev NodeId := Segment

/-- A path of `allowed_paths`. -/
abbrev Scope := Text

structure BundleNode where
  node_id : NodeId
  worker_profile : Text
  reviewer_profile : Text
  depends_on : List NodeId
  allowed_paths : List Scope
  integration_order : ℕ
  deriving DecidableEq

/-- The `dependencies` of the nodes, whose ids are distinct. -/
def dependencies (nodes : List BundleNode) : Dependencies NodeId :=
  nodes.map fun node => (node.node_id, node.depends_on)

def node_ids (nodes : List BundleNode) : List NodeId := nodes.map fun node => node.node_id

def ordered_nodes (nodes : List BundleNode) : List BundleNode :=
  nodes.insertionSort fun a b => a.node_id ≤ b.node_id

/-- `_validate_dependencies`, of ids that are segments. -/
def validate_dependencies (nodes : List BundleNode) : Except ValueError Unit := do
  refuseIf (nodes = []) ⟨"orchestration_bundle requires at least one node"⟩
  refuseIf (∃ node ∈ nodes, ∃ id ∈ node.depends_on, id ∉ node_ids nodes)
    ⟨"node depends_on unknown nodes"⟩
  match (node_ids (ordered_nodes nodes)).foldlM (visit (dependencies nodes) []) [] with
  | .error _ => .error ⟨"orchestration bundle dependency cycle"⟩
  | .ok _ => .ok ()

/-- Two nodes of which neither reaches the other. -/
def independent (nodes : List BundleNode) (left right : NodeId) : Prop :=
  reaches (dependencies nodes) left right = false ∧ reaches (dependencies nodes) right left = false

instance decidableIndependent (nodes : List BundleNode) (left right : NodeId) :
    Decidable (independent nodes left right) :=
  inferInstanceAs (Decidable (_ ∧ _))

def validate_parallel_scopes (scopes_overlap : Scope → Scope → Bool) (nodes : List BundleNode) :
    Except ValueError Unit :=
  refuseIf (¬ nodes.Pairwise fun left right =>
      independent nodes left.node_id right.node_id →
        ∀ left_scope ∈ left.allowed_paths, ∀ right_scope ∈ right.allowed_paths,
          scopes_overlap left_scope right_scope = false)
    ⟨"parallel nodes have overlapping allowed paths"⟩

def widest_dependency_frontier (nodes : List BundleNode) : List BundleNode :=
  widest (fun candidate => decide (candidate.Pairwise fun left right =>
    independent nodes left.node_id right.node_id)) (ordered_nodes nodes)

/-- An effective capacity snapshot: its limits, the profiles that can be mounted with the
number of their instances, and the profiles that other names stand for. -/
structure Capacity where
  max_parallel_workgroups : ℕ
  max_active_dynamic_agents : ℕ
  dynamic_profiles : Dict Text ℕ
  profile_aliases : Dict Text Text

/-- The profile that a node's one stands for. -/
def Capacity.profile (capacity : Capacity) (logical_profile : Text) : Text :=
  ((capacity.profile_aliases.get logical_profile).filter (· ≠ [])).getD logical_profile

/-- The profiles that a frontier asks for, the worker's and the reviewer's of each node. -/
def requested_profiles (capacity : Capacity) (frontier : List BundleNode) : List Text :=
  frontier.flatMap fun node =>
    [capacity.profile node.worker_profile, capacity.profile node.reviewer_profile]

def validate_capacity (nodes : List BundleNode) (capacity : Capacity) : Except ValueError Unit := do
  let frontier := widest_dependency_frontier nodes
  refuseIf (capacity.max_parallel_workgroups < frontier.length)
    ⟨"orchestration bundle exceeds max_parallel_workgroups=" ++
      s!"{capacity.max_parallel_workgroups}: dependency frontier requests {frontier.length}"⟩
  let requested := requested_profiles capacity frontier
  refuseIf (∃ profile ∈ requested, capacity.dynamic_profiles.get profile = none)
    ⟨"orchestration bundle requires effective dynamic profile"⟩
  refuseIf (∃ profile ∈ requested, ∃ maximum ∈ capacity.dynamic_profiles.get profile,
      maximum < requested.count profile)
    ⟨"orchestration bundle profile exceeds max_instances"⟩
  refuseIf (capacity.max_active_dynamic_agents < requested.length)
    ⟨"orchestration bundle exceeds max_active_dynamic_agents=" ++
      s!"{capacity.max_active_dynamic_agents}: dependency frontier requests {requested.length}"⟩

/-- A normalized bundle that the three validations accept. -/
structure AcceptedBundle (scopes_overlap : Scope → Scope → Bool) (capacity : Capacity) where
  nodes : List BundleNode
  distinct : (node_ids nodes).Nodup
  dependencies_valid : validate_dependencies nodes = .ok ()
  scopes_valid : validate_parallel_scopes scopes_overlap nodes = .ok ()
  capacity_valid : validate_capacity nodes capacity = .ok ()

end ClaudeCodeBridge.Model.Workgroup
