import ClaudeCodeBridge.Model.WorkgroupScheduler

/-!
# The frontier of a loop

The capacity of a bundle is checked once, against the widest set of nodes that do not depend
on one another.  Whatever order the nodes are accepted and integrated in, the nodes that are
mounted or ready are such a set: the dependencies of each are integrated, and an integrated
node is neither.

The ladder: what a record keeps (`Settled`, `settled_setStatus`); the mounted nodes do not depend on
one another (`mounted_unordered`); a set of such nodes is no larger than the widest frontier
(`length_le_frontier`); the runs (`kept_run`).
-/

set_option autoImplicit false

namespace ClaudeCodeBridge.Analysis.Workgroup

open Program
open Model.Workgroup

variable {nodes : List BundleNode} {r : SchedulerRecord} {s : SchedulerState}

def DependenciesIn (nodes : List BundleNode) (r : SchedulerRecord) (id : NodeId) : Prop :=
  ∀ dep ∈ depends_on nodes id, r.status dep = .integrated

/-- Only a node whose dependencies are integrated has been submitted or is mounted. -/
structure Settled (nodes : List BundleNode) (r : SchedulerRecord) : Prop where
  begun : ∀ id, r.status id ≠ .created → DependenciesIn nodes r id
  mounted : ∀ id ∈ r.demand, DependenciesIn nodes r id

def MergedInOrder (nodes : List BundleNode) (integration : NodeId → IntegrationStatus) : Prop :=
  ∀ id, integration id = .integrated → ∀ dep ∈ depends_on nodes id, integration dep = .integrated

theorem settled_initial : Settled nodes SchedulerState.initial.record :=
  ⟨fun _ h => absurd rfl h, fun _ h => absurd h List.not_mem_nil⟩

theorem depends_on_node (hdistinct : (node_ids nodes).Nodup) {node : BundleNode}
    (h : node ∈ nodes) : depends_on nodes node.node_id = node.depends_on := by
  unfold depends_on dependencies
  apply of_eq_of_mem
  · rw [List.map_map]
    exact hdistinct
  · exact List.mem_map_of_mem h

variable {id : NodeId}

/-- A node whose status is set has its dependencies integrated, and no integrated node loses
its status. -/
theorem settled_setStatus (hr : Settled nodes r) {status : NodeStatus}
    (hid : DependenciesIn nodes r id) (hnot : r.status id ≠ .integrated) :
    Settled nodes (r.setStatus id status) := by
  have hkept : ∀ dep, r.status dep = .integrated → (r.setStatus id status).status dep = .integrated := by
    intro dep hdep
    have hne : dep ≠ id := by
      rintro rfl
      exact hnot hdep
    show Function.update r.status id status dep = _
    rw [Function.update_of_ne hne]
    exact hdep
  refine ⟨?_, ?_⟩
  · intro i hi dep hdep
    apply hkept
    by_cases hne : i = id
    · rw [hne] at hdep
      exact hid dep hdep
    · have hbegun : r.status i ≠ .created := by
        have hsame : (r.setStatus id status).status i = r.status i := Function.update_of_ne hne ..
        rw [← hsame]
        exact hi
      exact hr.begun i hbegun dep hdep
  · intro i hi dep hdep
    exact hkept dep (hr.mounted i hi dep hdep)

variable {integration : NodeId → IntegrationStatus}

theorem settled_sync (hr : Settled nodes r) (hmerged : MergedInOrder nodes integration) :
    Settled nodes (sync_integration integration r) := by
  have hkept : ∀ dep, r.status dep = .integrated →
      (sync_integration integration r).status dep = .integrated := by
    intro dep hdep
    unfold sync_integration
    dsimp only
    rw [hdep, ite_self]
  refine ⟨?_, ?_⟩
  · intro i hi dep hdep
    by_cases hin : integration i = .integrated
    · exact if_pos (hmerged i hin dep hdep)
    · have hbegun : r.status i ≠ .created := by
        have hsame : (sync_integration integration r).status i = r.status i := if_neg hin
        rw [← hsame]
        exact hi
      exact hkept dep (hr.begun i hbegun dep hdep)
  · intro i hi dep hdep
    exact hkept dep (hr.mounted i hi dep hdep)

/-- The nodes that `_ensure_topology` mounts. -/
def mountedNodes (nodes : List BundleNode) (r : SchedulerRecord) : List NodeId :=
  active_nodes nodes r (ready_frontier nodes r)

theorem ready_node (hdistinct : (node_ids nodes).Nodup) (h : id ∈ ready_frontier nodes r) :
    id ∈ node_ids nodes ∧ r.status id = .created ∧ DependenciesIn nodes r id := by
  unfold ready_frontier at h
  obtain ⟨node, hnode, hid⟩ := List.mem_map.mp h
  obtain ⟨hmem, hready⟩ := List.mem_filter.mp hnode
  subst hid
  simp only [Bool.and_eq_true, decide_eq_true_eq, List.all_eq_true] at hready
  refine ⟨List.mem_map_of_mem hmem, hready.1, ?_⟩
  unfold DependenciesIn
  rw [depends_on_node hdistinct hmem]
  exact hready.2

theorem mounted_node (hdistinct : (node_ids nodes).Nodup) (hr : Settled nodes r)
    (h : id ∈ mountedNodes nodes r) :
    id ∈ node_ids nodes ∧ r.status id ≠ .integrated ∧ DependenciesIn nodes r id := by
  unfold mountedNodes active_nodes at h
  rcases List.mem_append.mp h with h | h
  · obtain ⟨hmem, hactive⟩ := List.mem_filter.mp h
    have hcreated : r.status id ≠ .created := by
      intro heq
      simp [heq, NodeStatus.idle] at hactive
    have hintegrated : r.status id ≠ .integrated := by
      intro heq
      simp [heq, NodeStatus.idle] at hactive
    exact ⟨hmem, hintegrated, hr.begun id hcreated⟩
  · obtain ⟨hmem, hcreated, hdeps⟩ := ready_node hdistinct (List.mem_filter.mp h).1
    refine ⟨hmem, ?_, hdeps⟩
    rw [hcreated]
    decide

theorem nodup_mounted (hdistinct : (node_ids nodes).Nodup) : (mountedNodes nodes r).Nodup := by
  unfold mountedNodes active_nodes
  apply List.Nodup.append (hdistinct.filter _)
  · apply List.Nodup.filter
    unfold ready_frontier
    exact (hdistinct.sublist (List.filter_sublist.map _))
  · intro id hactive hfrontier
    have hnot := (List.mem_filter.mp hfrontier).2
    simp only [decide_eq_true_eq] at hnot
    exact hnot hactive

theorem integrated_of_path (hr : Settled nodes r) {a b : NodeId} (ha : DependenciesIn nodes r a)
    (hpath : Relation.TransGen (DependsOn (dependencies nodes)) a b) :
    r.status b = .integrated := by
  induction hpath with
  | single hstep => exact ha _ hstep
  | @tail b c _ hstep ih =>
    have hbegun : r.status b ≠ .created := by
      rw [ih]
      decide
    exact hr.begun b hbegun c hstep

theorem mounted_unordered (hdistinct : (node_ids nodes).Nodup) (hr : Settled nodes r)
    {a b : NodeId} (ha : a ∈ mountedNodes nodes r) (hb : b ∈ mountedNodes nodes r) :
    Unordered (dependencies nodes) a b := by
  obtain ⟨_, hanot, hadeps⟩ := mounted_node hdistinct hr ha
  obtain ⟨_, hbnot, hbdeps⟩ := mounted_node hdistinct hr hb
  refine ⟨?_, ?_⟩
  · intro hpath
    exact hbnot (integrated_of_path hr hadeps hpath)
  · intro hpath
    exact hanot (integrated_of_path hr hbdeps hpath)

theorem perm_ordered : (node_ids (ordered_nodes nodes)).Perm (node_ids nodes) :=
  (List.perm_insertionSort _ nodes).map _

/-- Nodes that do not depend on one another are no more than the widest frontier has. -/
theorem length_le_frontier (hdistinct : (node_ids nodes).Nodup) {ids : List NodeId}
    (hids : ids.Nodup) (hknown : ∀ id ∈ ids, id ∈ node_ids nodes)
    (hunordered : ∀ a ∈ ids, ∀ b ∈ ids, Unordered (dependencies nodes) a b) :
    ids.length ≤ (widest_dependency_frontier nodes).length := by
  have hchosen : ((ordered_nodes nodes).filter fun node => node.node_id ∈ ids).length =
      ids.length := by
    have hperm : ((node_ids (ordered_nodes nodes)).filter fun id => id ∈ ids).Perm ids := by
      rw [List.perm_ext_iff_of_nodup ((perm_ordered.nodup_iff.mpr hdistinct).filter _) hids]
      intro id
      simp only [List.mem_filter, decide_eq_true_eq, and_iff_right_iff_imp]
      intro hid
      exact perm_ordered.mem_iff.mpr (hknown id hid)
    rw [← hperm.length_eq]
    unfold node_ids
    rw [List.filter_map, List.length_map]
    rfl
  rw [← hchosen]
  apply length_le_widest List.filter_sublist
  rw [decide_eq_true_iff]
  apply List.pairwise_of_forall_mem_list
  intro left hleft right hright
  have hin : ∀ node ∈ (ordered_nodes nodes).filter (fun node => node.node_id ∈ ids),
      node.node_id ∈ ids := by
    intro node hnode
    simpa using (List.mem_filter.mp hnode).2
  exact (unordered_iff _).mp (hunordered _ (hin left hleft) _ (hin right hright))

/-- Nodes that do not depend on one another and are not more than the widest frontier has. -/
structure Fits (nodes : List BundleNode) (ids : List NodeId) : Prop where
  unordered : ∀ a ∈ ids, ∀ b ∈ ids, Unordered (dependencies nodes) a b
  width : ids.length ≤ (widest_dependency_frontier nodes).length

theorem mounted_fits (hdistinct : (node_ids nodes).Nodup) (hr : Settled nodes r) :
    Fits nodes (mountedNodes nodes r) := by
  have hunordered : ∀ a ∈ mountedNodes nodes r, ∀ b ∈ mountedNodes nodes r,
      Unordered (dependencies nodes) a b := fun a ha b hb => mounted_unordered hdistinct hr ha hb
  refine ⟨hunordered, ?_⟩
  apply length_le_frontier hdistinct (nodup_mounted hdistinct) ?_ hunordered
  intro id hid
  exact (mounted_node hdistinct hr hid).1

/-- What the scheduler keeps, in memory and on file. -/
structure SchedulerKept (nodes : List BundleNode) (s : SchedulerState) : Prop where
  record : Settled nodes s.record
  saved : Settled nodes s.saved
  integration : MergedInOrder nodes s.integration
  demand : Fits nodes s.record.demand
  saved_demand : Fits nodes s.saved.demand

theorem kept_initial : SchedulerKept nodes .initial := by
  have hfits : Fits nodes [] := ⟨fun _ h => absurd h List.not_mem_nil, Nat.zero_le _⟩
  refine ⟨settled_initial, settled_initial, ?_, hfits, hfits⟩
  intro id h
  cases h

theorem merged_update {status : IntegrationStatus} (hmerged : MergedInOrder nodes integration)
    (hnot : integration id ≠ .integrated)
    (hid : status = .integrated → ∀ dep ∈ depends_on nodes id, integration dep = .integrated) :
    MergedInOrder nodes (Function.update integration id status) := by
  have hkept : ∀ dep, integration dep = .integrated →
      Function.update integration id status dep = .integrated := by
    intro dep hdep
    have hne : dep ≠ id := by
      rintro rfl
      exact hnot hdep
    rw [Function.update_of_ne hne]
    exact hdep
  intro i hi dep hdep
  apply hkept
  by_cases hne : i = id
  · rw [hne] at hi hdep
    rw [Function.update_self] at hi
    exact hid hi dep hdep
  · rw [Function.update_of_ne hne] at hi
    exact hmerged i hi dep hdep

theorem call_not_integrated {call : IntegrationCall} {status status' : IntegrationStatus}
    (h : call.apply status = some status') : status ≠ .integrated ∧ status' ≠ .integrated := by
  unfold IntegrationCall.apply at h
  split at h <;> cases h <;> exact ⟨by decide, by decide⟩

theorem kept_record {record : SchedulerRecord} (hs : SchedulerKept nodes s)
    (hrecord : Settled nodes record) (hdemand : Fits nodes record.demand) :
    SchedulerKept nodes { s with record := record } :=
  ⟨hrecord, hs.saved, hs.integration, hdemand, hs.saved_demand⟩

theorem kept_integration (hs : SchedulerKept nodes s) (hmerged : MergedInOrder nodes integration) :
    SchedulerKept nodes { s with integration := integration } :=
  ⟨hs.record, hs.saved, hmerged, hs.demand, hs.saved_demand⟩

theorem merge_next_ready {ordered : List NodeId}
    (h : merge_next nodes ordered integration = some id) :
    integration id = .integration_ready ∧
      ∀ dep ∈ depends_on nodes id, integration dep = .integrated := by
  unfold merge_next at h
  have hready := (Option.filter_eq_some_iff.mp h).2
  simp only [Bool.and_eq_true, decide_eq_true_eq, List.all_eq_true] at hready
  exact hready

/-- **A step** keeps the dependencies of every node that has begun integrated. -/
theorem kept_step (hdistinct : (node_ids nodes).Nodup) (maximum : ℕ) (ordered : List NodeId)
    (hs : SchedulerKept nodes s) (c : SchedulerStep) :
    SchedulerKept nodes (s.step nodes maximum ordered c) := by
  cases c with
  | mount =>
    have hfits := mounted_fits hdistinct hs.record
    refine kept_record hs ⟨hs.record.begun, ?_⟩ hfits
    intro id hid
    exact (mounted_node hdistinct hs.record hid).2.2
  | submit id reviewer result captured =>
    unfold SchedulerState.step
    dsimp only
    split
    · rename_i hguard
      have hnot : s.record.status id ≠ .integrated := by
        rw [hguard.2]
        decide
      exact kept_record hs
        (settled_setStatus hs.record (hs.record.mounted id hguard.1) hnot) hs.demand
    · exact hs
  | reconcile id reviewer result captured =>
    unfold SchedulerState.step
    dsimp only
    split
    · rename_i hpending
      have hcreated : s.record.status id ≠ .created := by
        intro heq
        simp [heq, NodeStatus.pending] at hpending
      have hnot : s.record.status id ≠ .integrated := by
        intro heq
        simp [heq, NodeStatus.pending] at hpending
      exact kept_record hs
        (settled_setStatus hs.record (hs.record.begun id hcreated) hnot) hs.demand
    · exact hs
  | call id call =>
    unfold SchedulerState.step
    dsimp only
    split
    · rename_i status hcall
      obtain ⟨hbefore, hafter⟩ := call_not_integrated hcall
      exact kept_integration hs (merged_update hs.integration hbefore fun heq => absurd heq hafter)
    · exact hs
  | merge =>
    unfold SchedulerState.step
    dsimp only
    split
    · rename_i id hnext
      obtain ⟨hready, hdeps⟩ := merge_next_ready hnext
      have hnot : s.integration id ≠ .integrated := by
        rw [hready]
        decide
      exact kept_integration hs (merged_update hs.integration hnot fun _ => hdeps)
    · exact hs
  | sync => exact kept_record hs (settled_sync hs.record hs.integration) hs.demand
  | save => exact ⟨hs.record, hs.record, hs.integration, hs.demand, hs.demand⟩
  | stop => exact ⟨hs.saved, hs.saved, hs.integration, hs.saved_demand, hs.saved_demand⟩

theorem kept_run (hdistinct : (node_ids nodes).Nodup) (maximum : ℕ) (ordered : List NodeId)
    (steps : List SchedulerStep) (hs : SchedulerKept nodes s) :
    SchedulerKept nodes (s.run nodes maximum ordered steps) := by
  induction steps generalizing s with
  | nil => exact hs
  | cons c steps ih => exact ih (kept_step hdistinct maximum ordered hs c)

theorem frontier_within_capacity {capacity : Capacity}
    (h : validate_capacity nodes capacity = .ok ()) :
    (widest_dependency_frontier nodes).length ≤ capacity.max_parallel_workgroups := by
  unfold validate_capacity at h
  simp only [bind_ok, refuseIf_ok, not_lt] at h
  obtain ⟨_, hparallel, _⟩ := h
  exact hparallel

/-- Nodes that do not depend on one another, no more than the widest frontier has and than may
run at one time. -/
structure WithinCapacity (nodes : List BundleNode) (capacity : Capacity) (ids : List NodeId) :
    Prop where
  unordered : ∀ a ∈ ids, ∀ b ∈ ids, Unordered (dependencies nodes) a b
  width : ids.length ≤ (widest_dependency_frontier nodes).length
  parallel : ids.length ≤ capacity.max_parallel_workgroups

theorem visited_of_valid (h : validate_dependencies nodes = .ok ()) :
    nodes ≠ [] ∧ (∀ node ∈ nodes, ∀ id ∈ node.depends_on, id ∈ node_ids nodes) ∧
      ∃ after, (node_ids (ordered_nodes nodes)).foldlM (visit (dependencies nodes) []) [] =
        .ok after := by
  unfold validate_dependencies at h
  simp only [bind_ok, refuseIf_ok] at h
  obtain ⟨_, hsome, _, hknown, h⟩ := h
  refine ⟨hsome, by simpa using hknown, ?_⟩
  split at h
  · cases h
  · exact ⟨_, ‹_›⟩

theorem mem_ordered_ids : id ∈ node_ids (ordered_nodes nodes) ↔ id ∈ node_ids nodes :=
  ((List.perm_insertionSort _ nodes).map _).mem_iff

theorem node_of_depends {dep : NodeId} (h : dep ∈ (dependencies nodes).of id) :
    id ∈ node_ids nodes := by
  have hknown := known_of_mem_of (dependencies nodes) h
  unfold dependencies at hknown
  rw [List.map_map] at hknown
  exact hknown

/-- **The dependencies that are accepted are those without a cycle**, of at least one node and of
known nodes only; the ids are distinct.
SOURCE: lib/cli/services/loop_orchestration_bundle.py:623-651 -/
theorem validate_dependencies_iff (nodes : List BundleNode) :
    validate_dependencies nodes = .ok () ↔
      nodes ≠ [] ∧ (∀ node ∈ nodes, ∀ id ∈ node.depends_on, id ∈ node_ids nodes) ∧
        ∀ id, ¬ Relation.TransGen (DependsOn (dependencies nodes)) id id := by
  have hknown : ∀ id, (dependencies nodes).of id ≠ [] → id ∈ node_ids (ordered_nodes nodes) := by
    intro id hid
    obtain ⟨dep, hdep⟩ := List.exists_mem_of_ne_nil _ hid
    exact mem_ordered_ids.mpr (node_of_depends hdep)
  rw [← visit_all_iff _ hknown]
  constructor
  · exact visited_of_valid
  · rintro ⟨hsome, hknown, after, hafter⟩
    unfold validate_dependencies
    have hnone : ¬ ∃ node ∈ nodes, ∃ id ∈ node.depends_on, id ∉ node_ids nodes := by
      rintro ⟨node, hnode, id, hid, hunknown⟩
      exact hunknown (hknown node hnode id hid)
    simp only [bind_ok, refuseIf_ok]
    exact ⟨(), hsome, (), hnone, by rw [hafter]⟩

/-- **A loop does not stall**: while not all nodes are integrated, one is at work or has failed, or
one is ready.
SOURCE: lib/cli/services/multi_workgroup_scheduler.py:112-170, 330-345 -/
theorem scheduler_never_stalls {scopes_overlap : Scope → Scope → Bool} {capacity : Capacity}
    (bundle : AcceptedBundle scopes_overlap capacity) (r : SchedulerRecord) :
    (∀ id ∈ node_ids bundle.nodes, r.status id = .integrated) ∨
      (∃ id ∈ node_ids bundle.nodes, r.status id ≠ .created ∧ r.status id ≠ .integrated) ∨
      ready_frontier bundle.nodes r ≠ [] := by
  obtain ⟨_, hknown, after, hafter⟩ := visited_of_valid bundle.dependencies_valid
  obtain ⟨hsequenced, hitems⟩ := sequenced_of_visits hafter
  by_contra hstalls
  push Not at hstalls
  obtain ⟨⟨id, hid, hleft⟩, hidle, hready⟩ := hstalls
  -- a node that is not integrated, while all that it depends on are
  obtain ⟨first, hfirst, hdeps⟩ := hsequenced.exists_first
    (p := fun id => id ∈ node_ids bundle.nodes → r.status id = .integrated)
    (hitems id (mem_ordered_ids.mpr hid)) fun h => hleft (h hid)
  obtain ⟨hmem, hnot⟩ := Classical.not_imp.mp hfirst
  obtain ⟨node, hnode, rfl⟩ := List.mem_map.mp hmem
  have hcreated : r.status node.node_id = .created :=
    by_contra fun hne => hnot (hidle _ hmem hne)
  have hmerged : ∀ dep ∈ node.depends_on, r.status dep = .integrated := by
    intro dep hdep
    apply hdeps dep
    · rwa [← depends_on_node bundle.distinct hnode] at hdep
    · exact hknown node hnode dep hdep
  have hfrontier : node.node_id ∈ ready_frontier bundle.nodes r := by
    unfold ready_frontier
    apply List.mem_map_of_mem
    simpa [hnode, hcreated] using hmerged
  rw [hready] at hfrontier
  exact List.not_mem_nil hfrontier

/-- **Nothing begins before what it depends on**, in every state of every run: a node that is at
work or mounted has its dependencies integrated in the scheduler's record, and a merged node has
everything that it depends on, directly or not, merged in the integration's.
SOURCE: lib/cli/services/workgroup_integration/service.py:681-700, 2325-2329 -/
theorem dependencies_integrated_first {scopes_overlap : Scope → Scope → Bool} {capacity : Capacity}
    (bundle : AcceptedBundle scopes_overlap capacity) (maximum : ℕ) (ordered : List NodeId)
    (steps : List SchedulerStep) :
    let final := SchedulerState.initial.run bundle.nodes maximum ordered steps
    (∀ id, final.record.status id ≠ .created ∨ id ∈ final.record.demand →
      ∀ dep ∈ depends_on bundle.nodes id, final.record.status dep = .integrated) ∧
    ∀ id dep, Relation.TransGen (DependsOn (dependencies bundle.nodes)) id dep →
      final.integration id = .integrated → final.integration dep = .integrated := by
  intro final
  have hkept : SchedulerKept bundle.nodes final :=
    kept_run bundle.distinct maximum ordered steps kept_initial
  refine ⟨fun id h => h.elim (hkept.record.begun id) (hkept.record.mounted id), ?_⟩
  intro id dep hpath hmerged
  induction hpath with
  | single hstep => exact hkept.integration id hmerged _ hstep
  | tail _ hstep ih => exact hkept.integration _ ih _ hstep

/-- **Mounted workgroups are independent and within capacity**, in every state of every run:
the nodes that are ready or at work, and those that the topology was last asked to mount. -/
theorem mounted_within_capacity {scopes_overlap : Scope → Scope → Bool} {capacity : Capacity}
    (bundle : AcceptedBundle scopes_overlap capacity) (maximum : ℕ) (ordered : List NodeId)
    (steps : List SchedulerStep) :
    WithinCapacity bundle.nodes capacity (mountedNodes bundle.nodes
      (SchedulerState.initial.run bundle.nodes maximum ordered steps).record) ∧
    WithinCapacity bundle.nodes capacity
      (SchedulerState.initial.run bundle.nodes maximum ordered steps).record.demand := by
  have hinitial : SchedulerKept bundle.nodes .initial := kept_initial
  have hkept := kept_run bundle.distinct maximum ordered steps hinitial
  have hcapacity := frontier_within_capacity bundle.capacity_valid
  have hwithin : ∀ ids, Fits bundle.nodes ids → WithinCapacity bundle.nodes capacity ids := by
    intro ids hfits
    exact ⟨hfits.unordered, hfits.width, hfits.width.trans hcapacity⟩
  exact ⟨hwithin _ (mounted_fits bundle.distinct hkept.record), hwithin _ hkept.demand⟩

def nodeA : NodeId := ⟨asciiText "a", by decide⟩

def nodeB : NodeId := ⟨asciiText "b", by decide⟩

def nodeC : NodeId := ⟨asciiText "c", by decide⟩

def exampleNode (id : NodeId) (depends_on : List NodeId) : BundleNode :=
  { node_id := id
    worker_profile := asciiText "coder"
    reviewer_profile := asciiText "code_reviewer"
    depends_on := depends_on
    allowed_paths := []
    integration_order := 1 }

def exampleNodes : List BundleNode :=
  [exampleNode nodeA [], exampleNode nodeB [], exampleNode nodeC [nodeA]]

def exampleCapacity : Capacity :=
  { max_parallel_workgroups := 2
    max_active_dynamic_agents := 4
    dynamic_profiles := (Dict.empty.set (asciiText "coder") 2).set (asciiText "code_reviewer") 2
    profile_aliases := Dict.empty }

theorem example_dependencies : validate_dependencies exampleNodes = .ok () := by
  have hsorted : node_ids (ordered_nodes exampleNodes) = [nodeA, nodeB, nodeC] := by decide
  have ha : visit (dependencies exampleNodes) [] [] nodeA = .ok [nodeA] :=
    visit_visited _ (by decide) (by decide) (by decide)
  have hb : visit (dependencies exampleNodes) [] [nodeA] nodeB = .ok [nodeB, nodeA] :=
    visit_visited _ (by decide) (by decide) (by decide)
  have hc : visit (dependencies exampleNodes) [] [nodeB, nodeA] nodeC =
      .ok [nodeC, nodeB, nodeA] := visit_visited _ (by decide) (by decide) (by decide)
  have hvisits : [nodeA, nodeB, nodeC].foldlM (visit (dependencies exampleNodes) []) [] =
      .ok [nodeC, nodeB, nodeA] := by
    simp only [List.foldlM_cons, ha, hb, hc, List.foldlM_nil, bind, Except.bind, pure, Except.pure]
  unfold validate_dependencies
  rw [hsorted, hvisits]
  decide

theorem example_independent : independent exampleNodes nodeA nodeB := by
  have ha : (dependencies exampleNodes).of nodeA = [] := by decide
  have hb : (dependencies exampleNodes).of nodeB = [] := by decide
  constructor
  · rw [reaches, ha, reachesFrom]
  · rw [reaches, hb, reachesFrom]

theorem example_dependent : ¬ independent exampleNodes nodeA nodeC := by
  rintro ⟨-, hreaches⟩
  have hc : (dependencies exampleNodes).of nodeC = [nodeA] := by decide
  rw [reaches, hc, reachesFrom, if_pos rfl] at hreaches
  cases hreaches

theorem example_widest :
    widest_dependency_frontier exampleNodes = [exampleNode nodeA [], exampleNode nodeB []] := by
  have hordered : ordered_nodes exampleNodes = exampleNodes := by decide
  have hall : combinations 3 exampleNodes = [exampleNodes] := by decide
  have htwo : combinations 2 exampleNodes = [exampleNode nodeA [], exampleNode nodeB []] ::
    (combinations 2 exampleNodes).tail := by decide
  unfold widest_dependency_frontier widest
  rw [hordered]
  show widestUpTo _ _ 3 = _
  unfold widestUpTo
  rw [hall, List.find?_cons_of_neg, List.find?_nil]
  · show widestUpTo _ _ 2 = _
    unfold widestUpTo
    rw [htwo, List.find?_cons_of_pos]
    exact decide_eq_true (List.pairwise_pair.mpr example_independent)
  · rw [decide_eq_true_iff]
    intro hpairwise
    exact example_dependent ((List.pairwise_cons.mp hpairwise).1 (exampleNode nodeC [nodeA])
      (by decide))

theorem example_capacity : validate_capacity exampleNodes exampleCapacity = .ok () := by
  unfold validate_capacity
  rw [example_widest]
  decide

/-- Three nodes, of which the last depends on the first, with room for two. -/
def exampleBundle : AcceptedBundle (fun _ _ => false) exampleCapacity where
  nodes := exampleNodes
  distinct := by decide
  dependencies_valid := example_dependencies
  scopes_valid := by
    unfold validate_parallel_scopes
    rw [refuseIf_ok, not_not]
    exact List.pairwise_of_forall fun _ _ _ _ _ _ _ => rfl
  capacity_valid := example_capacity

/-- The first node is integrated, and the frontier mounted again. -/
def exampleSteps : List SchedulerStep :=
  .mount :: [IntegrationCall.prepare_node, .prepare_node, .capture_review_input,
    .record_review true, .commit_intent, .finalize_node].map (.call nodeA) ++
      [.merge, .sync, .mount]

theorem mounted_within_capacity_dependent :
    (SchedulerState.initial.run exampleNodes 1 [nodeA, nodeB, nodeC] exampleSteps).record.demand =
        [nodeB, nodeC] ∧ WithinCapacity exampleNodes exampleCapacity [nodeB, nodeC] := by
  have hdemand : (SchedulerState.initial.run exampleNodes 1 [nodeA, nodeB, nodeC]
      exampleSteps).record.demand = [nodeB, nodeC] := by
    decide
  refine ⟨hdemand, ?_⟩
  rw [← hdemand]
  exact (mounted_within_capacity exampleBundle 1 [nodeA, nodeB, nodeC] exampleSteps).2

end ClaudeCodeBridge.Analysis.Workgroup
