import ClaudeCodeBridge.Model.NamespacePatches

/-!
# Topologies and the agents that move

The windows of a valid topology have distinct names, and no agent is in two of them (`Valid`).
An agent that both topologies have moves if its windows have different names
(`mem_moved_agents`), so the agents that move to a window of the new topology are those of its
agents that move at all, in its order (`moved_by_target_window`).
-/

set_option autoImplicit false

namespace ClaudeCodeBridge.Analysis.ReloadPatch

open Program
open Model.ReloadPatch

variable {topology old new : Topology} {window old_window new_window : WindowPlan}
  {name agent : Text}

structure Valid (topology : Topology) : Prop where
  names : (topology.map WindowPlan.name).Nodup
  agents : (topology.flatMap WindowPlan.agent_names).Nodup
  tools : ∀ window ∈ topology, window.kind = .tool → window.agent_names = []

theorem valid_build_namespace_topology_plan (config : ProjectConfig) :
    Valid (build_namespace_topology_plan config) := by
  unfold build_namespace_topology_plan
  refine ⟨?_, ?_, ?_⟩
  · simpa [List.map_append, List.map_map, Function.comp_def] using config.names
  · have htools : (config.tool_windows.flatMap fun _ => ([] : List Text)) = [] := by
      simp
    simpa [List.flatMap_append, List.flatMap_map, htools] using config.window_agents
  · intro window hwindow hkind
    simp only [List.mem_append, List.mem_map] at hwindow
    obtain ⟨spec, _, rfl⟩ | ⟨tool, _, rfl⟩ := hwindow
    · cases hkind
    · rfl

theorem mem_agents_build_namespace_topology_plan (config : ProjectConfig) :
    agent ∈ (build_namespace_topology_plan config).flatMap WindowPlan.agent_names ↔
      agent ∈ config.agent_names := by
  rw [ProjectConfig.agent_names, ← config.referenced agent]
  simp [build_namespace_topology_plan, List.flatMap_append, List.flatMap_map]

theorem mem_of_window_of (h : window_of topology name = some window) :
    window ∈ topology ∧ window.name = name := by
  unfold window_of at h
  have hname := List.find?_some h
  simp only [decide_eq_true_eq] at hname
  exact ⟨List.mem_of_find?_eq_some h, hname⟩

theorem mem_of_agent_window (h : agent_window topology agent = some name) :
    ∃ window ∈ topology, agent ∈ window.agent_names ∧ window.name = name := by
  unfold agent_window at h
  obtain ⟨window, hfind, hname⟩ := Option.map_eq_some_iff.mp h
  have hagent := List.find?_some hfind
  simp only [decide_eq_true_eq] at hagent
  exact ⟨window, List.mem_of_find?_eq_some hfind, hagent, hname⟩

theorem window_of_isSome_iff : (window_of topology name).isSome ↔
    name ∈ topology.map WindowPlan.name := by
  unfold window_of
  simp [List.find?_isSome, List.mem_map]

theorem window_of_eq_none_iff : window_of topology name = none ↔
    name ∉ topology.map WindowPlan.name := by
  rw [← window_of_isSome_iff, Option.not_isSome_iff_eq_none]

theorem agent_window_eq_none_iff : agent_window topology agent = none ↔
    agent ∉ topology.flatMap WindowPlan.agent_names := by
  unfold agent_window
  simp [List.mem_flatMap]

section

variable (hv : Valid topology)
include hv

theorem Valid.window_eq {other : WindowPlan} (hwindow : window ∈ topology)
    (hother : other ∈ topology) (hname : other.name = window.name) : other = window :=
  List.inj_on_of_nodup_map hv.names hother hwindow hname

theorem Valid.window_of (hwindow : window ∈ topology) :
    window_of topology window.name = some window := by
  cases hfound : Model.ReloadPatch.window_of topology window.name with
  | none =>
    rw [window_of_eq_none_iff] at hfound
    exact absurd (List.mem_map_of_mem hwindow) hfound
  | some other =>
    obtain ⟨hother, hname⟩ := mem_of_window_of hfound
    rw [hv.window_eq hwindow hother hname]

theorem Valid.agent_eq {other : WindowPlan} (hwindow : window ∈ topology)
    (hother : other ∈ topology) (hagent : agent ∈ window.agent_names)
    (hagent' : agent ∈ other.agent_names) : other = window := by
  by_contra hne
  have hsymm : Std.Symm (Function.onFun List.Disjoint WindowPlan.agent_names) :=
    ⟨fun _ _ hapart => hapart.symm⟩
  have hapart := (List.nodup_flatMap.mp hv.agents).2.forall hother hwindow hne
  exact hapart hagent' hagent

theorem Valid.nodup (hwindow : window ∈ topology) : window.agent_names.Nodup :=
  (List.nodup_flatMap.mp hv.agents).1 window hwindow

theorem Valid.agent_window (hwindow : window ∈ topology) (hagent : agent ∈ window.agent_names) :
    agent_window topology agent = some window.name := by
  cases hfound : Model.ReloadPatch.agent_window topology agent with
  | none =>
    rw [agent_window_eq_none_iff] at hfound
    exact absurd (List.mem_flatMap.mpr ⟨window, hwindow, hagent⟩) hfound
  | some name =>
    obtain ⟨other, hother, hagent', hname⟩ := mem_of_agent_window hfound
    rw [← hname, hv.agent_eq hwindow hother hagent hagent']

end

theorem flatMap_eq_of_mem {α β : Type} {items : List α} {f : α → List β} {x : α}
    (hitems : items.Nodup) (hx : x ∈ items) (hother : ∀ y ∈ items, y ≠ x → f y = []) :
    items.flatMap f = f x := by
  obtain ⟨before, after, rfl⟩ := List.append_of_mem hx
  rw [List.nodup_append, List.nodup_cons] at hitems
  obtain ⟨_, ⟨hx_after, _⟩, hx_before⟩ := hitems
  have hbefore : before.flatMap f = [] := by
    rw [List.flatMap_eq_nil_iff]
    intro y hy
    exact hother y (by simp [hy]) fun heq => hx_before y hy x List.mem_cons_self heq
  have hafter : after.flatMap f = [] := by
    rw [List.flatMap_eq_nil_iff]
    intro y hy
    exact hother y (by simp [hy]) fun heq => hx_after (heq ▸ hy)
  simp [hbefore, hafter]

def movers (old new : Topology) : List Text := (moved_agents old new).map MovedAgent.agent

def moves_to (old : Topology) (window : WindowPlan) : List MovedAgent :=
  window.agent_names.filterMap fun agent =>
    match agent_window old agent with
    | none => none
    | some old_window =>
      if old_window = window.name then none
      else some { agent := agent, source_window := old_window, target_window := window.name }

theorem moved_agents_eq (old new : Topology) : moved_agents old new = new.flatMap (moves_to old) :=
  rfl

theorem mem_moves_to {item : MovedAgent} :
    item ∈ moves_to old window ↔ item.agent ∈ window.agent_names ∧
      agent_window old item.agent = some item.source_window ∧
      item.source_window ≠ window.name ∧ item.target_window = window.name := by
  unfold moves_to
  rw [List.mem_filterMap]
  constructor
  · rintro ⟨agent, hagent, hitem⟩
    cases hsource : agent_window old agent with
    | none =>
      rw [hsource] at hitem
      cases hitem
    | some source =>
      simp only [hsource] at hitem
      split at hitem
      · cases hitem
      · rename_i hne
        cases hitem
        exact ⟨hagent, hsource, hne, rfl⟩
  · rintro ⟨hagent, hsource, hne, htarget⟩
    refine ⟨item.agent, hagent, ?_⟩
    simp only [hsource, if_neg hne]
    rw [← htarget]

theorem mem_moved_agents {item : MovedAgent} :
    item ∈ moved_agents old new ↔ ∃ window ∈ new, item.agent ∈ window.agent_names ∧
      agent_window old item.agent = some item.source_window ∧
      item.source_window ≠ window.name ∧ item.target_window = window.name := by
  rw [moved_agents_eq, List.mem_flatMap]
  simp only [mem_moves_to]

theorem map_agent_moves_to : (moves_to old window).map MovedAgent.agent =
    window.agent_names.filter fun agent =>
      (agent_window old agent).isSome && agent_window old agent != some window.name := by
  unfold moves_to
  generalize window.agent_names = agents
  induction agents with
  | nil => rfl
  | cons agent agents ih =>
    rw [List.filterMap_cons, List.filter_cons]
    cases hsource : agent_window old agent with
    | none => simpa using ih
    | some source =>
      by_cases hname : source = window.name
      · simpa [hname] using ih
      · simpa [hname] using ih

section

variable (hold : Valid old) (hnew : Valid new)
include hnew

theorem mem_movers (hwindow : new_window ∈ new) (hagent : agent ∈ new_window.agent_names) :
    agent ∈ movers old new ↔
      ∃ source, agent_window old agent = some source ∧ source ≠ new_window.name := by
  unfold movers
  rw [List.mem_map]
  constructor
  · rintro ⟨item, hitem, rfl⟩
    obtain ⟨window, hwindow', hagent', hsource, hne, -⟩ := mem_moved_agents.mp hitem
    rw [hnew.agent_eq hwindow hwindow' hagent hagent'] at hne
    exact ⟨item.source_window, hsource, hne⟩
  · rintro ⟨source, hsource, hne⟩
    exact ⟨⟨agent, source, new_window.name⟩,
      mem_moved_agents.mpr ⟨new_window, hwindow, hagent, hsource, hne, rfl⟩, rfl⟩

omit hnew in
theorem movers_sub (hagent : agent ∈ movers old new) :
    agent ∈ new.flatMap WindowPlan.agent_names ∧ agent ∈ old.flatMap WindowPlan.agent_names := by
  obtain ⟨item, hitem, rfl⟩ := List.mem_map.mp hagent
  obtain ⟨window, hwindow, hagent', hsource, -, -⟩ := mem_moved_agents.mp hitem
  refine ⟨List.mem_flatMap.mpr ⟨window, hwindow, hagent'⟩, ?_⟩
  by_contra habsent
  rw [← agent_window_eq_none_iff] at habsent
  rw [habsent] at hsource
  cases hsource

theorem moved_by_target_window (hwindow : new_window ∈ new) :
    moved_by_target new_window.name (moved_agents old new) =
      new_window.agent_names.filter (· ∈ movers old new) := by
  have hblock : (moved_agents old new).filter (fun item => item.target_window = new_window.name) =
      moves_to old new_window := by
    rw [moved_agents_eq, List.filter_flatMap,
      flatMap_eq_of_mem hnew.names.of_map hwindow fun other hother hne => ?_]
    · rw [List.filter_eq_self]
      intro item hitem
      exact decide_eq_true (mem_moves_to.mp hitem).2.2.2
    · rw [List.filter_eq_nil_iff]
      intro item hitem htarget
      have hname := (mem_moves_to.mp hitem).2.2.2.symm.trans (of_decide_eq_true htarget)
      exact hne (hnew.window_eq hwindow hother hname)
  unfold moved_by_target
  rw [hblock, map_agent_moves_to]
  apply List.filter_congr
  intro agent hagent
  rw [Bool.eq_iff_iff, decide_eq_true_eq, mem_movers hnew hwindow hagent]
  cases agent_window old agent with
  | none => simp
  | some source => simp

omit hnew in
theorem moved_by_target_absent (habsent : window_of new name = none) :
    moved_by_target name (moved_agents old new) = [] := by
  unfold moved_by_target
  rw [List.map_eq_nil_iff, List.filter_eq_nil_iff]
  intro item hitem htarget
  obtain ⟨window, hwindow, -, -, -, hname⟩ := mem_moved_agents.mp hitem
  rw [window_of_eq_none_iff, ← of_decide_eq_true htarget, hname] at habsent
  exact habsent (List.mem_map_of_mem hwindow)

theorem not_mem_movers (hold : Valid old) (hold_window : old_window ∈ old)
    (hnew_window : new_window ∈ new) (hname : old_window.name = new_window.name)
    (hagent : agent ∈ old_window.agent_names) (hagent' : agent ∈ new_window.agent_names) :
    agent ∉ movers old new := by
  rw [mem_movers hnew hnew_window hagent']
  rintro ⟨source, hsource, hne⟩
  rw [hold.agent_window hold_window hagent, Option.some.injEq] at hsource
  exact hne (hsource.symm.trans hname)

end

end ClaudeCodeBridge.Analysis.ReloadPatch
