import ClaudeCodeBridge.Analysis.PatchTopologies

/-!
# The windows of a plan that is not blocked

Of a window that stays, the agents before are the first ones after, or the agents after are those
before that are still there (`window_cases`).  In the first case the agents that come are appended
in the order of the new topology; in the second one nobody comes.
-/

set_option autoImplicit false

namespace ClaudeCodeBridge.Analysis.ReloadPatch

open Program
open Model.ReloadPatch

variable {old new : Topology} {old_window new_window : WindowPlan} {item : MovedAgent}
  {agent : Text} {excluded : List Text}

theorem all_blocked_eq_nil {parts : List PatchSteps} :
    (PatchSteps.all parts).blocked = [] ↔ ∀ part ∈ parts, part.blocked = [] := by
  unfold PatchSteps.all
  rw [List.flatMap_eq_nil_iff]

theorem append_plan_cases {append_plan : List AppendAgentPlan}
    (h : append_agent_plan_for_window old_window new_window = some append_plan) :
    (append_plan = [] ∧ (old_window.agent_names = new_window.agent_names ∨
        new_window.agent_names.length < old_window.agent_names.length)) ∨
      old_window.agent_names ++ append_plan.map AppendAgentPlan.agent = new_window.agent_names := by
  unfold append_agent_plan_for_window at h
  dsimp only at h
  split at h
  · rename_i hsame
    cases h
    exact Or.inl ⟨rfl, Or.inl hsame⟩
  split at h
  · rename_i hshorter
    cases h
    exact Or.inl ⟨rfl, Or.inr hshorter⟩
  split at h
  · cases h
  rename_i htake
  rw [not_not] at htake
  cases hplan : rightmost_leaf_append_plan old_window new_window with
  | none =>
    rw [hplan] at h
    cases h
  | some found =>
    simp only [hplan] at h
    split at h
    · cases h
    · rename_i hdrop
      rw [not_not] at hdrop
      cases h
      right
      rw [hdrop]
      nth_rewrite 1 [← htake]
      exact List.take_append_drop _ _

theorem additive_cases
    (h : (additive_steps_for_window excluded old_window new_window).blocked = []) :
    (∃ append_plan : List AppendAgentPlan,
        old_window.agent_names ++ append_plan.map AppendAgentPlan.agent = new_window.agent_names ∧
        (additive_steps_for_window excluded old_window new_window).steps =
          append_steps new_window.name excluded old_window.agent_names.getLast? append_plan) ∨
      new_window.agent_names.length < old_window.agent_names.length ∧
        (additive_steps_for_window excluded old_window new_window).steps = [] := by
  unfold additive_steps_for_window at h ⊢
  dsimp only at h ⊢
  by_cases hsame : old_window.agent_names = new_window.agent_names
  · left
    refine ⟨[], ?_, ?_⟩
    · rw [List.map_nil, List.append_nil, hsame]
    · rw [if_pos hsame, append_steps]
      rfl
  rw [if_neg hsame] at h ⊢
  by_cases hshorter : new_window.agent_names.length < old_window.agent_names.length
  · right
    rw [if_pos hshorter]
    exact ⟨hshorter, rfl⟩
  rw [if_neg hshorter] at h ⊢
  split at h
  · cases h
  rename_i htake
  rw [if_neg htake]
  cases hplan : append_agent_plan_for_window old_window new_window with
  | none =>
    rw [hplan] at h
    cases h
  | some append_plan =>
    left
    obtain ⟨_, hsame' | hshorter'⟩ | happend := append_plan_cases hplan
    · exact absurd hsame' hsame
    · exact absurd hshorter' hshorter
    · exact ⟨append_plan, happend, rfl⟩

/-- The agents that are killed in a window that stays. -/
def removed_agents (excluded : List Text) (old_window new_window : WindowPlan) : List Text :=
  old_window.agent_names.filter fun agent =>
    agent ∉ new_window.agent_names ∧ agent ∉ excluded

theorem remove_agent_cases
    (h : (remove_agent_steps_for excluded old_window new_window).blocked = []) :
    (remove_agent_steps_for excluded old_window new_window).steps =
        ((removed_agents excluded old_window new_window).map fun agent =>
          .kill_agent_pane old_window.name agent) ∧
      (removed_agents excluded old_window new_window ≠ [] →
        old_window.agent_names.filter (· ∈ new_window.agent_names) = new_window.agent_names) := by
  unfold remove_agent_steps_for at h ⊢
  dsimp only at h ⊢
  change (if removed_agents excluded old_window new_window = [] then _ else _ :
    PatchSteps).blocked = [] at h
  change (if removed_agents excluded old_window new_window = [] then _ else _ :
    PatchSteps).steps = _ ∧ _
  split at h
  · rename_i hnone
    rw [if_pos hnone, hnone]
    exact ⟨rfl, fun hsome => absurd rfl hsome⟩
  split at h
  · cases h
  rename_i hsome horder
  rw [if_neg hsome, if_neg horder]
  exact ⟨rfl, fun _ => not_not.mp horder⟩

/-- A window that does not stay: what is left in it is killed, and then the window. -/
theorem remove_window_cases (hkind : old_window.kind ≠ .tool)
    (hgone : window_of new old_window.name = none)
    (h : (remove_steps_for_window new excluded old_window).blocked = []) :
    (remove_steps_for_window new excluded old_window).steps =
      ((old_window.agent_names.filter (· ∉ excluded)).map fun agent =>
        .kill_agent_pane old_window.name agent) ++ [.kill_window old_window.name] := by
  unfold remove_steps_for_window at h ⊢
  simp only [hgone, if_neg hkind] at h ⊢
  split at h
  · rename_i hall
    rw [if_pos hall]
    have hnone : old_window.agent_names.filter (· ∉ excluded) = [] := by
      rw [List.filter_eq_nil_iff]
      intro agent hagent
      simp [hall.2 hagent]
    rw [hnone]
    rfl
  split at h
  · cases h
  rename_i hall hany
  rw [if_neg hall, if_neg hany]
  have hkept : old_window.agent_names.filter (· ∉ excluded) = old_window.agent_names := by
    rw [List.filter_eq_self]
    intro agent hagent
    by_contra hexcluded
    apply hany
    rw [List.any_eq_true]
    exact ⟨agent, hagent, by simpa using hexcluded⟩
  rw [hkept]
  unfold remove_window_steps at h ⊢
  split at h
  · cases h
  · rename_i hagents
    rw [if_neg hagents]
    rfl

structure Movable (old new : Topology) (item : MovedAgent) : Prop where
  steps : (move_agent_step old new (moved_agents old new) item).steps =
    [.move_agent_pane item.source_window item.target_window item.agent]
  source : ∀ old_source new_source, window_of old item.source_window = some old_source →
    window_of new item.source_window = some new_source →
      old_source.agent_names.filter
        (· ∉ moved_by_source item.source_window (moved_agents old new)) = new_source.agent_names
  created : ∀ new_target, window_of old item.target_window = none →
    window_of new item.target_window = some new_target →
      new_target.agent_names.take
          (moved_by_target item.target_window (moved_agents old new)).length =
        moved_by_target item.target_window (moved_agents old new)
  appended : ∀ old_target new_target, window_of old item.target_window = some old_target →
    window_of new item.target_window = some new_target →
      ∃ append_plan, append_agent_plan_for_window old_target new_target = some append_plan ∧
        item.agent ∈ append_plan.map AppendAgentPlan.agent

theorem move_target_cases {moved : List MovedAgent} {new_target : WindowPlan}
    (h : (move_agent_target old moved item new_target).blocked = []) :
    (move_agent_target old moved item new_target).steps =
        [.move_agent_pane item.source_window item.target_window item.agent] ∧
      (window_of old item.target_window = none →
        new_target.agent_names.take (moved_by_target item.target_window moved).length =
          moved_by_target item.target_window moved) ∧
      ∀ old_target, window_of old item.target_window = some old_target →
        ∃ append_plan, append_agent_plan_for_window old_target new_target = some append_plan ∧
          item.agent ∈ append_plan.map AppendAgentPlan.agent := by
  unfold move_agent_target at h ⊢
  cases htarget : window_of old item.target_window with
  | none =>
    simp only [htarget] at h ⊢
    split at h
    · cases h
    rename_i hstart
    rw [if_neg hstart]
    rw [not_or, not_or, not_not] at hstart
    exact ⟨rfl, fun _ => hstart.2.1, fun _ habsent => by cases habsent⟩
  | some old_target =>
    simp only [htarget] at h ⊢
    cases hplan : append_agent_plan_for_window old_target new_target with
    | none =>
      rw [hplan] at h
      cases h
    | some append_plan =>
      simp only [hplan] at h ⊢
      split at h
      · cases h
      rename_i hmem
      rw [if_neg hmem]
      refine ⟨rfl, fun habsent => absurd habsent (Option.some_ne_none _), fun other hother => ?_⟩
      cases hother
      exact ⟨append_plan, hplan, not_not.mp hmem⟩

/-- A move that is not blocked is what its target makes of it, and the source keeps its order. -/
theorem move_source_cases (hsource : (window_of old item.source_window).isSome)
    (h : (move_agent_step old new (moved_agents old new) item).blocked = []) :
    (∃ new_target, window_of new item.target_window = some new_target ∧
      move_agent_step old new (moved_agents old new) item =
        move_agent_target old (moved_agents old new) item new_target) ∧
      ∀ old_source new_source, window_of old item.source_window = some old_source →
        window_of new item.source_window = some new_source →
          old_source.agent_names.filter
              (· ∉ moved_by_source item.source_window (moved_agents old new)) =
            new_source.agent_names := by
  obtain ⟨old_source, hold⟩ := Option.isSome_iff_exists.mp hsource
  unfold move_agent_step at h ⊢
  simp only [hold] at h ⊢
  cases hnew : window_of new item.source_window with
  | none =>
    simp only [hnew] at h ⊢
    split at h
    · cases h
    rename_i hall
    rw [if_neg hall]
    cases htarget : window_of new item.target_window with
    | none =>
      rw [htarget] at h
      cases h
    | some new_target =>
      exact ⟨⟨new_target, rfl, rfl⟩,
        fun _ _ _ hpresent => absurd hpresent.symm (Option.some_ne_none _)⟩
  | some new_source =>
    cases htarget : window_of new item.target_window with
    | none =>
      simp only [hnew, htarget] at h
      cases h
    | some new_target =>
      simp only [hnew, htarget] at h ⊢
      split at h
      · cases h
      rename_i horder
      rw [if_neg horder]
      refine ⟨⟨new_target, rfl, rfl⟩, fun source other hpresent hother => ?_⟩
      rw [Option.some.injEq] at hpresent hother
      rw [← hpresent, ← hother]
      exact not_not.mp horder

theorem movable_of_unblocked (hsource : (window_of old item.source_window).isSome)
    (h : (move_agent_step old new (moved_agents old new) item).blocked = []) :
    Movable old new item := by
  obtain ⟨⟨new_target, htarget, hstep⟩, hkept⟩ := move_source_cases hsource h
  rw [hstep] at h
  obtain ⟨hsteps, hcreated, happended⟩ := move_target_cases h
  refine { steps := hstep ▸ hsteps, source := hkept, created := ?_, appended := ?_ }
  · intro other habsent hother
    rw [htarget, Option.some.injEq] at hother
    rw [← hother]
    exact hcreated habsent
  · intro old_target other hpresent hother
    rw [htarget, Option.some.injEq] at hother
    rw [← hother]
    exact happended old_target hpresent

/-- The parts of the plan that compare the windows are not blocked. -/
structure Unblocked (old new : Topology) : Prop where
  moves : (move_agent_steps old new).blocked = []
  additions : (additive_agent_steps old new (movers old new)).blocked = []
  removals : (remove_agent_steps old new (movers old new)).blocked = []

section

variable (hold : Valid old) (hnew : Valid new) (hu : Unblocked old new)
include hold hnew hu

omit hold hnew in
theorem movable (hitem : item ∈ moved_agents old new) : Movable old new item := by
  apply movable_of_unblocked
  · obtain ⟨_, _, _, hsource, _⟩ := mem_moved_agents.mp hitem
    obtain ⟨window, hwindow, _, hname⟩ := mem_of_agent_window hsource
    rw [window_of_isSome_iff, ← hname]
    exact List.mem_map_of_mem hwindow
  · apply all_blocked_eq_nil.mp hu.moves
    exact List.mem_map_of_mem hitem

variable (hold_window : old_window ∈ old) (hnew_window : new_window ∈ new)
  (hname : old_window.name = new_window.name)
include hold_window hnew_window hname

theorem shrinks (hshorter : new_window.agent_names.length < old_window.agent_names.length) :
    old_window.agent_names.filter (· ∈ new_window.agent_names) = new_window.agent_names := by
  have hold_found := hold.window_of hold_window
  have hnew_found := hnew.window_of hnew_window
  by_cases hmoved : ∃ agent ∈ old_window.agent_names, agent ∈ movers old new
  · obtain ⟨agent, hagent, hmover⟩ := hmoved
    obtain ⟨item, hitem, rfl⟩ := List.mem_map.mp hmover
    obtain ⟨_, _, _, hsource, _⟩ := mem_moved_agents.mp hitem
    rw [hold.agent_window hold_window hagent, Option.some.injEq] at hsource
    have horder := (movable hu hitem).source old_window new_window
    rw [← hsource] at horder
    have hkept := horder hold_found (hname ▸ hnew_found)
    refine Eq.trans (List.filter_congr fun other hother => ?_) hkept
    rw [Bool.eq_iff_iff, decide_eq_true_eq, ← hkept, List.mem_filter]
    simp [hother]
  · have hremoved : removed_agents (movers old new) old_window new_window ≠ [] := by
      intro hnone
      unfold removed_agents at hnone
      rw [List.filter_eq_nil_iff] at hnone
      have hsub : old_window.agent_names ⊆ new_window.agent_names := by
        intro agent hagent
        by_contra habsent
        exact hnone agent hagent (decide_eq_true ⟨habsent, fun hmover =>
          hmoved ⟨agent, hagent, hmover⟩⟩)
      exact hshorter.not_ge ((hold.nodup hold_window).subperm hsub).length_le
    have hpart := all_blocked_eq_nil.mp hu.removals _ (List.mem_map_of_mem hold_window)
    unfold remove_steps_for_window at hpart
    simp only [hname, hnew_found] at hpart
    exact (remove_agent_cases hpart).2 hremoved

theorem window_cases :
    (∃ append_plan : List AppendAgentPlan,
        old_window.agent_names ++ append_plan.map AppendAgentPlan.agent = new_window.agent_names ∧
        (additive_steps_for_window (movers old new) old_window new_window).steps =
          append_steps new_window.name (movers old new) old_window.agent_names.getLast?
            append_plan) ∨
      old_window.agent_names.filter (· ∈ new_window.agent_names) = new_window.agent_names ∧
        (additive_steps_for_window (movers old new) old_window new_window).steps = [] := by
  have hpart := all_blocked_eq_nil.mp hu.additions _ (List.mem_map_of_mem hnew_window)
  have hold_found := hold.window_of hold_window
  rw [hname] at hold_found
  simp only [hold_found] at hpart
  obtain hgrows | ⟨hshorter, hsteps⟩ := additive_cases hpart
  · exact Or.inl hgrows
  · exact Or.inr ⟨shrinks hold hnew hu hold_window hnew_window hname hshorter, hsteps⟩

end

end ClaudeCodeBridge.Analysis.ReloadPatch
