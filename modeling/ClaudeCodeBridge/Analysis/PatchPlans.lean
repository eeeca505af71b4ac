import ClaudeCodeBridge.Program.KeyedSteps
import ClaudeCodeBridge.Analysis.PlannedWindows

/-!
# Patch plans, executed

Each part of a plan takes the windows from one state to the next: windows are made
(`execute_made`), agents move (`execute_moves`), are appended (`execute_appends`) and removed
(`execute_removals`), and tool windows go (`execute_tools`).  All but the moves are steps on one
window each.  No step of a plan puts a pane into a window that stays and has none
(`spares_patch_parts`, `empty_run`), so a plan is realised only if no agent is to come to such a
window (`plan_realises_iff`).
-/

set_option autoImplicit false

namespace ClaudeCodeBridge.Analysis.ReloadPatch

open Program
open Model.ReloadPatch

variable {old new : Topology} {old_window new_window : WindowPlan} {window : Window}
  {item : MovedAgent} {agent name : Text} {agents : List Text} {panes : List AgentPane}
  {step : NamespacePatchStep} {pane : Text → ℕ}

theorem onKey_of_window (h : step.window = some name) :
    OnKey execute_step NamespacePatchStep.on step name := by
  intro windows
  cases step with
  | refresh_project_view => cases h
  | move_agent_pane window target_window agent => cases h
  | _ =>
    rw [NamespacePatchStep.window, Option.some.injEq] at h
    rw [← h]
    rfl

def kept_pane (pane : Text → ℕ) (agent : Text) : AgentPane :=
  { agent := agent, pane := some (pane agent) }

/-- The pane of an agent that the patch has made. -/
def fresh_pane (agent : Text) : AgentPane := { agent := agent, pane := none }

def settled_pane (old : Topology) (pane : Text → ℕ) (agent : Text) : AgentPane :=
  { agent := agent
    pane := if agent ∈ old.flatMap WindowPlan.agent_names then some (pane agent) else none }

theorem settled_pane_kept (h : agent ∈ old.flatMap WindowPlan.agent_names) :
    settled_pane old pane agent = kept_pane pane agent := by
  rw [settled_pane, if_pos h, kept_pane]

theorem settled_pane_fresh (h : agent ∉ old.flatMap WindowPlan.agent_names) :
    settled_pane old pane agent = fresh_pane agent := by
  rw [settled_pane, if_neg h, fresh_pane]

theorem map_settled_kept (h : ∀ agent ∈ agents, agent ∈ old.flatMap WindowPlan.agent_names) :
    agents.map (settled_pane old pane) = agents.map (kept_pane pane) :=
  List.map_congr_left fun agent hagent => settled_pane_kept (h agent hagent)

theorem map_agent_settled (agents : List Text) :
    (agents.map (settled_pane old pane)).map AgentPane.agent = agents := by
  rw [List.map_map]
  exact List.map_id agents

def run_on (steps : List NamespacePatchStep) (window : Option Window) : Option (Option Window) :=
  steps.foldlM (fun window step => step.on window) window

theorem run_on_nil (window : Option Window) : run_on [] window = some window := rfl

variable {steps : List NamespacePatchStep}

theorem run_on_cons {window after : Option Window}
    (h : step.on window = some after) : run_on (step :: steps) window = run_on steps after := by
  rw [run_on, List.foldlM_cons, h]
  rfl

theorem run_on_append {rest : List NamespacePatchStep} {window after : Option Window}
    (h : run_on steps window = some after) : run_on (steps ++ rest) window = run_on rest after := by
  unfold run_on at h ⊢
  rw [List.foldlM_append, h]
  rfl

theorem run_on_create (hmade : window.made = true) :
    run_on (agents.map fun agent => .create_agent_pane name agent none) (some window) =
      some (some { window with panes := window.panes ++ agents.map fresh_pane }) := by
  induction agents generalizing window with
  | nil =>
    rw [List.map_nil, List.map_nil, List.append_nil, run_on_nil]
  | cons agent agents ih =>
    have hstep : (NamespacePatchStep.create_agent_pane name agent none).on (some window) =
        some (some { window with panes := window.panes ++ [fresh_pane agent] }) := by
      rw [NamespacePatchStep.on, Window.create_agent_pane, if_pos hmade]
      rfl
    rw [List.map_cons, run_on_cons hstep, ih (by exact hmade)]
    simp

theorem run_on_kill (hagents : agents.Nodup)
    (hpresent : ∀ agent ∈ agents, agent ∈ window.panes.map AgentPane.agent) :
    run_on (agents.map fun agent => .kill_agent_pane name agent) (some window) =
      some (some { window with panes := window.panes.filter fun pane => pane.agent ∉ agents }) := by
  induction agents generalizing window with
  | nil => simp [run_on_nil]
  | cons agent agents ih =>
    rw [List.nodup_cons] at hagents
    have hstep : (NamespacePatchStep.kill_agent_pane name agent).on (some window) =
        some (some { window with
          panes := window.panes.filter fun pane => pane.agent ≠ agent }) := by
      rw [NamespacePatchStep.on, Window.kill_agent_pane, if_pos (hpresent agent List.mem_cons_self)]
      rfl
    rw [List.map_cons, run_on_cons hstep, ih hagents.2]
    · simp [List.filter_filter, Bool.and_comm]
    · intro other hother
      obtain ⟨found, hfound, rfl⟩ := List.mem_map.mp
        (hpresent other (List.mem_cons_of_mem agent hother))
      refine List.mem_map_of_mem (List.mem_filter.mpr ⟨hfound, decide_eq_true ?_⟩)
      rintro rfl
      exact hagents.1 hother

theorem split_pane_last (before after : List AgentPane) (anchor added : AgentPane)
    (hbefore : ∀ pane ∈ before, pane.agent ≠ anchor.agent) :
    split_pane anchor.agent added (before ++ anchor :: after) =
      some (before ++ anchor :: added :: after) := by
  induction before with
  | nil => simp [split_pane]
  | cons first before ih =>
    rw [List.cons_append, split_pane, if_neg (hbefore first List.mem_cons_self),
      ih fun pane hpane => hbefore pane (List.mem_cons_of_mem first hpane)]
    rfl

theorem on_append {before behind : List Text} {made : Bool} (hbefore : before ≠ [])
    (hnodup : before.Nodup) (hfresh : agent ∉ old.flatMap WindowPlan.agent_names) :
    (NamespacePatchStep.create_agent_pane name agent before.getLast?).on
        (some { panes := (before ++ behind).map (settled_pane old pane), made := made }) =
      some (some { panes := (before ++ agent :: behind).map (settled_pane old pane)
                   made := made }) := by
  obtain hnil | ⟨front, anchor, rfl⟩ := List.eq_nil_or_concat' before
  · exact absurd hnil hbefore
  have hsplit := split_pane_last (front.map (settled_pane old pane))
    (behind.map (settled_pane old pane)) (settled_pane old pane anchor) (fresh_pane agent)
    fun other hother => by
      obtain ⟨agent, hagent, rfl⟩ := List.mem_map.mp hother
      rintro heq
      exact (List.nodup_append.mp hnodup).2.2 agent hagent anchor List.mem_cons_self heq
  rw [List.getLast?_append, List.getLast?_singleton, Option.some_or, NamespacePatchStep.on,
    Window.create_agent_pane]
  simp only [List.append_assoc, List.singleton_append, List.map_append, List.map_cons,
    settled_pane_fresh hfresh]
  change ((split_pane (settled_pane old pane anchor).agent (fresh_pane agent) _).map _).map _ = _
  rw [hsplit]
  rfl

/-- Panes appended to those before, with those that have moved in already behind them. -/
theorem run_on_append_steps {excluded before : List Text} {append_plan : List AppendAgentPlan}
    {made : Bool} (hbefore : before ≠ [])
    (hnodup : (before ++ append_plan.map AppendAgentPlan.agent).Nodup)
    (hfresh : ∀ append ∈ append_plan, append.agent ∉ excluded →
      append.agent ∉ old.flatMap WindowPlan.agent_names) :
    run_on (append_steps name excluded before.getLast? append_plan)
        (some { panes := (before ++ (append_plan.map AppendAgentPlan.agent).filter
                  (· ∈ excluded)).map (settled_pane old pane)
                made := made }) =
      some (some { panes := (before ++ append_plan.map AppendAgentPlan.agent).map
                     (settled_pane old pane)
                   made := made }) := by
  induction append_plan generalizing before with
  | nil => simp [append_steps, run_on_nil]
  | cons append append_plan ih =>
    rw [List.map_cons] at hnodup
    have hsome : before ++ [append.agent] ≠ [] :=
      List.append_ne_nil_of_right_ne_nil before (List.cons_ne_nil _ _)
    have hnext := ih hsome (by rwa [List.append_assoc, List.singleton_append])
      fun other hother => hfresh other (List.mem_cons_of_mem append hother)
    rw [List.getLast?_append, List.getLast?_singleton, Option.some_or] at hnext
    simp only [List.append_assoc, List.singleton_append] at hnext
    rw [append_steps, List.map_cons]
    by_cases hexcluded : append.agent ∈ excluded
    · rw [if_pos hexcluded,
        List.filter_cons_of_pos (p := fun agent => decide (agent ∈ excluded))
          (decide_eq_true hexcluded)]
      exact hnext
    · rw [if_neg hexcluded,
        List.filter_cons_of_neg (p := fun agent => decide (agent ∈ excluded))
          (by simpa using hexcluded),
        run_on_cons (on_append hbefore (List.nodup_append.mp hnodup).1
          (hfresh append List.mem_cons_self hexcluded))]
      exact hnext

/-- The agents that have not moved yet. -/
def staying (moved : List MovedAgent) (agents : List Text) : List Text :=
  agents.filter (· ∉ moved.map MovedAgent.agent)

def moved_windows (old new : Topology) (pane : Text → ℕ) (moved : List MovedAgent) : Windows :=
  fun name =>
    match window_of old name with
    | some old_window =>
      some
        { panes := (staying moved old_window.agent_names ++ moved_by_target name moved).map
            (kept_pane pane)
          made := false }
    | none =>
      (window_of new name).map fun new_window =>
        { panes := (moved_by_target name moved).map (kept_pane pane) ++
            (new_window.agent_names.filter (· ∉ movers old new)).map fresh_pane
          made := true }

def arrivals (new : Topology) (old_window : WindowPlan) : List Text :=
  match window_of new old_window.name with
  | some new_window => new_window.agent_names.filter (· ∉ old_window.agent_names)
  | none => []

def appended_windows (old new : Topology) (pane : Text → ℕ) : Windows := fun name =>
  match window_of old name with
  | some old_window =>
    some
      { panes := (old_window.agent_names.filter (· ∉ movers old new) ++
          arrivals new old_window).map (settled_pane old pane)
        made := false }
  | none =>
    (window_of new name).map fun new_window =>
      { panes := new_window.agent_names.map (settled_pane old pane), made := true }

def left_windows (old new : Topology) (pane : Text → ℕ) (tools : Bool) : Windows := fun name =>
  match window_of new name, window_of old name with
  | some new_window, old_window =>
    some
      { panes := new_window.agent_names.map (settled_pane old pane)
        made := old_window.isNone }
  | none, some old_window =>
    if tools && old_window.kind = .tool then some { panes := [], made := false } else none
  | none, none => none

theorem moved_windows_nil_old (h : window_of old name = some old_window) :
    moved_windows old new pane [] name = windows_of old pane name := by
  simp [moved_windows, windows_of, h, moved_by_target, kept_pane, staying]

theorem run_on_made (habsent : window_of old new_window.name = none)
    (hfound : window_of new new_window.name = some new_window) :
    run_on (additive_window_steps_for old (movers old new) new_window) none =
      some (moved_windows old new pane [] new_window.name) := by
  have hcreated : (NamespacePatchStep.create_window new_window.name).on none =
      some (some { panes := [], made := true }) := rfl
  unfold additive_window_steps_for
  rw [habsent, if_neg (by simp), run_on_cons hcreated, List.append_assoc]
  have hsidebar : run_on (if new_window.sidebar then [.create_sidebar_pane new_window.name] else [])
      (some { panes := [], made := true }) = some (some { panes := [], made := true }) := by
    split
    · exact run_on_cons rfl
    · rfl
  rw [run_on_append hsidebar, run_on_append (run_on_create rfl)]
  have htool : ∀ window, run_on (if new_window.kind = .tool then
      [.create_tool_pane new_window.name] else []) (some window) = some (some window) := by
    intro window
    split
    · exact run_on_cons rfl
    · rfl
  rw [htool]
  simp [moved_windows, habsent, hfound, moved_by_target]

section

variable (hold : Valid old) (hnew : Valid new)

include hnew in
theorem execute_made (old : Topology) (pane : Text → ℕ) :
    execute (additive_window_steps old new (movers old new)) (windows_of old pane) =
      some (moved_windows old new pane []) := by
  refine foldlM_blocks NamespacePatchStep.on hnew.names ?_ ?_ ?_
  · intro window _ step hstep
    apply onKey_of_window
    unfold additive_window_steps_for at hstep
    split at hstep
    · cases hstep
    simp only [List.mem_cons, List.mem_append, List.mem_ite_nil_right, List.mem_map,
      List.not_mem_nil, or_false] at hstep
    obtain rfl | (⟨_, rfl⟩ | ⟨agent, _, rfl⟩) | ⟨_, rfl⟩ := hstep
    all_goals rfl
  · intro window hwindow
    change run_on _ _ = _
    cases hfound : window_of old window.name with
    | none =>
      rw [windows_of, hfound]
      exact run_on_made hfound (hnew.window_of hwindow)
    | some old_window =>
      rw [additive_window_steps_for, hfound, if_pos Option.isSome_some, run_on_nil,
        moved_windows_nil_old hfound]
  · intro name habsent
    cases hfound : window_of old name with
    | none =>
      rw [← window_of_eq_none_iff] at habsent
      simp [moved_windows, windows_of, hfound, habsent]
    | some old_window => exact moved_windows_nil_old hfound

/-! ### Moves -/

include hnew in
theorem nodup_movers (old : Topology) : (movers old new).Nodup := by
  refine List.Sublist.nodup ?_ hnew.agents
  unfold movers
  rw [moved_agents_eq, List.map_flatMap]
  clear hnew
  induction new with
  | nil => exact List.Sublist.refl _
  | cons window new ih =>
    rw [List.flatMap_cons, List.flatMap_cons, map_agent_moves_to]
    exact List.filter_sublist.append ih

/-- A pane moves in behind those that were there before. -/
theorem move_in_kept (pane : Text → ℕ) (agent : Text) (kept fresh : List Text) (made : Bool)
    (h : kept ≠ [] ∨ made = true) :
    Window.move_in (kept_pane pane agent)
        { panes := kept.map (kept_pane pane) ++ fresh.map fresh_pane, made := made } =
      some
        { panes := (kept ++ [agent]).map (kept_pane pane) ++ fresh.map fresh_pane
          made := made } := by
  have hkept : ∀ other ∈ kept.map (kept_pane pane), other.pane.isSome = true := by
    intro other hother
    obtain ⟨_, _, rfl⟩ := List.mem_map.mp hother
    rfl
  have hfresh : (fresh.map fresh_pane).takeWhile (fun other => other.pane.isSome) = [] ∧
      (fresh.map fresh_pane).dropWhile (fun other => other.pane.isSome) = fresh.map fresh_pane := by
    cases fresh with
    | nil | cons first fresh => exact ⟨rfl, rfl⟩
  unfold Window.move_in
  dsimp only
  rw [List.takeWhile_append_of_pos hkept, List.dropWhile_append_of_pos hkept, hfresh.1, hfresh.2,
    if_neg]
  · simp
  · rintro ⟨hpanes, hmade⟩
    obtain hsome | hmade' := h
    · exact hsome (List.map_eq_nil_iff.mp (List.append_eq_nil_iff.mp hpanes).1)
    · exact Bool.noConfusion (hmade.symm.trans hmade')

theorem moved_by_target_append (name : Text) (done : List MovedAgent) (item : MovedAgent) :
    moved_by_target name (done ++ [item]) =
      moved_by_target name done ++ if item.target_window = name then [item.agent] else [] := by
  unfold moved_by_target
  rw [List.filter_append, List.map_append, List.filter_singleton]
  by_cases hname : item.target_window = name
  · simp [hname]
  · simp [hname]

theorem mem_moved_by_target {done : List MovedAgent} (h : agent ∈ moved_by_target name done) :
    agent ∈ done.map MovedAgent.agent := by
  obtain ⟨item, hitem, rfl⟩ := List.mem_map.mp h
  exact List.mem_map_of_mem (List.mem_filter.mp hitem).1

theorem staying_append (done : List MovedAgent) (agents : List Text) (item : MovedAgent) :
    staying (done ++ [item]) agents = (staying done agents).filter (· ≠ item.agent) := by
  unfold staying
  rw [List.filter_filter]
  apply List.filter_congr
  intro other _
  simp [not_or, and_comm]

theorem staying_append_absent {done : List MovedAgent} (habsent : item.agent ∉ agents) :
    staying (done ++ [item]) agents = staying done agents := by
  rw [staying_append, List.filter_eq_self]
  intro other hother
  refine decide_eq_true ?_
  rintro rfl
  exact habsent (List.mem_filter.mp hother).1

theorem find?_kept (pane : Text → ℕ) (h : agent ∈ agents) :
    ((agents.map (kept_pane pane)).find? fun pane => pane.agent = agent) =
      some (kept_pane pane agent) := by
  induction agents with
  | nil => cases h
  | cons first agents ih =>
    rw [List.map_cons, List.find?_cons]
    by_cases hfirst : first = agent
    · simp [kept_pane, hfirst]
    · have hrest := ih ((List.mem_cons.mp h).resolve_left fun heq => hfirst heq.symm)
      simpa [kept_pane, hfirst] using hrest

theorem filter_kept (agents : List Text) (agent : Text) :
    (agents.map (kept_pane pane)).filter (fun other => other.agent ≠ agent) =
      (agents.filter (· ≠ agent)).map (kept_pane pane) := by
  rw [List.filter_map]
  rfl

theorem move_pane_eq {windows : Windows} {source target : Text} {from_window to_window entered :
    Window} {moved : AgentPane} (hsource : windows source = some from_window)
    (hfind : (from_window.panes.find? fun pane => pane.agent = agent) = some moved)
    (hne : source ≠ target) (htarget : windows target = some to_window)
    (henter : to_window.move_in moved = some entered) :
    move_pane source target agent windows =
      some (Function.update
        (Function.update windows source
          (some { from_window with
            panes := from_window.panes.filter fun other => other.agent ≠ agent }))
        target (some entered)) := by
  unfold move_pane
  simp only [hsource, hfind, Function.update_of_ne hne.symm, htarget, henter, Option.map_some]

section

variable (hu : Unblocked old new) (ha : Anchored old new) (hitem : item ∈ moved_agents old new)
include hold hnew hu ha hitem

theorem target_stays (htarget : window_of old item.target_window = some old_window) :
    old_window.agent_names ≠ [] ∧ ∀ agent ∈ old_window.agent_names, agent ∉ movers old new := by
  obtain ⟨window, hwindow, hagent, -, -, hname⟩ := mem_moved_agents.mp hitem
  have hfound := hnew.window_of hwindow
  rw [← hname] at hfound
  refine ⟨ha _ _ _ htarget hfound (List.ne_nil_of_mem hagent), fun agent hagent' => ?_⟩
  obtain ⟨append_plan, hplan, hmem⟩ := (movable hu hitem).appended _ _ htarget hfound
  obtain ⟨hnil, _⟩ | hgrows := append_plan_cases hplan
  · rw [hnil] at hmem
    cases hmem
  obtain ⟨hold_window, hold_name⟩ := mem_of_window_of htarget
  apply not_mem_movers hnew hold hold_window hwindow (hold_name.trans hname) hagent'
  rw [← hgrows]
  exact List.mem_append_left _ hagent'

theorem enter_target (pane : Text → ℕ) {done : List MovedAgent}
    (hdone : ∀ other ∈ done, other ∈ moved_agents old new) :
    ∃ to_window entered, moved_windows old new pane done item.target_window = some to_window ∧
      to_window.move_in (kept_pane pane item.agent) = some entered ∧
      moved_windows old new pane (done ++ [item]) item.target_window = some entered := by
  obtain ⟨window, hwindow, hagent, hsource, hne, hname⟩ := mem_moved_agents.mp hitem
  unfold moved_windows
  rw [moved_by_target_append, if_pos rfl]
  cases hfound : window_of old item.target_window with
  | none =>
    have hnew_found := hnew.window_of hwindow
    rw [← hname] at hnew_found
    rw [hnew_found]
    exact ⟨_, _, rfl, move_in_kept pane item.agent _ _ true (Or.inr rfl), rfl⟩
  | some old_window =>
    obtain ⟨hsome, hstays⟩ := target_stays hold hnew hu ha hitem hfound
    have habsent : item.agent ∉ old_window.agent_names := fun hmem =>
      hstays _ hmem (List.mem_map_of_mem hitem)
    have hall : staying done old_window.agent_names = old_window.agent_names := by
      unfold staying
      rw [List.filter_eq_self]
      intro other hother
      refine decide_eq_true fun hmem => hstays other hother ?_
      obtain ⟨moved, hmoved, rfl⟩ := List.mem_map.mp hmem
      exact List.mem_map_of_mem (hdone moved hmoved)
    have henter := move_in_kept pane item.agent
      (old_window.agent_names ++ moved_by_target item.target_window done) [] false
      (Or.inl (List.append_ne_nil_of_left_ne_nil hsome _))
    simp only [staying_append_absent habsent, hall]
    rw [List.map_nil, List.append_nil, List.append_nil, List.append_assoc] at henter
    exact ⟨_, _, rfl, henter, rfl⟩

theorem execute_move {done : List MovedAgent} (hdone : ∀ other ∈ done, other ∈ moved_agents old new)
    (hfresh : item.agent ∉ done.map MovedAgent.agent) :
    execute_step (moved_windows old new pane done)
        (.move_agent_pane item.source_window item.target_window item.agent) =
      some (moved_windows old new pane (done ++ [item])) := by
  obtain ⟨target, htarget, hagent, hsource, hne, hname⟩ := mem_moved_agents.mp hitem
  obtain ⟨source, hsource_mem, hsource_agent, hsource_name⟩ := mem_of_agent_window hsource
  have hsource_found := hold.window_of hsource_mem
  rw [hsource_name] at hsource_found
  rw [← hname] at hne
  have hleft : moved_windows old new pane done item.source_window =
      some (Window.mk ((staying done source.agent_names ++
        moved_by_target item.source_window done).map (kept_pane pane)) false) := by
    rw [moved_windows, hsource_found]
  have hstaying : item.agent ∈ staying done source.agent_names :=
    List.mem_filter.mpr ⟨hsource_agent, decide_eq_true hfresh⟩
  have hfind := find?_kept pane
    (List.mem_append_left (moved_by_target item.source_window done) hstaying)
  have hother : (staying done source.agent_names ++
        moved_by_target item.source_window done).filter (· ≠ item.agent) =
      staying (done ++ [item]) source.agent_names ++
        moved_by_target item.source_window (done ++ [item]) := by
    rw [List.filter_append, staying_append, moved_by_target_append, if_neg hne.symm,
      List.append_nil]
    congr 1
    rw [List.filter_eq_self]
    intro other hother
    refine decide_eq_true ?_
    rintro rfl
    exact hfresh (mem_moved_by_target hother)
  obtain ⟨to_window, entered, hto, henter, hentered⟩ :=
    enter_target hold hnew hu ha hitem pane hdone
  change move_pane _ _ _ _ = _
  rw [move_pane_eq hleft hfind hne hto henter]
  rw [filter_kept, hother]
  congr 1
  funext name
  by_cases hname_target : name = item.target_window
  · rw [hname_target, Function.update_self, hentered]
  rw [Function.update_of_ne hname_target]
  by_cases hname_source : name = item.source_window
  · rw [hname_source, Function.update_self, moved_windows, hsource_found]
  rw [Function.update_of_ne hname_source]
  unfold moved_windows
  rw [moved_by_target_append, if_neg (Ne.symm hname_target), List.append_nil]
  cases hfound : window_of old name with
  | none => rfl
  | some old_window =>
    obtain ⟨hold_window, hold_name⟩ := mem_of_window_of hfound
    have habsent : item.agent ∉ old_window.agent_names := by
      intro hmem
      have hsame := hold.agent_eq hsource_mem hold_window hsource_agent hmem
      rw [hsame, hsource_name] at hold_name
      exact hname_source hold_name.symm
    simp only [staying_append_absent habsent]

end

include hold hnew in
theorem execute_moves (hu : Unblocked old new) (ha : Anchored old new) (pane : Text → ℕ) :
    execute (move_agent_steps old new).steps (moved_windows old new pane []) =
      some (moved_windows old new pane (moved_agents old new)) := by
  suffices hrest : ∀ rest done : List MovedAgent, done ++ rest = moved_agents old new →
      execute (rest.flatMap fun item => (move_agent_step old new (moved_agents old new) item).steps)
          (moved_windows old new pane done) =
        some (moved_windows old new pane (moved_agents old new)) by
    have hall := hrest (moved_agents old new) [] rfl
    unfold move_agent_steps PatchSteps.all
    dsimp only
    rw [List.flatMap_map]
    exact hall
  intro rest
  induction rest with
  | nil =>
    intro done hdone
    rw [List.append_nil] at hdone
    rw [hdone]
    rfl
  | cons item rest ih =>
    intro done hdone
    have hitem : item ∈ moved_agents old new := by
      rw [← hdone]
      exact List.mem_append_right done List.mem_cons_self
    have hnodup := nodup_movers hnew old
    unfold movers at hnodup
    rw [← hdone, List.map_append, List.map_cons, List.nodup_append] at hnodup
    have hfresh : item.agent ∉ done.map MovedAgent.agent := fun hmem =>
      hnodup.2.2 item.agent hmem item.agent List.mem_cons_self rfl
    rw [List.flatMap_cons, (movable hu hitem).steps, List.singleton_append, execute,
      List.foldlM_cons, execute_move hold hnew hu ha hitem (fun other hother => ?_) hfresh]
    · exact ih (done ++ [item]) (by rw [List.append_assoc, List.singleton_append, hdone])
    · rw [← hdone]
      exact List.mem_append_left _ hother

/-! ### Appends -/

theorem filter_start {p : Text → Bool}
    (h : agents.take (agents.filter p).length = agents.filter p) :
    agents = agents.filter p ++ agents.filter (fun agent => !p agent) := by
  have hall : ∀ agent ∈ agents.take (agents.filter p).length, p agent = true := by
    rw [h]
    exact fun agent hagent => List.of_mem_filter hagent
  have hfirst : (agents.take (agents.filter p).length).filter p = agents.filter p := by
    rw [List.filter_eq_self.mpr hall, h]
  have hsplit := congrArg (List.filter p) (List.take_append_drop (agents.filter p).length agents)
  rw [List.filter_append, hfirst, List.append_right_eq_self] at hsplit
  have hrest : (agents.drop (agents.filter p).length).filter (fun agent => !p agent) =
      agents.drop (agents.filter p).length := by
    rw [List.filter_eq_self]
    intro agent hagent
    rw [Bool.not_eq_true']
    exact Bool.eq_false_iff.mpr (List.filter_eq_nil_iff.mp hsplit agent hagent)
  have hnone : (agents.take (agents.filter p).length).filter (fun agent => !p agent) = [] := by
    rw [List.filter_eq_nil_iff]
    intro agent hagent
    simp [hall agent hagent]
  have hothers := congrArg (List.filter fun agent => !p agent)
    (List.take_append_drop (agents.filter p).length agents)
  rw [List.filter_append, hnone, List.nil_append, hrest] at hothers
  rw [← hothers]
  conv_lhs => rw [← List.take_append_drop (agents.filter p).length agents, h]

include hnew in
theorem moved_windows_new (hu : Unblocked old new) (hnew_window : new_window ∈ new)
    (habsent : window_of old new_window.name = none) :
    moved_windows old new pane (moved_agents old new) new_window.name =
      appended_windows old new pane new_window.name := by
  have hfound := hnew.window_of hnew_window
  unfold moved_windows appended_windows
  simp only [habsent, hfound, Option.map_some]
  rw [moved_by_target_window hnew hnew_window]
  have hmover : ∀ agent ∈ new_window.agent_names,
      agent ∈ movers old new ↔ agent ∈ old.flatMap WindowPlan.agent_names := by
    intro agent hagent
    refine ⟨fun hmover => (movers_sub hmover).2, fun hthere => ?_⟩
    rw [mem_movers hnew hnew_window hagent]
    cases hsource : agent_window old agent with
    | none => exact absurd hthere (agent_window_eq_none_iff.mp hsource)
    | some source =>
      obtain ⟨window, hwindow, _, hname⟩ := mem_of_agent_window hsource
      refine ⟨source, rfl, ?_⟩
      rintro rfl
      rw [window_of_eq_none_iff, ← hname] at habsent
      exact habsent (List.mem_map_of_mem hwindow)
  have horder : new_window.agent_names =
      new_window.agent_names.filter (· ∈ movers old new) ++
        new_window.agent_names.filter (· ∉ movers old new) := by
    have hstart : new_window.agent_names.take
        (new_window.agent_names.filter (· ∈ movers old new)).length =
          new_window.agent_names.filter (· ∈ movers old new) := by
      by_cases hnone : new_window.agent_names.filter (· ∈ movers old new) = []
      · rw [hnone]
        rfl
      · obtain ⟨agent, hagent⟩ := List.exists_mem_of_ne_nil _ hnone
        rw [← moved_by_target_window hnew hnew_window] at hagent
        obtain ⟨item, hitem, _⟩ := List.mem_map.mp hagent
        obtain ⟨hitem, hname⟩ := List.mem_filter.mp hitem
        have hcreated := (movable hu hitem).created new_window
        rw [of_decide_eq_true hname, moved_by_target_window hnew hnew_window] at hcreated
        exact hcreated habsent hfound
    simpa using filter_start hstart
  nth_rewrite 3 [horder]
  rw [List.map_append, map_settled_kept fun agent hagent => ?_]
  · congr 3
    apply List.map_congr_left
    intro agent hagent
    obtain ⟨hmem, hstays⟩ := List.mem_filter.mp hagent
    rw [settled_pane_fresh]
    rw [← hmover agent hmem]
    exact of_decide_eq_true hstays
  · obtain ⟨hmem, hmoves⟩ := List.mem_filter.mp hagent
    exact (hmover agent hmem).mp (of_decide_eq_true hmoves)

variable {excluded : List Text}

theorem mem_append_steps {anchor : Option Text} {append_plan : List AppendAgentPlan}
    (h : step ∈ append_steps name excluded anchor append_plan) :
    ∃ agent anchor, step = .create_agent_pane name agent anchor := by
  induction append_plan generalizing anchor with
  | nil => cases h
  | cons append append_plan ih =>
    rw [append_steps] at h
    split at h
    · exact ih h
    · obtain rfl | hrest := List.mem_cons.mp h
      · exact ⟨append.agent, anchor, rfl⟩
      · exact ih hrest

theorem mem_additive_steps
    (h : step ∈ (additive_steps_for_window excluded old_window new_window).steps) :
    ∃ agent anchor, step = .create_agent_pane new_window.name agent anchor := by
  unfold additive_steps_for_window at h
  dsimp only at h
  split at h
  · cases h
  split at h
  · cases h
  split at h
  · cases h
  cases hplan : append_agent_plan_for_window old_window new_window with
  | none =>
    rw [hplan] at h
    cases h
  | some append_plan =>
    rw [hplan] at h
    exact mem_append_steps h

theorem mem_remove_steps (h : step ∈ (remove_steps_for_window new excluded old_window).steps) :
    (∃ agent, step = .kill_agent_pane old_window.name agent) ∨
      step = .kill_window old_window.name ∧ window_of new old_window.name = none := by
  unfold remove_steps_for_window at h
  cases hgone : window_of new old_window.name with
  | none =>
    simp only [hgone] at h
    split at h
    · cases h
    split at h
    · exact Or.inr ⟨List.mem_singleton.mp h, rfl⟩
    split at h
    · cases h
    unfold remove_window_steps at h
    split at h
    · cases h
    obtain hkill | hwindow := List.mem_append.mp h
    · obtain ⟨agent, _, rfl⟩ := List.mem_map.mp hkill
      exact Or.inl ⟨agent, rfl⟩
    · exact Or.inr ⟨List.mem_singleton.mp hwindow, rfl⟩
  | some new_window =>
    simp only [hgone] at h
    unfold remove_agent_steps_for at h
    dsimp only at h
    split at h
    · cases h
    split at h
    · cases h
    obtain ⟨agent, _, rfl⟩ := List.mem_map.mp h
    exact Or.inl ⟨agent, rfl⟩

theorem staying_moved (agents : List Text) :
    staying (moved_agents old new) agents = agents.filter (· ∉ movers old new) := rfl

section

variable (hold_window : old_window ∈ old) (hnew_window : new_window ∈ new)
  (hname : old_window.name = new_window.name)
include hold hnew hold_window hnew_window hname

theorem comes_fresh (hagent : agent ∈ new_window.agent_names)
    (hcomes : agent ∉ old_window.agent_names) (hstays : agent ∉ movers old new) :
    agent ∉ old.flatMap WindowPlan.agent_names := by
  intro hthere
  apply hstays
  rw [mem_movers hnew hnew_window hagent]
  cases hsource : agent_window old agent with
  | none => exact absurd hthere (agent_window_eq_none_iff.mp hsource)
  | some source =>
    obtain ⟨window, hwindow, hagent', hsource_name⟩ := mem_of_agent_window hsource
    refine ⟨source, rfl, ?_⟩
    rintro rfl
    rw [hold.window_eq hwindow hold_window (hname.trans hsource_name.symm)] at hcomes
    exact hcomes hagent'

section

variable {append_plan : List AppendAgentPlan}
  (hgrows : old_window.agent_names ++ append_plan.map AppendAgentPlan.agent =
    new_window.agent_names)
include hgrows

theorem grows_stays :
    old_window.agent_names.filter (· ∉ movers old new) = old_window.agent_names := by
  rw [List.filter_eq_self]
  intro agent hagent
  refine decide_eq_true
    (not_mem_movers hnew hold hold_window hnew_window hname hagent ?_)
  rw [← hgrows]
  exact List.mem_append_left _ hagent

omit hold hold_window hname in
theorem grows_comes : new_window.agent_names.filter (· ∉ old_window.agent_names) =
    append_plan.map AppendAgentPlan.agent := by
  have hnodup := hnew.nodup hnew_window
  rw [← hgrows] at hnodup
  rw [← hgrows, List.filter_append, List.filter_eq_nil_iff.mpr, List.nil_append,
    List.filter_eq_self]
  · intro agent hagent
    exact decide_eq_true fun hmem => (List.nodup_append.mp hnodup).2.2 agent hmem agent hagent rfl
  · intro agent hagent
    simpa using hagent

theorem grows_moved : new_window.agent_names.filter (· ∈ movers old new) =
    (append_plan.map AppendAgentPlan.agent).filter (· ∈ movers old new) := by
  have hkept := grows_stays hold hnew hold_window hnew_window hname hgrows
  rw [List.filter_eq_self] at hkept
  rw [← hgrows, List.filter_append, List.append_left_eq_self, List.filter_eq_nil_iff]
  intro agent hagent hmover
  exact of_decide_eq_true (hkept agent hagent) (of_decide_eq_true hmover)

theorem run_on_grows (ha : Anchored old new) :
    run_on (append_steps new_window.name (movers old new) old_window.agent_names.getLast?
          append_plan)
        (some (Window.mk ((old_window.agent_names.filter (· ∉ movers old new) ++
          new_window.agent_names.filter (· ∈ movers old new)).map (kept_pane pane)) false)) =
      some (some (Window.mk ((old_window.agent_names.filter (· ∉ movers old new) ++
        new_window.agent_names.filter (· ∉ old_window.agent_names)).map
          (settled_pane old pane)) false)) := by
  have hnodup := hnew.nodup hnew_window
  have hcome := grows_comes hnew hnew_window hgrows
  rw [← hgrows] at hnodup
  rw [grows_stays hold hnew hold_window hnew_window hname hgrows,
    grows_moved hold hnew hold_window hnew_window hname hgrows, hcome,
    ← map_settled_kept fun agent hagent => ?_]
  · by_cases hempty : old_window.agent_names = []
    · have hnone : append_plan = [] := by
        have hnew_empty : new_window.agent_names = [] := by
          by_contra hsome
          exact ha _ _ _ (hold.window_of hold_window) (hname ▸ hnew.window_of hnew_window) hsome
            hempty
        rw [hempty, List.nil_append, hnew_empty, List.map_eq_nil_iff] at hgrows
        exact hgrows
      rw [hnone]
      rfl
    · apply run_on_append_steps hempty hnodup
      intro append happend hexcluded
      have hmem : append.agent ∈ append_plan.map AppendAgentPlan.agent :=
        List.mem_map_of_mem happend
      rw [← hcome, List.mem_filter] at hmem
      exact comes_fresh hold hnew hold_window hnew_window hname hmem.1
        (of_decide_eq_true hmem.2) hexcluded
  · obtain hmem | hmem := List.mem_append.mp hagent
    · exact List.mem_flatMap.mpr ⟨old_window, hold_window, hmem⟩
    · exact (movers_sub (of_decide_eq_true (List.mem_filter.mp hmem).2)).2

end

section

variable (hshrinks : old_window.agent_names.filter (· ∈ new_window.agent_names) =
  new_window.agent_names)
include hshrinks

omit hold hnew hold_window hnew_window hname in
theorem shrinks_comes : new_window.agent_names.filter (· ∉ old_window.agent_names) = [] := by
  rw [List.filter_eq_nil_iff]
  intro agent hagent
  rw [← hshrinks] at hagent
  simpa using (List.mem_filter.mp hagent).1

theorem shrinks_moved : new_window.agent_names.filter (· ∈ movers old new) = [] := by
  rw [List.filter_eq_nil_iff]
  intro agent hagent hmover
  have hmem := hagent
  rw [← hshrinks] at hmem
  exact not_mem_movers hnew hold hold_window hnew_window hname (List.mem_filter.mp hmem).1 hagent
    (of_decide_eq_true hmover)

end

theorem run_on_appends (hu : Unblocked old new) (ha : Anchored old new) :
    run_on (additive_steps_for_window (movers old new) old_window new_window).steps
        (moved_windows old new pane (moved_agents old new) new_window.name) =
      some (appended_windows old new pane new_window.name) := by
  have hold_found := hold.window_of hold_window
  have hnew_found := hnew.window_of hnew_window
  rw [hname] at hold_found
  unfold moved_windows appended_windows arrivals
  simp only [hold_found, hname, hnew_found, staying_moved]
  rw [moved_by_target_window hnew hnew_window]
  obtain ⟨append_plan, hgrows, hsteps⟩ | ⟨hshrinks, hsteps⟩ :=
    window_cases hold hnew hu hold_window hnew_window hname
  · rw [hsteps]
    exact run_on_grows hold hnew hold_window hnew_window hname hgrows ha
  · rw [hsteps, run_on_nil, shrinks_moved hold hnew hold_window hnew_window hname hshrinks,
      shrinks_comes hshrinks, map_settled_kept]
    intro agent hagent
    rw [List.append_nil] at hagent
    exact List.mem_flatMap.mpr ⟨old_window, hold_window, (List.mem_filter.mp hagent).1⟩

end

include hold hnew in
theorem execute_appends (hu : Unblocked old new) (ha : Anchored old new) (pane : Text → ℕ) :
    execute (additive_agent_steps old new (movers old new)).steps
        (moved_windows old new pane (moved_agents old new)) =
      some (appended_windows old new pane) := by
  unfold additive_agent_steps PatchSteps.all
  dsimp only
  rw [List.flatMap_map]
  refine foldlM_blocks NamespacePatchStep.on hnew.names ?_ ?_ ?_
  · intro window _ step hstep
    apply onKey_of_window
    cases hfound : window_of old window.name with
    | none =>
      simp only [hfound] at hstep
      cases hstep
    | some old_window =>
      simp only [hfound] at hstep
      obtain ⟨_, _, rfl⟩ := mem_additive_steps hstep
      rfl
  · intro window hwindow
    change run_on _ _ = _
    cases hfound : window_of old window.name with
    | none => exact congrArg some (moved_windows_new hnew hu hwindow hfound)
    | some old_window =>
      obtain ⟨hold_window, hname⟩ := mem_of_window_of hfound
      exact run_on_appends hold hnew hold_window hwindow hname hu ha
  · intro name habsent
    rw [← window_of_eq_none_iff] at habsent
    unfold moved_windows appended_windows
    cases hfound : window_of old name with
    | none => rw [habsent]; rfl
    | some old_window =>
      obtain ⟨hold_window, hname⟩ := mem_of_window_of hfound
      simp only [arrivals, hname, habsent, moved_by_target_absent habsent, List.append_nil]
      rw [map_settled_kept]
      · rfl
      · intro agent hagent
        exact List.mem_flatMap.mpr ⟨old_window, hold_window, (List.mem_filter.mp hagent).1⟩

/-! ### Removals -/

section

variable (hold_window : old_window ∈ old)
include hold hnew hold_window

omit hold hnew hold_window in
theorem filter_settled (agents killed : List Text) :
    (agents.map (settled_pane old pane)).filter (fun other => other.agent ∉ killed) =
      (agents.filter (· ∉ killed)).map (settled_pane old pane) := by
  rw [List.filter_map]
  rfl

theorem remaining_eq (hu : Unblocked old new) (hnew_window : new_window ∈ new)
    (hname : old_window.name = new_window.name) :
    (old_window.agent_names.filter (· ∉ movers old new) ++
        new_window.agent_names.filter (· ∉ old_window.agent_names)).filter
          (· ∉ removed_agents (movers old new) old_window new_window) =
      new_window.agent_names := by
  obtain ⟨append_plan, hgrows, _⟩ | ⟨hshrinks, _⟩ :=
    window_cases hold hnew hu hold_window hnew_window hname
  · have hnone : removed_agents (movers old new) old_window new_window = [] := by
      unfold removed_agents
      rw [List.filter_eq_nil_iff]
      intro agent hagent hremoved
      apply (of_decide_eq_true hremoved).1
      rw [← hgrows]
      exact List.mem_append_left _ hagent
    rw [hnone, grows_stays hold hnew hold_window hnew_window hname hgrows,
      grows_comes hnew hnew_window hgrows, hgrows]
    simp
  · rw [shrinks_comes hshrinks, List.append_nil, List.filter_filter]
    refine Eq.trans (List.filter_congr fun agent hagent => ?_) hshrinks
    rw [Bool.eq_iff_iff, Bool.and_eq_true, decide_eq_true_eq, decide_eq_true_eq, decide_eq_true_eq]
    unfold removed_agents
    rw [List.mem_filter, decide_eq_true_eq]
    constructor
    · rintro ⟨hkept, hstays⟩
      by_contra habsent
      exact hkept ⟨hagent, habsent, hstays⟩
    · intro hmem
      refine ⟨fun hremoved => hremoved.2.1 hmem, ?_⟩
      exact not_mem_movers hnew hold hold_window hnew_window hname hagent hmem

theorem run_on_removals_kept (hu : Unblocked old new) (hnew_window : new_window ∈ new)
    (hname : old_window.name = new_window.name) :
    run_on (remove_steps_for_window new (movers old new) old_window).steps
        (appended_windows old new pane old_window.name) =
      some (left_windows old new pane true old_window.name) := by
  have hold_found := hold.window_of hold_window
  have hnew_found := hnew.window_of hnew_window
  rw [← hname] at hnew_found
  have hpart := all_blocked_eq_nil.mp hu.removals _ (List.mem_map_of_mem hold_window)
  unfold remove_steps_for_window at hpart ⊢
  unfold appended_windows left_windows arrivals
  simp only [hold_found, hnew_found] at hpart ⊢
  rw [(remove_agent_cases hpart).1, run_on_kill]
  · rw [filter_settled, remaining_eq hold hnew hold_window hu hnew_window hname]
    rfl
  · exact (hold.nodup hold_window).filter _
  · intro agent hagent
    obtain ⟨hmem, hremoved⟩ := List.mem_filter.mp hagent
    rw [map_agent_settled]
    refine List.mem_append_left _ (List.mem_filter.mpr ⟨hmem, ?_⟩)
    exact decide_eq_true (of_decide_eq_true hremoved).2

omit hnew in
theorem run_on_removals_gone (hu : Unblocked old new)
    (hgone : window_of new old_window.name = none) :
    run_on (remove_steps_for_window new (movers old new) old_window).steps
        (appended_windows old new pane old_window.name) =
      some (left_windows old new pane true old_window.name) := by
  have hold_found := hold.window_of hold_window
  have hpart := all_blocked_eq_nil.mp hu.removals _ (List.mem_map_of_mem hold_window)
  unfold appended_windows left_windows arrivals
  simp only [hold_found, hgone, List.append_nil]
  by_cases hkind : old_window.kind = .tool
  · have hsteps : (remove_steps_for_window new (movers old new) old_window).steps = [] := by
      unfold remove_steps_for_window
      simp only [hgone, if_pos hkind]
      rfl
    rw [hsteps, run_on_nil, hold.tools old_window hold_window hkind, hkind]
    rfl
  · rw [remove_window_cases hkind hgone hpart, run_on_append (run_on_kill ?_ ?_)]
    · rw [run_on_cons rfl, run_on_nil, Bool.true_and, if_neg (by simpa using hkind)]
    · exact (hold.nodup hold_window).filter _
    · intro agent hagent
      rw [map_agent_settled]
      exact hagent

end

include hold hnew in
theorem execute_removals (hu : Unblocked old new) (pane : Text → ℕ) :
    execute (remove_agent_steps old new (movers old new)).steps (appended_windows old new pane) =
      some (left_windows old new pane true) := by
  unfold remove_agent_steps PatchSteps.all
  dsimp only
  rw [List.flatMap_map]
  refine foldlM_blocks NamespacePatchStep.on hold.names ?_ ?_ ?_
  · intro window hwindow step hstep
    apply onKey_of_window
    obtain ⟨_, rfl⟩ | ⟨rfl, _⟩ := mem_remove_steps hstep
    · rfl
    · rfl
  · intro window hwindow
    change run_on _ _ = _
    cases hfound : window_of new window.name with
    | none => exact run_on_removals_gone hold hwindow hu hfound
    | some new_window =>
      obtain ⟨hnew_window, hname⟩ := mem_of_window_of hfound
      exact run_on_removals_kept hold hnew hwindow hu hnew_window hname.symm
  · intro name habsent
    rw [← window_of_eq_none_iff] at habsent
    unfold appended_windows left_windows
    rw [habsent]
    cases window_of new name with
    | none => rfl
    | some new_window => rfl

include hold in
theorem execute_tools (new : Topology) (pane : Text → ℕ) :
    execute (remove_tool_window_steps old new) (left_windows old new pane true) =
      some (left_windows old new pane false) := by
  unfold remove_tool_window_steps
  rw [List.map_eq_flatMap]
  refine foldlM_blocks NamespacePatchStep.on
    ((List.filter_sublist.map WindowPlan.name).nodup hold.names) ?_ ?_ ?_
  · intro window _ step hstep
    rw [List.mem_singleton] at hstep
    rw [hstep]
    exact onKey_of_window rfl
  · intro window hwindow
    obtain ⟨hmem, hgone⟩ := List.mem_filter.mp hwindow
    rw [Bool.and_eq_true, Option.isNone_iff_eq_none, decide_eq_true_eq] at hgone
    have hbefore : left_windows old new pane true window.name =
        some { panes := [], made := false } := by
      unfold left_windows
      rw [hgone.1, hold.window_of hmem]
      exact if_pos (decide_eq_true hgone.2)
    have hafter : left_windows old new pane false window.name = none := by
      unfold left_windows
      rw [hgone.1, hold.window_of hmem]
      rfl
    rw [hbefore, hafter]
    rfl
  · intro name habsent
    unfold left_windows
    cases hgone : window_of new name with
    | some new_window => rfl
    | none =>
      cases hfound : window_of old name with
      | none => rfl
      | some old_window =>
        obtain ⟨hmem, hname⟩ := mem_of_window_of hfound
        have hkind : old_window.kind ≠ .tool := by
          intro hkind
          apply habsent
          rw [← hname] at hgone ⊢
          refine List.mem_map_of_mem (List.mem_filter.mpr ⟨hmem, ?_⟩)
          rw [hgone, hkind]
          rfl
        simp [hkind]

end

theorem execute_refresh (operations : List Operation) (windows : Windows) :
    execute (view_refresh_steps operations) windows = some windows := by
  unfold view_refresh_steps
  split
  · rfl
  · rfl

/-- Who is to be replaced is in the window that the operation names. -/
def Located (old : Topology) (operations : List Operation) : Prop :=
  ∀ item ∈ operations, item.op = .replace_agent → ∀ agent, item.agent = some agent →
    agent_window old agent = some (item.window.getD [])

variable {operations : List Operation}

theorem execute_reuse (hold : Valid old) (pane : Text → ℕ) (agent : Text) :
    execute_step (windows_of old pane) (.reuse_agent_pane_for_replace name agent) =
      if agent_window old agent = some name then some (windows_of old pane) else none := by
  rw [onKey_of_window rfl]
  split
  · rename_i hfound
    obtain ⟨window, hwindow, hmem, hwindow_name⟩ := mem_of_agent_window hfound
    have hthere : windows_of old pane name =
        some (Window.mk (window.agent_names.map (kept_pane pane)) false) := by
      unfold windows_of
      rw [← hwindow_name, hold.window_of hwindow]
      rfl
    have hon : (NamespacePatchStep.reuse_agent_pane_for_replace name agent).on
        (windows_of old pane name) = some (windows_of old pane name) := by
      rw [hthere, NamespacePatchStep.on, if_pos]
      rw [List.map_map]
      exact List.mem_map.mpr ⟨agent, hmem, rfl⟩
    rw [hon, Option.map_some, Function.update_eq_self]
  · rename_i hnot
    rw [Option.map_eq_none_iff]
    unfold windows_of
    cases hfound : window_of old name with
    | none => rfl
    | some window =>
      obtain ⟨hwindow, hwindow_name⟩ := mem_of_window_of hfound
      rw [Option.map_some, NamespacePatchStep.on, if_neg]
      rw [List.map_map]
      rintro hmem
      obtain ⟨other, hother, rfl⟩ := List.mem_map.mp hmem
      exact hnot (hwindow_name ▸ hold.agent_window hwindow hother)

/-- **The replacements can be executed exactly where each agent is in the window it is given.** -/
theorem execute_replace (hold : Valid old) (pane : Text → ℕ) (operations : List Operation) :
    execute (replace_agent_steps operations) (windows_of old pane) =
        some (windows_of old pane) ∧ Located old operations ∨
      execute (replace_agent_steps operations) (windows_of old pane) = none ∧
        ¬ Located old operations := by
  induction operations with
  | nil => exact Or.inl ⟨rfl, fun item hitem => absurd hitem List.not_mem_nil⟩
  | cons item operations ih =>
    have hcons : Located old (item :: operations) ↔
        (item.op = .replace_agent → ∀ agent, item.agent = some agent →
          agent_window old agent = some (item.window.getD [])) ∧ Located old operations :=
      List.forall_mem_cons
    unfold replace_agent_steps at ih ⊢
    rw [List.filterMap_cons, hcons]
    split
    · rename_i hskip
      have hfree : item.op = .replace_agent → ∀ agent, item.agent = some agent →
          agent_window old agent = some (item.window.getD []) := by
        intro hop agent hagent
        rw [hop, hagent] at hskip
        cases hskip
      simpa only [and_iff_right hfree] using ih
    · rename_i step hstep
      split at hstep
      · rename_i agent hop hagent
        rw [← Option.some.inj hstep, execute, List.foldlM_cons, execute_reuse hold]
        by_cases hfound : agent_window old agent = some (item.window.getD [])
        · rw [if_pos hfound, Option.bind_eq_bind, Option.bind_some]
          have hfree : item.op = .replace_agent → ∀ other, item.agent = some other →
              agent_window old other = some (item.window.getD []) := by
            intro _ other hother
            rw [hagent, Option.some.injEq] at hother
            exact hother ▸ hfound
          simpa only [execute, and_iff_right hfree] using ih
        · rw [if_neg hfound]
          exact Or.inr ⟨rfl, fun h => hfound (h.1 hop agent hagent)⟩
      · cases hstep

variable {current_config new_config : ProjectConfig}

theorem not_replace_topology_operations
    {operation : Operation} (h : operation ∈ topology_operations current_config new_config) :
    operation.op ≠ .replace_agent := by
  unfold topology_operations at h
  simp only [List.mem_append, List.mem_map, List.mem_filterMap, List.mem_ite_nil_right,
    List.mem_singleton, or_assoc] at h
  obtain ⟨_, _, rfl⟩ | ⟨window, _, hsome⟩ | ⟨_, rfl⟩ | ⟨_, rfl⟩ := h
  · exact nofun
  · split at hsome
    · cases hsome
    split at hsome
    · split at hsome
      · cases hsome
        exact nofun
      · cases hsome
    · cases hsome
  · exact nofun
  · exact nofun

theorem not_replace_tool_window_operations
    {operation : Operation} (h : operation ∈ tool_window_operations current_config new_config) :
    operation.op ≠ .replace_agent := by
  unfold tool_window_operations at h
  simp only [List.mem_append, List.mem_map, List.mem_filterMap, or_assoc] at h
  obtain ⟨_, _, rfl⟩ | ⟨_, _, rfl⟩ | ⟨window, _, hsome⟩ := h
  · exact nofun
  · exact nofun
  · split at hsome
    · cases hsome
    split at hsome
    · cases hsome
      exact nofun
    · cases hsome

theorem agent_operation_replace {name : Text} {operation : Operation}
    (h : agent_operation current_config new_config name = some operation)
    (hop : operation.op = .replace_agent) :
    replaced current_config new_config name ∧ operation.agent = some name ∧
      operation.window = last_old_window current_config new_config := by
  unfold agent_operation at h
  split at h
  · rename_i old_record new_record hold hnew
    split at h
    · cases h
    split at h
    · cases h
      cases hop
    · rename_i hne
      cases h
      unfold replaced
      rw [hold, hnew]
      exact ⟨decide_eq_true hne, rfl, rfl⟩
  · cases h

theorem agent_operation_of_replaced {name : Text} (h : replaced current_config new_config name) :
    ∃ operation, agent_operation current_config new_config name = some operation ∧
      operation.op = .replace_agent := by
  unfold replaced at h
  split at h
  · rename_i old_record new_record hold hnew
    unfold agent_operation
    rw [hold, hnew]
    have hne : old_record.record ≠ new_record.record := of_decide_eq_true h
    have hrecord : old_record ≠ new_record := fun heq => hne (congrArg AgentSpec.record heq)
    simp only [if_neg hrecord, if_neg hne]
    exact ⟨_, rfl, rfl⟩
  · cases h

theorem last_old_window_isSome (h : agent ∈ common_agents current_config new_config) :
    (last_old_window current_config new_config).isSome := by
  unfold last_old_window
  cases hlast : (common_agents current_config new_config).getLast? with
  | none =>
    rw [List.getLast?_eq_none_iff] at hlast
    rw [hlast] at h
    cases h
  | some last =>
    have hmem := List.mem_of_getLast? hlast
    unfold common_agents sorted_names at hmem
    rw [List.mem_insertionSort] at hmem
    have hcurrent := (mem_agents_build_namespace_topology_plan _).mpr (List.mem_filter.mp hmem).1
    rw [Option.bind_some, Option.isSome_iff_ne_none]
    exact fun hnone => agent_window_eq_none_iff.mp hnone hcurrent

theorem located_build_operations (current_config new_config : ProjectConfig) :
    Located (build_namespace_topology_plan current_config)
        (build_operations current_config new_config) ↔
      ∀ agent ∈ common_agents current_config new_config, replaced current_config new_config agent →
        agent_window (build_namespace_topology_plan current_config) agent =
          last_old_window current_config new_config := by
  constructor
  · intro hl agent hagent hreplaced
    obtain ⟨operation, hoperation, hop⟩ := agent_operation_of_replaced hreplaced
    obtain ⟨_, hname, hwindow⟩ := agent_operation_replace hoperation hop
    have hmem : operation ∈ build_operations current_config new_config := by
      unfold build_operations
      simp only [List.mem_append, List.mem_filterMap]
      exact Or.inl (Or.inl (Or.inl (Or.inr ⟨agent, hagent, hoperation⟩)))
    obtain ⟨window, hsome⟩ := Option.isSome_iff_exists.mp (last_old_window_isSome hagent)
    rw [hl operation hmem hop agent hname, hwindow, hsome, Option.getD_some]
  · intro h item hitem hop agent hagent
    unfold build_operations at hitem
    simp only [List.mem_append, List.mem_map, List.mem_filterMap, or_assoc] at hitem
    obtain ⟨_, _, rfl⟩ | ⟨_, _, rfl⟩ | ⟨_, _, rfl⟩ | ⟨_, _, hmove⟩ | ⟨name, hname, hsome⟩ |
      htopology | htool | hmaintenance := hitem
    · cases hop
    · cases hop
    · cases hop
    · split at hmove
      · cases hmove
      · cases hmove
        cases hop
    · obtain ⟨hreplaced, hself, hwindow⟩ := agent_operation_replace hsome hop
      rw [hself, Option.some.injEq] at hagent
      subst hagent
      obtain ⟨window, hlast⟩ := Option.isSome_iff_exists.mp (last_old_window_isSome hname)
      rw [h name hname hreplaced, hwindow, hlast, Option.getD_some]
    · exact absurd hop (not_replace_topology_operations htopology)
    · exact absurd hop (not_replace_tool_window_operations htool)
    · split at hmaintenance
      · cases hmaintenance
      · rw [List.mem_singleton] at hmaintenance
        rw [hmaintenance] at hop
        cases hop

theorem located_plan (current_config new_config : ProjectConfig) (answers : PlanAnswers) :
    Located (build_namespace_topology_plan current_config)
        (build_reload_dry_run_plan current_config new_config answers).operations ↔
      Slotted current_config new_config answers := by
  have hnamed : ∀ op : OpName, op ≠ .replace_agent →
      Located (build_namespace_topology_plan current_config) [Operation.named op] := by
    intro op hne item hitem hop
    rw [List.mem_singleton] at hitem
    rw [hitem] at hop
    exact absurd hop hne
  unfold build_reload_dry_run_plan Slotted
  dsimp only
  cases answers.same_signature with
  | true =>
    refine iff_of_true ?_ nofun
    rw [if_pos rfl]
    split
    · exact fun item hitem => absurd hitem List.not_mem_nil
    · exact hnamed _ nofun
  | false =>
    rw [if_neg Bool.false_ne_true, imp_iff_right rfl, ← located_build_operations]
    split
    · rename_i hnone
      rw [hnone]
      exact iff_of_true (hnamed _ nofun) fun item hitem => absurd hitem List.not_mem_nil
    · rfl

theorem steps_patch_parts (operations : List Operation) :
    (patch_parts old new operations).steps =
      view_refresh_steps operations ++ (replace_agent_steps operations ++
        (additive_window_steps old new (movers old new) ++ ((move_agent_steps old new).steps ++
          ((additive_agent_steps old new (movers old new)).steps ++
            ((remove_agent_steps old new (movers old new)).steps ++
              remove_tool_window_steps old new))))) := by
  simp [patch_parts, PatchSteps.all, PatchSteps.planned, movers]

theorem unblocked_of_planned {scope_verified : Bool}
    (h : (build_namespace_patch_plan old new operations scope_verified).status = .planned) :
    Unblocked old new ∧ (build_namespace_patch_plan old new operations scope_verified).steps =
      (patch_parts old new operations).steps := by
  unfold build_namespace_patch_plan at h ⊢
  dsimp only at h ⊢
  by_cases hrefused : blocked_unsupported_operations operations ++
      blocked_scope scope_verified operations = []
  · rw [if_pos hrefused, if_pos hrefused] at h
    rw [if_pos hrefused]
    refine ⟨?_, rfl⟩
    split at h
    · cases h
    rename_i hblocked
    rw [not_not] at hblocked
    simp only [List.append_eq_nil_iff] at hblocked
    have hparts := all_blocked_eq_nil.mp hblocked.1.1.1.1.1
    exact
      { moves := hparts _ (by simp)
        additions := hparts _ (by simp [movers])
        removals := hparts _ (by simp [movers]) }
  · rw [if_neg hrefused, if_pos hrefused] at h
    cases h

theorem realises_of_anchored (hold : Valid old) (hnew : Valid new) (hu : Unblocked old new)
    (hl : Located old operations) (ha : Anchored old new) (pane : Text → ℕ) :
    Realises old new (patch_parts old new operations).steps pane := by
  refine ⟨left_windows old new pane false, ?_, fun name => ?_⟩
  · have hrefresh := execute_refresh operations (windows_of old pane)
    have hreplace := ((execute_replace hold pane operations).resolve_right fun h => h.2 hl).1
    have hmade := execute_made hnew old pane
    have hmoves := execute_moves hold hnew hu ha pane
    have happends := execute_appends hold hnew hu ha pane
    have hremovals := execute_removals hold hnew hu pane
    have htools := execute_tools hold new pane
    unfold execute at hrefresh hreplace hmade hmoves happends hremovals htools ⊢
    rw [steps_patch_parts]
    simp only [List.foldlM_append, hrefresh, hreplace, hmade, hmoves, happends, hremovals, htools,
      Option.bind_eq_bind, Option.bind_some]
  · unfold left_windows
    cases window_of new name with
    | some new_window => rfl
    | none =>
      cases window_of old name with
      | none => rfl
      | some old_window => rfl

/-- A step that can be taken on an empty window that was there before, only for another window. -/
def Spares (name : Text) : NamespacePatchStep → Prop
  | .create_sidebar_pane window => window ≠ name
  | .create_tool_pane window => window ≠ name
  | .kill_window window => window ≠ name
  | .kill_tool_window window => window ≠ name
  | _ => True

theorem empty_on (hs : Spares name step) (hwindow : step.window = some name) :
    step.on (some { panes := [], made := false }) = none := by
  cases step with
  | refresh_project_view => cases hwindow
  | move_agent_pane window target_window agent => cases hwindow
  | create_window window => rfl
  | create_agent_pane window agent anchor =>
    cases anchor with
    | none => rfl
    | some anchor => rfl
  | kill_agent_pane window agent => rfl
  | reuse_agent_pane_for_replace window agent => rfl
  | _ => exact absurd (Option.some.inj hwindow) hs

variable {windows : Windows}

theorem empty_move {after : Windows} {source target : Text}
    (hempty : windows name = some { panes := [], made := false })
    (h : move_pane source target agent windows = some after) :
    after name = some { panes := [], made := false } := by
  unfold move_pane at h
  cases hsource : windows source with
  | none =>
    rw [hsource] at h
    cases h
  | some from_window =>
    simp only [hsource] at h
    split at h
    · cases h
    rename_i pane hfind
    have hne : name ≠ source := by
      rintro rfl
      rw [hempty, Option.some.injEq] at hsource
      rw [← hsource] at hfind
      cases hfind
    split at h
    · cases h
    rename_i to_window hto
    obtain ⟨entered, henter, rfl⟩ := Option.map_eq_some_iff.mp h
    have hne_target : name ≠ target := by
      rintro rfl
      rw [Function.update_of_ne hne, hempty, Option.some.injEq] at hto
      rw [← hto] at henter
      cases henter
    rw [Function.update_of_ne hne_target, Function.update_of_ne hne, hempty]

theorem empty_step {after : Windows} (hs : Spares name step)
    (hempty : windows name = some { panes := [], made := false })
    (h : execute_step windows step = some after) :
    after name = some { panes := [], made := false } := by
  cases hwindow : step.window with
  | none =>
    cases step with
    | refresh_project_view =>
      cases h
      exact hempty
    | move_agent_pane window target_window agent => exact empty_move hempty h
    | _ => cases hwindow
  | some other =>
    rw [onKey_of_window hwindow] at h
    obtain ⟨value, hon, rfl⟩ := Option.map_eq_some_iff.mp h
    by_cases hname : name = other
    · rw [← hname, hempty, empty_on hs (hname ▸ hwindow)] at hon
      cases hon
    · rw [Function.update_of_ne hname, hempty]

theorem empty_run {after : Windows} (hs : ∀ step ∈ steps, Spares name step)
    (hempty : windows name = some { panes := [], made := false })
    (h : execute steps windows = some after) :
    after name = some { panes := [], made := false } := by
  induction steps generalizing windows with
  | nil =>
    cases h
    exact hempty
  | cons step steps ih =>
    rw [execute, List.foldlM_cons] at h
    obtain ⟨next, hstep, hrest⟩ := Option.bind_eq_some_iff.mp h
    exact ih (fun other hother => hs other (List.mem_cons_of_mem step hother))
      (empty_step (hs step List.mem_cons_self) hempty hstep) hrest

theorem spares_patch_parts (hu : Unblocked old new)
    (hold_found : window_of old name = some old_window)
    (hnew_found : window_of new name = some new_window)
    (hstep : step ∈ (patch_parts old new operations).steps) : Spares name step := by
  rw [steps_patch_parts] at hstep
  simp only [List.mem_append] at hstep
  obtain hrefresh | hreplace | hmade | hmoves | happends | hremovals | htools := hstep
  · unfold view_refresh_steps at hrefresh
    split at hrefresh
    · rw [List.mem_singleton.mp hrefresh]
      trivial
    · cases hrefresh
  · obtain ⟨item, _, hsome⟩ := List.mem_filterMap.mp hreplace
    split at hsome
    · cases hsome
      trivial
    · cases hsome
  · obtain ⟨window, hwindow, hmem⟩ := List.mem_flatMap.mp hmade
    unfold additive_window_steps_for at hmem
    split at hmem
    · cases hmem
    rename_i habsent
    have hne : window.name ≠ name := by
      rintro rfl
      rw [hold_found] at habsent
      exact habsent rfl
    simp only [List.mem_cons, List.mem_append, List.mem_ite_nil_right, List.mem_map,
      List.not_mem_nil, or_false] at hmem
    obtain rfl | (⟨_, rfl⟩ | ⟨agent, _, rfl⟩) | ⟨_, rfl⟩ := hmem
    · trivial
    · exact hne
    · trivial
    · exact hne
  · unfold move_agent_steps PatchSteps.all at hmoves
    obtain ⟨part, hpart, hmem⟩ := List.mem_flatMap.mp hmoves
    obtain ⟨item, hitem, rfl⟩ := List.mem_map.mp hpart
    rw [(movable hu hitem).steps, List.mem_singleton] at hmem
    rw [hmem]
    trivial
  · unfold additive_agent_steps PatchSteps.all at happends
    obtain ⟨part, hpart, hmem⟩ := List.mem_flatMap.mp happends
    obtain ⟨window, hwindow, rfl⟩ := List.mem_map.mp hpart
    cases hfound : window_of old window.name with
    | none =>
      simp only [hfound] at hmem
      cases hmem
    | some other =>
      simp only [hfound] at hmem
      obtain ⟨_, _, rfl⟩ := mem_additive_steps hmem
      trivial
  · unfold remove_agent_steps PatchSteps.all at hremovals
    obtain ⟨part, hpart, hmem⟩ := List.mem_flatMap.mp hremovals
    obtain ⟨window, hwindow, rfl⟩ := List.mem_map.mp hpart
    obtain ⟨_, rfl⟩ | ⟨rfl, hgone⟩ := mem_remove_steps hmem
    · trivial
    · rintro rfl
      rw [hnew_found] at hgone
      cases hgone
  · obtain ⟨window, hwindow, rfl⟩ := List.mem_map.mp htools
    obtain ⟨_, hgone⟩ := List.mem_filter.mp hwindow
    rw [Bool.and_eq_true, Option.isNone_iff_eq_none] at hgone
    rintro rfl
    rw [hnew_found] at hgone
    cases hgone.1

theorem anchored_of_realises (hu : Unblocked old new)
    (h : Realises old new (patch_parts old new operations).steps pane) : Anchored old new := by
  obtain ⟨after, hrun, hafter⟩ := h
  intro name old_window new_window hold_found hnew_found hagents hempty
  have hbefore : windows_of old pane name = some { panes := [], made := false } := by
    unfold windows_of
    rw [hold_found, Option.map_some, hempty]
    rfl
  have hstill := empty_run (fun step hstep => spares_patch_parts hu hold_found hnew_found hstep)
    hbefore hrun
  have hpanes := hafter name
  rw [hstill, hnew_found, Option.map_some, Option.map_some, Option.some.injEq] at hpanes
  exact hagents (List.map_eq_nil_iff.mp hpanes.symm)

theorem located_of_realises (hold : Valid old)
    (h : Realises old new (patch_parts old new operations).steps pane) :
    Located old operations := by
  obtain ⟨after, hrun, _⟩ := h
  by_contra hl
  have hrefresh := execute_refresh operations (windows_of old pane)
  have hreplace := ((execute_replace hold pane operations).resolve_left fun h => hl h.2).1
  unfold execute at hrun hrefresh hreplace
  rw [steps_patch_parts] at hrun
  simp only [List.foldlM_append, hrefresh, hreplace, Option.bind_eq_bind, Option.bind_some,
    Option.bind_none] at hrun
  cases hrun

def example_leaf (name : String) (provider : Option String) : LayoutNode :=
  .leaf
    { name := asciiText name
      provider := provider.map asciiText
      worktree := false
      weight := 1
      percent := none }

/-- Agents to the right of a leaf. -/
def example_row (first : LayoutNode) (rest : List String) : LayoutNode :=
  rest.foldl (fun left name => .branch .vertical left (example_leaf name (some "codex"))) first

def example_lead : LayoutNode := example_leaf "lead" (some "codex")

def example_alias : LayoutNode := example_leaf "rich" none

def example_agent (name : String) : Text × AgentSpec :=
  (asciiText name, { dispatch_disabled := false, record := [] })

def example_window (name : String) (order : ℕ) (layout : LayoutNode) (agents : List String) :
    WindowSpec :=
  { name := asciiText name
    order := order
    layout := layout
    agent_names := agents.map asciiText }

/-- A window of two agents, beside one that only has an alias in its layout. -/
def alias_config : ProjectConfig :=
  { agents := [example_agent "lead", example_agent "helper"]
    windows := [example_window "main" 0 (example_row example_lead ["helper"]) ["lead", "helper"],
      example_window "files" 1 example_alias []]
    tool_windows := []
    entry_window := asciiText "main"
    sidebar := []
    sidebar_enabled := true
    maintenance_heartbeat := []
    names := by decide
    agent_keys := by decide
    window_agents := by decide
    referenced := by
      intro agent
      simp [example_window, example_agent] }

/-- One of the agents moves to the window that has none. -/
def alias_moved_config : ProjectConfig :=
  { alias_config with
    windows := [example_window "main" 0 example_lead ["lead"],
      example_window "files" 1 (example_row example_alias ["helper"]) ["helper"]]
    names := by decide
    window_agents := by decide
    referenced := by
      intro agent
      simp [example_window, example_agent, alias_config] }

/-- One of the agents moves to a window of its own, and another one joins it. -/
def split_config : ProjectConfig :=
  { alias_config with
    agents := [example_agent "lead", example_agent "helper", example_agent "extra"]
    windows := [example_window "main" 0 example_lead ["lead"],
      example_window "files" 1 example_alias [],
      example_window "side" 2 (example_row (example_leaf "helper" (some "codex")) ["extra"])
        ["helper", "extra"]]
    names := by decide
    agent_keys := by decide
    window_agents := by decide
    referenced := by
      intro agent
      simp [example_window, example_agent] }

def changed_answers : PlanAnswers :=
  { same_signature := false, same_record := false, scope_verified := true }

/-- The agents stay where they are, and one of them is to be another one. -/
def replaced_config : ProjectConfig :=
  { alias_config with
    agents := [(asciiText "lead", { dispatch_disabled := false, record := [0] }),
      example_agent "helper"]
    agent_keys := by decide
    referenced := by
      intro agent
      simp [example_window, example_agent, alias_config] }

theorem anchored_of_windows (h : ∀ old_window ∈ old, ∀ new_window ∈ new,
    old_window.name = new_window.name → new_window.agent_names ≠ [] →
      old_window.agent_names ≠ []) : Anchored old new := by
  intro name old_window new_window hold hnew
  obtain ⟨hold_window, hold_name⟩ := mem_of_window_of hold
  obtain ⟨hnew_window, hnew_name⟩ := mem_of_window_of hnew
  exact h _ hold_window _ hnew_window (hold_name.trans hnew_name.symm)

/-- The plan from that configuration to another one is safe, and its steps lead there. -/
def Reached (config : ProjectConfig) : Prop :=
  (build_reload_dry_run_plan alias_config config changed_answers).future_safe_to_apply = true ∧
    Realises (build_namespace_topology_plan alias_config) (build_namespace_topology_plan config)
      (build_reload_dry_run_plan alias_config config changed_answers).namespace_patch_plan.steps
      List.length

end ClaudeCodeBridge.Analysis.ReloadPatch
