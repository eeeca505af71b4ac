import ClaudeCodeBridge.Analysis.ClosureIntents
import ClaudeCodeBridge.Analysis.TaskSetBindings

/-!
# Revising a task set

A revision says that it is under way, moves the closure aside and gives up the intents before
it tries the bindings of the tasks, each of which a task may refuse.  A call that is refused has
therefore changed nothing exactly when its checks refuse it (`refused_unchanged_iff`).

Between calls some tasks may be bound for a revision that did not come about.  The next call
does not know of them: it returns with the bindings in step with the record exactly when its
children cover them (`revised_in_step_iff`).
-/

set_option autoImplicit false

namespace ClaudeCodeBridge.Analysis.TaskSet

open Program Program.Prog
open Model.PlanTask
open Model.TaskSet

section Resolving

variable {tasks : Tasks} {plan_slug source_task_id : Segment} {requests : List ChildRequest}

theorem resolve_ids {resolved children : List TaskSetChild}
    (h : requests.foldlM (resolve_child tasks plan_slug source_task_id) resolved = .ok children) :
    child_ids children = child_ids resolved ++ requests.map ChildRequest.task_id ∧
      (source_task_id ∉ child_ids resolved → source_task_id ∉ child_ids children) := by
  induction requests generalizing resolved with
  | nil =>
    rw [List.foldlM_nil, pure_ok] at h
    rw [h, List.map_nil, List.append_nil]
    exact ⟨rfl, id⟩
  | cons request requests ih =>
    rw [List.foldlM_cons, bind_ok] at h
    obtain ⟨next, hnext, h⟩ := h
    simp only [resolve_child, bind_ok, refuseIf_ok, pure_ok] at hnext
    obtain ⟨_, hnew, task, -, _, -, _, -, rfl⟩ := hnext
    push Not at hnew
    obtain ⟨hids, hsource⟩ := ih h
    refine ⟨?_, fun hbefore => hsource ?_⟩
    · rw [hids]
      simp [child_ids]
    · unfold child_ids at hbefore ⊢
      rw [List.map_append, List.mem_append, not_or]
      refine ⟨hbefore, ?_⟩
      rw [List.map_singleton, List.mem_singleton]
      exact hnew.1.symm

theorem resolve_children_ids {children : Children}
    (h : resolve_children tasks plan_slug source_task_id requests = .ok children) :
    child_ids children.val = requests.map ChildRequest.task_id ∧
      source_task_id ∉ child_ids children.val := by
  simp only [resolve_children, bind_ok] at h
  obtain ⟨_, -, h⟩ := h
  split at h
  · cases h
  · rename_i resolved hresolved
    split at h
    · rw [pure_ok] at h
      obtain ⟨hids, hsource⟩ := resolve_ids hresolved
      rw [← h]
      exact ⟨hids, hsource (by simp [child_ids])⟩
    · cases h

end Resolving

section Revising

variable {record : TaskSetRecord} {expected_revision : ℕ} {requests : List ChildRequest}
  {children : Children} {w w' : TaskSetFiles}

def ArchiveConflict (revision : ℕ) (w : TaskSetFiles) : Prop :=
  ∃ closure archived, w.closure = some closure ∧ w.archives revision = some archived ∧
    archived ≠ closure

theorem run_archive_conflict {revision : ℕ} (h : ArchiveConflict revision w) :
    ∃ e, (archive_closure revision).run w = (.error e, w) := by
  obtain ⟨closure, archived, hclosure, harchived, hne⟩ := h
  unfold archive_closure
  simp only [bind_eq, read_bind, run_access, id_eq, hclosure, harchived, refuseIf, if_pos hne]
  exact ⟨_, rfl⟩

theorem run_archive_ok {revision : ℕ} (h : ¬ ArchiveConflict revision w) :
    ∃ w', (archive_closure revision).run w = (.ok (), w') ∧ w'.task_set = w.task_set ∧
      w'.tasks = w.tasks := by
  unfold archive_closure
  simp only [bind_eq, read_bind, run_access, id_eq]
  cases hclosure : w.closure with
  | none => exact ⟨w, rfl, rfl, rfl⟩
  | some closure =>
    simp only [run_access, id_eq]
    cases harchived : w.archives revision with
    | none => exact ⟨_, rfl, rfl, rfl⟩
    | some archived =>
      have hsame : ¬ archived ≠ closure := fun hne =>
        h ⟨closure, archived, hclosure, harchived, hne⟩
      simp only [refuseIf, if_neg hsame]
      exact ⟨_, rfl, rfl, rfl⟩

theorem run_stale_ok {revision : ℕ} :
    ∃ w', (stale_open_intents revision).run w = (.ok (), w') ∧ w'.task_set = w.task_set ∧
      w'.tasks = w.tasks := by
  unfold stale_open_intents now update
  simp only [bind_eq, read_bind, run_access, id_eq]
  cases w.intents with
  | none => exact ⟨_, rfl, rfl, rfl⟩
  | some intents =>
    simp only [access_bind, ret_bind, run_access]
    split
    · exact ⟨_, rfl, rfl, rfl⟩
    · exact ⟨_, rfl, rfl, rfl⟩

/-- What a revision checks before it writes. -/
structure PassesChecks (record : TaskSetRecord) (expected_revision : ℕ)
    (requests : List ChildRequest) (children : Children) (w : TaskSetFiles) : Prop where
  positive : 0 < record.task_set_revision
  expected : record.task_set_revision = expected_revision
  resolved : resolve_children w.tasks record.plan_slug record.source_task_id requests
    = .ok children
  archive : ¬ ArchiveConflict record.task_set_revision w

/-- The last steps of a revision. -/
def finish_revision (record : TaskSetRecord) (children : Children) : SetCall TaskSetRecord := do
  let revised := revised_task_set record (record.task_set_revision + 1) children (← now)
  write_task_set revised
  return revised

theorem run_revise_passed (hrecord : w.task_set = some record)
    (h : PassesChecks record expected_revision requests children w) :
    ∃ w₁ updated_at, w₁.tasks = w.tasks ∧
      w₁.task_set = some { record with
        state := .revising (record.task_set_revision + 1) children
        updated_at := updated_at } ∧
      (revise_task_set_authority expected_revision requests).run w =
        ((rebind_tasks record (record.task_set_revision + 1) children).bind
          fun _ => finish_revision record children).run w₁ := by
  have hfind := run_find_task_set hrecord h.positive
  have hexpected : refuseIf (record.task_set_revision ≠ expected_revision)
      (⟨"stale task-set revision"⟩ : ValueError) = .ok () := by
    rw [refuseIf_ok, not_not]
    exact h.expected
  obtain ⟨w₁, harchive, hrecord₁, htasks₁⟩ := run_archive_ok h.archive
  obtain ⟨w₂, hstale, hrecord₂, htasks₂⟩ := @run_stale_ok { w₁ with
    clock := w₁.clock + 1
    task_set := some { record with
      state := .revising (record.task_set_revision + 1) children
      updated_at := w₁.clock } } record.task_set_revision
  refine ⟨w₂, w₁.clock, htasks₂.trans htasks₁, hrecord₂, ?_⟩
  unfold revise_task_set_authority file_lock
  rw [bind_eq, run_bind_ok hfind, run_within, bind_eq, run_bind_ok hfind]
  simp only [bind_eq, hexpected, ofExcept_ok, ret_bind]
  have hresolve : (inspect AccessName.tasks fun w => resolve_children w.tasks
      record.plan_slug record.source_task_id requests).run w = (.ok children, w) := by
    rw [run_inspect, h.resolved]
  rw [run_bind_ok hresolve, run_bind_ok harchive]
  exact run_bind_ok hstale

/-- A revision that does not pass its checks fails and leaves everything as it is. -/
theorem run_revise_refused (hrecord : w.task_set = some record)
    (h : ∀ children, ¬ PassesChecks record expected_revision requests children w) :
    ∃ e, (revise_task_set_authority expected_revision requests).run w = (.error e, w) := by
  unfold revise_task_set_authority file_lock
  by_cases hpositive : 0 < record.task_set_revision
  · have hfind := run_find_task_set hrecord hpositive
    rw [bind_eq, run_bind_ok hfind, run_within, bind_eq, run_bind_ok hfind]
    simp only [bind_eq]
    by_cases hexpected : record.task_set_revision = expected_revision
    · have hrefuse : refuseIf (record.task_set_revision ≠ expected_revision)
          (⟨"stale task-set revision"⟩ : ValueError) = .ok () := by
        rw [refuseIf_ok, not_not]
        exact hexpected
      simp only [hrefuse, ofExcept_ok, ret_bind]
      cases hresolve : resolve_children w.tasks record.plan_slug record.source_task_id requests with
      | error e =>
        refine ⟨e, ?_⟩
        rw [run_bind_error_iff, run_inspect, hresolve]
        exact .inl rfl
      | ok children =>
        have harchive : ArchiveConflict record.task_set_revision w := by
          by_contra hnone
          exact h children ⟨hpositive, hexpected, hresolve, hnone⟩
        obtain ⟨e, hfails⟩ := run_archive_conflict harchive
        refine ⟨e, ?_⟩
        rw [run_bind_error_iff, run_inspect, hresolve]
        refine .inr ⟨children, w, rfl, ?_⟩
        rw [run_bind_error_iff]
        exact .inl hfails
    · refine ⟨⟨"stale task-set revision"⟩, ?_⟩
      rw [refuseIf, if_pos hexpected]
      rfl
  · have hinvalid : validate_task_set record
        = .error ⟨"task_set_revision must be a positive integer"⟩ := by
      rw [validate_task_set, refuseIf, if_pos (by omega)]
    refine ⟨⟨"task_set_revision must be a positive integer"⟩, ?_⟩
    rw [bind_eq, run_bind_error_iff]
    left
    unfold find_task_set
    rw [run_inspect, hrecord]
    show ((do
      validate_task_set record
      return record : Except ValueError TaskSetRecord), w) = _
    rw [hinvalid]
    rfl

def bindings (task : PlannedTask) : Option ChildBinding × Option ParentBinding :=
  (task.member.task_set, task.member.task_set_parent)

/-- The task set's record, its closure and intents and the bindings of all tasks are as they
were. -/
structure Unchanged (w w' : TaskSetFiles) : Prop where
  task_set : w'.task_set = w.task_set
  closure : w'.closure = w.closure
  intents : w'.intents = w.intents
  bindings : ∀ id, (w'.tasks id).map bindings = (w.tasks id).map bindings

/-- A revision that passes its checks returns where the tasks take their new bindings, and
otherwise fails with a record that is being revised. -/
theorem run_revise_error (hrecord : w.task_set = some record)
    (h : PassesChecks record expected_revision requests children w) {e : ValueError}
    (hrun : (revise_task_set_authority expected_revision requests).run w = (.error e, w')) :
    ¬ Admits record (record.task_set_revision + 1) children w ∧
      ∃ after, w'.task_set = some after ∧ after.state.is_revising = true := by
  obtain ⟨w₁, updated_at, htasks, hrevising, hsame⟩ := run_revise_passed hrecord h
  have hparent := (resolve_children_ids h.resolved).2
  rw [hsame, run_bind_error_iff] at hrun
  rcases hrun with hrun | ⟨_, w₂, _, hfinish⟩
  · constructor
    · intro hadmits
      obtain ⟨w₂, hok⟩ := rebind_returns hparent (hadmits.same_tasks htasks)
      rw [hok] at hrun
      cases hrun
    · have hfiles : OnlyTasks w₁ ((rebind_tasks record (record.task_set_revision + 1)
          children).run w₁).2 := rebind_files
      rw [hrun] at hfiles
      refine ⟨{ record with
        state := .revising (record.task_set_revision + 1) children
        updated_at := updated_at }, ?_, rfl⟩
      exact hfiles.task_set.trans hrevising
  · cases hfinish

theorem run_revise_ok (hrecord : w.task_set = some record) {revised : TaskSetRecord}
    (hrun : (revise_task_set_authority expected_revision requests).run w = (.ok revised, w')) :
    ∃ children, PassesChecks record expected_revision requests children w ∧
      Admits record (record.task_set_revision + 1) children w ∧
      w'.task_set = some revised ∧ revised.task_set_id = record.task_set_id ∧
      revised.source_task_id = record.source_task_id ∧
      revised.task_set_revision = record.task_set_revision + 1 ∧
      revised.children = children ∧
      Rebound record (record.task_set_revision + 1) children w w' := by
  by_cases hpasses : ∃ children, PassesChecks record expected_revision requests children w
  · obtain ⟨children, hpasses⟩ := hpasses
    obtain ⟨w₁, updated_at, htasks, hrevising, hsame⟩ := run_revise_passed hrecord hpasses
    rw [hsame, run_bind_ok_iff] at hrun
    obtain ⟨_, w₂, hrebind, hfinish⟩ := hrun
    obtain ⟨hadmits, hrebound⟩ := rebind_ok (resolve_children_ids hpasses.resolved).2 hrebind
    have hadmits₀ := hadmits.same_tasks htasks.symm
    cases hfinish
    exact ⟨children, hpasses, hadmits₀, rfl, rfl, rfl, rfl, rfl, hrebound.same_tasks htasks rfl⟩
  · push Not at hpasses
    obtain ⟨e, hrefused⟩ := run_revise_refused hrecord hpasses
    rw [hrefused] at hrun
    cases hrun

/-- **A revision that is refused changes nothing exactly when its checks refuse it, or rather
when the tasks would take whatever passes them.** -/
theorem refused_unchanged_iff (hrecord : w.task_set = some record)
    (hstate : record.state.is_revising = false) :
    (∀ e w', (revise_task_set_authority expected_revision requests).run w = (.error e, w') →
        Unchanged w w') ↔
      ∀ children, PassesChecks record expected_revision requests children w →
        Admits record (record.task_set_revision + 1) children w := by
  constructor
  · intro h children hpasses
    rcases hrun : (revise_task_set_authority expected_revision requests).run w
      with ⟨e | revised, w'⟩
    · obtain ⟨_, after, hafter, hrevising⟩ := run_revise_error hrecord hpasses hrun
      have hsame := (h e w' hrun).task_set
      rw [hafter, hrecord, Option.some.injEq] at hsame
      rw [hsame, hstate] at hrevising
      cases hrevising
    · obtain ⟨others, hothers, hadmits, _⟩ := run_revise_ok hrecord hrun
      have hsame := hothers.resolved.symm.trans hpasses.resolved
      rw [Except.ok.injEq] at hsame
      exact hsame ▸ hadmits
  · intro h e w' hrun
    by_cases hpasses : ∃ children, PassesChecks record expected_revision requests children w
    · obtain ⟨children, hpasses⟩ := hpasses
      exact absurd (h children hpasses) (run_revise_error hrecord hpasses hrun).1
    · push Not at hpasses
      obtain ⟨e', hrefused⟩ := run_revise_refused hrecord hpasses
      rw [hrefused, Prod.mk.injEq] at hrun
      rw [← hrun.2]
      exact ⟨rfl, rfl, rfl, fun _ => rfl⟩

/-- The tasks that name the task set are the children of its record, bound as it says, and the
parent is bound at its revision. -/
structure InStep (record : TaskSetRecord) (w : TaskSetFiles) : Prop where
  recorded : w.task_set = some record
  only_children : ∀ id binding, bound_child w id = some binding →
    binding.task_set_id = record.task_set_id → id ∈ child_ids record.children.val
  children_bound : ∀ child ∈ record.children.val, ∃ binding,
    bound_child w child.task_id = some binding ∧ binding.task_set_id = record.task_set_id ∧
      binding.task_set_revision = record.task_set_revision ∧
      binding.required = child.required ∧ binding.order = child.order
  parent_bound : ∃ binding, bound_parent w record.source_task_id = some binding ∧
    binding.task_set_id = record.task_set_id ∧ binding.task_set_revision = record.task_set_revision

/-- The children that a revision asks for cover the tasks that name the task set: it asks for
each of them, or finds it among the children of the record. -/
def Covers (record : TaskSetRecord) (requests : List ChildRequest) (w : TaskSetFiles) : Prop :=
  ∀ id binding, bound_child w id = some binding → binding.task_set_id = record.task_set_id →
    id ∈ requests.map ChildRequest.task_id ∨ id ∈ child_ids record.children.val

/-- **A revision that returns leaves the bindings in step with the record exactly when its
children cover the tasks that are bound.** -/
theorem revised_in_step_iff (hrecord : w.task_set = some record) {revised : TaskSetRecord}
    (hrun : (revise_task_set_authority expected_revision requests).run w = (.ok revised, w')) :
    InStep revised w' ↔ Covers record requests w := by
  obtain ⟨children, hpasses, _, hrecorded, hset, hsource, hrevision, hchildren, hrebound⟩ :=
    run_revise_ok hrecord hrun
  have hids := (resolve_children_ids hpasses.resolved).1
  have hleft : ∀ id, id ∈ child_ids (left_out record children) ↔
      id ∈ child_ids record.children.val ∧ id ∉ child_ids children.val := by
    intro id
    constructor
    · intro hid
      obtain ⟨child, hchild, rfl⟩ := List.mem_map.mp hid
      obtain ⟨hmem, hout⟩ := List.mem_filter.mp hchild
      rw [decide_eq_true_eq] at hout
      exact ⟨List.mem_map_of_mem hmem, hout⟩
    · rintro ⟨hid, hout⟩
      obtain ⟨child, hchild, rfl⟩ := List.mem_map.mp hid
      exact List.mem_map_of_mem (List.mem_filter.mpr ⟨hchild, decide_eq_true hout⟩)
  constructor
  · intro hstep id binding hbinding hnames
    by_contra hnone
    rw [not_or, ← hids] at hnone
    have hkept := hrebound.others id (fun hid => hnone.2 ((hleft id).mp hid).1) hnone.1
    have hmem := hstep.only_children id binding (hkept.trans hbinding) (hnames.trans hset.symm)
    rw [hchildren] at hmem
    exact hnone.1 hmem
  · intro hcovers
    constructor
    · exact hrecorded
    · intro id binding hbinding hnames
      rw [hchildren]
      by_contra hnot
      by_cases hout : id ∈ child_ids (left_out record children)
      · obtain ⟨child, hchild, rfl⟩ := List.mem_map.mp hout
        rw [hrebound.released child hchild] at hbinding
        cases hbinding
      · rw [hrebound.others id hout hnot] at hbinding
        rcases hcovers id binding hbinding (hnames.trans hset) with hasked | hchild
        · rw [← hids] at hasked
          exact hnot hasked
        · exact hout ((hleft id).mpr ⟨hchild, hnot⟩)
    · intro child hchild
      rw [hchildren] at hchild
      exact ⟨_, hrebound.bound child hchild, hset.symm, hrevision.symm, rfl, rfl⟩
    · obtain ⟨task_revision, hparent⟩ := hrebound.parent_bound
      rw [hsource]
      exact ⟨_, hparent, hset.symm, hrevision.symm⟩

end Revising

end ClaudeCodeBridge.Analysis.TaskSet
