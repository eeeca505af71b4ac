import ClaudeCodeBridge.Model.TaskSets

/-!
# Binding the tasks of a task set

What a task accepts (`Releases`, `TakesChild`, `TakesParent`) is read off its record.  A loop of
commands over tasks goes through exactly when each of them accepts (`each_returns`,
`each_performed`), so that the tasks are bound anew exactly when all of them take their new
bindings (`rebind_returns`, `rebind_ok`).
-/

set_option autoImplicit false

namespace ClaudeCodeBridge.Analysis.TaskSet

open Program Program.Prog
open Model.PlanTask
open Model.TaskSet

def leaves (member : MemberRecord) : MemberOutcome → MemberRecord
  | .unchanged => member
  | .replaced member => member.bumped

def child_binding (task_set_id : Segment) (revision : ℕ) (child : TaskSetChild) : ChildBinding :=
  { task_set_id := task_set_id
    task_set_revision := revision
    bound_task_revision := child.task_revision
    required := child.required
    order := child.order }

def parent_binding (task_set_id : Segment) (revision : ℕ) (task_revision : ℕ) : ParentBinding :=
  { task_set_id := task_set_id
    task_set_revision := revision
    bound_task_revision := task_revision }

/-- A task that is not bound, or bound by this task set at an earlier revision or in just this
way. -/
def Rebindable {β : Type} (id : β → Segment) (revision : β → ℕ) (binding : β)
    (existing : Option β) : Prop :=
  ∀ old, existing = some old → id old = id binding ∧
    (revision old < revision binding ∨ old = binding)

variable {β : Type}

theorem check_existing_binding_ok [DecidableEq β] {id : β → Segment} {revision : β → ℕ}
    {existing : Option β} {binding : β} :
    (∃ same, check_existing_binding id revision existing binding = .ok same) ↔
      Rebindable id revision binding existing := by
  unfold Rebindable
  cases existing with
  | none => simp [check_existing_binding]
  | some old =>
    simp only [check_existing_binding, bind_ok, refuseIf_ok, not_not, Option.some.injEq, forall_eq']
    constructor
    · rintro ⟨same, _, hid, _, hstale, h⟩
      refine ⟨hid, ?_⟩
      split at h
      · rename_i hrevision
        simp only [bind_ok, refuseIf_ok, not_not] at h
        obtain ⟨_, hsame, _⟩ := h
        exact .inr hsame
      · omega
    · rintro ⟨hid, hold⟩
      by_cases hrevision : revision old = revision binding
      · refine ⟨true, (), hid, (), by omega, ?_⟩
        rw [if_pos hrevision]
        simp only [bind_ok, refuseIf_ok, not_not, pure_ok, and_true, exists_const]
        rcases hold with hless | hsame
        · omega
        · exact hsame
      · refine ⟨false, (), hid, (), ?_, ?_⟩
        · rcases hold with hless | hsame
          · omega
          · exact absurd (congrArg revision hsame) hrevision
        · rw [if_neg hrevision]
          rfl

theorem check_existing_binding_same [DecidableEq β] {id : β → Segment}
    {revision : β → ℕ} {existing : Option β} {binding : β}
    (h : check_existing_binding id revision existing binding = .ok true) :
    existing = some binding := by
  cases existing with
  | none => simp [check_existing_binding] at h
  | some old =>
    simp only [check_existing_binding, bind_ok] at h
    obtain ⟨_, _, _, _, h⟩ := h
    split at h
    · simp only [bind_ok, refuseIf_ok, not_not] at h
      obtain ⟨_, hsame, _⟩ := h
      exact congrArg some hsame
    · cases h

theorem check_existing_binding_other [DecidableEq β] {id : β → Segment}
    {revision : β → ℕ} {existing : Option β} {binding : β}
    (h : check_existing_binding id revision existing binding = .ok false) :
    existing ≠ some binding := by
  rintro rfl
  simp only [check_existing_binding, ↓reduceIte, bind_ok, pure_ok] at h
  obtain ⟨_, _, _, _, _, _, hcontra⟩ := h
  cases hcontra

theorem positive_revision_ok {revision : ℕ} {u : Unit} :
    positive_revision revision = .ok u ↔ 0 < revision := by
  rw [positive_revision, refuseIf_ok, Nat.pos_iff_ne_zero]

def OfRevision (task_revision : ℕ) (member : MemberRecord) : Prop :=
  0 < task_revision ∧ member.record.task_revision = task_revision

variable {member : MemberRecord}

theorem assert_expected_ok {task_revision : ℕ} {u : Unit} :
    assert_expected_task_revision (some (task_revision : ℤ)) member.record = .ok u ↔
      OfRevision task_revision member := by
  simp only [assert_expected_task_revision, bind_ok, refuseIf_ok, not_not, OfRevision]
  constructor
  · rintro ⟨_, hpos, hsame⟩
    exact ⟨by omega, by omega⟩
  · rintro ⟨hpos, hsame⟩
    exact ⟨(), by omega, by omega⟩

structure TakesChild (task_set_id : Segment) (revision : ℕ) (child : TaskSetChild)
    (member : MemberRecord) : Prop where
  positive : 0 < revision
  of_revision : OfRevision child.task_revision member
  rebindable : Rebindable ChildBinding.task_set_id ChildBinding.task_set_revision
    (child_binding task_set_id revision child) member.task_set

structure TakesParent (task_set_id : Segment) (revision : ℕ) (member : MemberRecord) : Prop where
  positive : 0 < revision
  task_positive : 0 < member.record.task_revision
  rebindable : Rebindable ParentBinding.task_set_id ParentBinding.task_set_revision
    (parent_binding task_set_id revision member.record.task_revision) member.task_set_parent
  status : member.task_set_parent
      ≠ some (parent_binding task_set_id revision member.record.task_revision) →
    member.record.status ∈ [TaskStatus.draft, .decomposed, .ready_for_orchestration]

def Releases (task_set_id : Segment) (revision : ℕ) (member : MemberRecord) : Prop :=
  0 < revision ∧ ∀ old, member.task_set = some old →
    old.task_set_id = task_set_id ∧ old.task_set_revision = revision

theorem bind_child_ok {task_set_id : Segment} {revision : ℕ} {child : TaskSetChild} {now : ℕ} :
    (∃ outcome, task_bind_child (bind_child_command task_set_id revision child now) member
      = .ok outcome) ↔ TakesChild task_set_id revision child member := by
  have hbinding : ∀ h : OfRevision child.task_revision member,
      ({ task_set_id := task_set_id
         task_set_revision := revision
         bound_task_revision := member.record.task_revision
         required := child.required
         order := child.order } : ChildBinding) = child_binding task_set_id revision child := by
    intro h
    rw [h.2]
    rfl
  constructor
  · rintro ⟨outcome, h⟩
    simp only [task_bind_child, bind_child_command, positive_revision_ok, bind_ok] at h
    obtain ⟨_, hpos, _, hrevision, same, hsame, -⟩ := h
    rw [assert_expected_ok] at hrevision
    rw [hbinding hrevision] at hsame
    exact ⟨hpos, hrevision, check_existing_binding_ok.mp ⟨same, hsame⟩⟩
  · intro h
    obtain ⟨same, hsame⟩ := check_existing_binding_ok.mpr h.rebindable
    have hassert : assert_expected_task_revision (some (child.task_revision : ℤ)) member.record
        = .ok () := assert_expected_ok.mpr h.of_revision
    refine ⟨if same then .unchanged else .replaced { member with
      task_set := some (child_binding task_set_id revision child)
      record := { member.record with updated_at := now } }, ?_⟩
    simp only [task_bind_child, bind_child_command, positive_revision_ok, bind_ok]
    refine ⟨(), h.positive, (), hassert, same, ?_, ?_⟩
    · rw [hbinding h.of_revision]
      exact hsame
    · rw [hbinding h.of_revision]
      cases same <;> rfl

theorem bind_child_leaves {task_set_id : Segment} {revision : ℕ} {child : TaskSetChild}
    {now : ℕ} {outcome : MemberOutcome}
    (h : task_bind_child (bind_child_command task_set_id revision child now) member
      = .ok outcome) :
    (leaves member outcome).task_set = some (child_binding task_set_id revision child) ∧
      (leaves member outcome).task_set_parent = member.task_set_parent := by
  have hrevision := (bind_child_ok.mp ⟨outcome, h⟩).of_revision.2
  simp only [task_bind_child, bind_child_command, bind_ok] at h
  obtain ⟨_, -, _, -, same, hsame, h⟩ := h
  rw [hrevision] at hsame
  cases same with
  | true =>
    have hexisting := check_existing_binding_same hsame
    rw [if_pos rfl, pure_ok] at h
    rw [← h]
    exact ⟨hexisting, rfl⟩
  | false =>
    rw [if_neg Bool.false_ne_true, pure_ok] at h
    rw [← h]
    refine ⟨?_, rfl⟩
    rw [hrevision]
    rfl

theorem bind_parent_ok {record : TaskSetRecord} {revision now : ℕ} {source_task : PlannedTask} :
    (∃ outcome, task_bind_parent (bind_parent_command record revision source_task now)
      source_task.member = .ok outcome) ↔
        TakesParent record.task_set_id revision source_task.member := by
  constructor
  · rintro ⟨outcome, h⟩
    simp only [task_bind_parent, bind_parent_command, positive_revision_ok, bind_ok] at h
    obtain ⟨_, hpos, _, hrevision, same, hsame, h⟩ := h
    rw [assert_expected_ok] at hrevision
    refine ⟨hpos, hrevision.1, check_existing_binding_ok.mp ⟨same, hsame⟩, ?_⟩
    intro hother
    cases same with
    | true => exact absurd (check_existing_binding_same hsame) hother
    | false =>
      rw [if_neg Bool.false_ne_true] at h
      simp only [bind_ok, refuseIf_ok, not_not] at h
      obtain ⟨_, hstatus, _⟩ := h
      exact hstatus
  · intro h
    obtain ⟨same, hsame⟩ := check_existing_binding_ok.mpr h.rebindable
    have hassert : assert_expected_task_revision
        (some (source_task.member.record.task_revision : ℤ)) source_task.member.record
        = .ok () := assert_expected_ok.mpr ⟨h.task_positive, rfl⟩
    simp only [task_bind_parent, bind_parent_command, positive_revision_ok, bind_ok]
    cases same with
    | true => exact ⟨.unchanged, (), h.positive, (), hassert, true, hsame, rfl⟩
    | false =>
      have hstatus := h.status (check_existing_binding_other hsame)
      exact ⟨_, (), h.positive, (), hassert, false, hsame, (if_neg Bool.false_ne_true).trans
        (bind_ok.mpr ⟨(), refuseIf_ok.mpr (not_not.mpr hstatus), rfl⟩)⟩

theorem bind_parent_leaves {record : TaskSetRecord} {revision now : ℕ} {source_task : PlannedTask}
    {outcome : MemberOutcome}
    (h : task_bind_parent (bind_parent_command record revision source_task now) member
      = .ok outcome) :
    Rebindable ParentBinding.task_set_id ParentBinding.task_set_revision
        (parent_binding record.task_set_id revision member.record.task_revision)
        member.task_set_parent ∧
      (leaves member outcome).task_set_parent = some (parent_binding record.task_set_id
        revision member.record.task_revision) ∧
      (leaves member outcome).task_set = member.task_set := by
  simp only [task_bind_parent, bind_parent_command, bind_ok] at h
  obtain ⟨_, -, _, -, same, hsame, h⟩ := h
  refine ⟨check_existing_binding_ok.mp ⟨same, hsame⟩, ?_⟩
  cases same with
  | true =>
    have hexisting := check_existing_binding_same hsame
    rw [if_pos rfl, pure_ok] at h
    rw [← h]
    exact ⟨hexisting, rfl⟩
  | false =>
    rw [if_neg Bool.false_ne_true] at h
    simp only [bind_ok, pure_ok] at h
    obtain ⟨_, -, rfl⟩ := h
    exact ⟨rfl, rfl⟩

theorem unbind_ok {record : TaskSetRecord} {now : ℕ} :
    (∃ outcome, task_unbind_task_set (unbind_command record now) member = .ok outcome) ↔
      Releases record.task_set_id record.task_set_revision member := by
  unfold Releases task_unbind_task_set unbind_command
  simp only [positive_revision_ok, bind_ok]
  cases member.task_set with
  | none => simp
  | some binding =>
    simp only [bind_ok, refuseIf_ok, pure_ok, not_or, not_not, Option.some.injEq, forall_eq']
    constructor
    · rintro ⟨_, _, hpos, _, hsame, _⟩
      exact ⟨hpos, hsame⟩
    · rintro ⟨hpos, hsame⟩
      exact ⟨_, (), hpos, (), hsame, rfl⟩

theorem unbind_leaves {record : TaskSetRecord} {now : ℕ} {outcome : MemberOutcome}
    (h : task_unbind_task_set (unbind_command record now) member = .ok outcome) :
    (leaves member outcome).task_set = none ∧
      (leaves member outcome).task_set_parent = member.task_set_parent ∧
      (leaves member outcome).record.status = member.record.status ∧
      (leaves member outcome).record.task_revision = member.record.task_revision := by
  simp only [task_unbind_task_set, unbind_command, bind_ok] at h
  obtain ⟨_, -, h⟩ := h
  cases htask : member.task_set with
  | none =>
    rw [htask] at h
    simp only [pure_ok] at h
    rw [← h]
    exact ⟨htask, rfl, rfl, rfl⟩
  | some binding =>
    rw [htask] at h
    simp only [bind_ok, pure_ok] at h
    obtain ⟨_, -, rfl⟩ := h
    exact ⟨rfl, rfl, rfl, rfl⟩

/-- A command for each of some children, that tells the time. -/
abbrev ChildCommand := TaskSetChild → ℕ → MemberRecord → Except ValueError MemberOutcome

def each (command : ChildCommand) (children : List TaskSetChild) : SetCall Unit :=
  forEach children fun child => do
    let at_ ← now
    plan_task_fn child.task_id (command child at_)

/-- Only these tasks, and the clock, have changed. -/
structure TasksMoved (ids : List Segment) (w w' : TaskSetFiles) : Prop where
  files : w' = { w with tasks := w'.tasks, clock := w'.clock }
  others : ∀ id, id ∉ ids → w'.tasks id = w.tasks id

theorem TasksMoved.refl (ids : List Segment) (w : TaskSetFiles) : TasksMoved ids w w :=
  ⟨rfl, fun _ _ => rfl⟩

theorem TasksMoved.trans {ids more : List Segment} {w w' w'' : TaskSetFiles}
    (h : TasksMoved ids w w') (h' : TasksMoved more w' w'') : TasksMoved (ids ++ more) w w'' := by
  refine ⟨?_, ?_⟩
  · rw [h'.files, h.files]
  · intro id hid
    rw [List.mem_append, not_or] at hid
    rw [h'.others id hid.2, h.others id hid.1]

theorem TasksMoved.mono {ids more : List Segment} {w w' : TaskSetFiles} (h : TasksMoved ids w w')
    (hsub : ids ⊆ more) : TasksMoved more w w' :=
  ⟨h.files, fun id hid => h.others id fun hmem => hid (hsub hmem)⟩

/-- A command has been carried out on a task. -/
def Performed (command : ℕ → MemberRecord → Except ValueError MemberOutcome) (task_id : Segment)
    (w w' : TaskSetFiles) : Prop :=
  ∃ at_ task outcome, w.tasks task_id = some task ∧ command at_ task.member = .ok outcome ∧
    w'.tasks task_id = some { task with member := leaves task.member outcome }

def Accepts (command : ℕ → MemberRecord → Except ValueError MemberOutcome) (task_id : Segment)
    (w : TaskSetFiles) : Prop :=
  ∃ task, w.tasks task_id = some task ∧ ∀ at_, ∃ outcome, command at_ task.member = .ok outcome

section Commands

variable {command : ℕ → MemberRecord → Except ValueError MemberOutcome} {task_id : Segment}
  {w : TaskSetFiles}

theorem plan_task_ok {tasks tasks' : Tasks}
    {command : MemberRecord → Except ValueError MemberOutcome}
    (h : plan_task task_id command tasks = .ok tasks') :
    ∃ task outcome, tasks task_id = some task ∧ command task.member = .ok outcome ∧
      tasks' = Function.update tasks task_id
        (some { task with member := leaves task.member outcome }) := by
  simp only [plan_task, show_task, bind_ok, valueOr_ok] at h
  obtain ⟨task, htask, outcome, houtcome, h⟩ := h
  refine ⟨task, outcome, htask, houtcome, ?_⟩
  cases outcome with
  | unchanged =>
    rw [pure_ok] at h
    rw [← h]
    exact (Function.update_eq_self_iff.mpr htask.symm).symm
  | replaced member =>
    rw [pure_ok] at h
    exact h.symm

/-- A command on a task, with the time that it tells. -/
def at_once (task_id : Segment)
    (command : ℕ → MemberRecord → Except ValueError MemberOutcome) : SetCall Unit := do
  let at_ ← now
  plan_task_fn task_id (command at_)

theorem run_at_once :
    (at_once task_id command).run w =
      ((plan_task task_id (command w.clock) w.tasks).map fun _ => (),
        { w with
          tasks := (plan_task task_id (command w.clock) w.tasks).toOption.getD w.tasks
          clock := w.clock + 1 }) := by
  unfold at_once now plan_task_fn attempt update
  simp only [bind_eq, access_bind, ret_bind, run_access, run_ofExcept]
  cases plan_task task_id (command w.clock) w.tasks with
  | error e => rfl
  | ok tasks => rfl

theorem at_once_moved : TasksMoved [task_id] w ((at_once task_id command).run w).2 := by
  rw [run_at_once]
  refine ⟨rfl, ?_⟩
  intro id hid
  rw [List.mem_singleton] at hid
  cases h : plan_task task_id (command w.clock) w.tasks with
  | error e => rfl
  | ok tasks =>
    obtain ⟨task, outcome, _, _, rfl⟩ := plan_task_ok h
    exact Function.update_of_ne hid _ _

theorem at_once_performed (h : ((at_once task_id command).run w).1 = .ok ()) :
    Performed command task_id w ((at_once task_id command).run w).2 := by
  rw [run_at_once] at h ⊢
  cases hplan : plan_task task_id (command w.clock) w.tasks with
  | error e =>
    rw [hplan] at h
    cases h
  | ok tasks =>
    obtain ⟨task, outcome, htask, houtcome, rfl⟩ := plan_task_ok hplan
    exact ⟨w.clock, task, outcome, htask, houtcome, Function.update_self _ _ _⟩

theorem at_once_returns (h : Accepts command task_id w) :
    ((at_once task_id command).run w).1 = .ok () := by
  obtain ⟨task, htask, haccepts⟩ := h
  obtain ⟨outcome, houtcome⟩ := haccepts w.clock
  rw [run_at_once]
  have hplan : ∃ tasks, plan_task task_id (command w.clock) w.tasks = .ok tasks := by
    simp only [plan_task, show_task, bind_ok, valueOr_ok]
    cases outcome with
    | unchanged | replaced member => exact ⟨_, task, htask, _, houtcome, rfl⟩
  obtain ⟨tasks, hplan⟩ := hplan
  rw [hplan]
  rfl

theorem Accepts.moved {ids : List Segment} {w' : TaskSetFiles} (h : Accepts command task_id w)
    (hmoved : TasksMoved ids w w') (hid : task_id ∉ ids) : Accepts command task_id w' := by
  obtain ⟨task, htask, haccepts⟩ := h
  exact ⟨task, (hmoved.others task_id hid).trans htask, haccepts⟩

end Commands

theorem run_bind_ok_iff {α : Type} {p : SetCall α} {f : α → SetCall β} {w w' : TaskSetFiles}
    {b : β} :
    (p.bind f).run w = (.ok b, w') ↔
      ∃ a w₁, p.run w = (.ok a, w₁) ∧ (f a).run w₁ = (.ok b, w') := by
  rw [run_bind]
  rcases p.run w with ⟨_ | a, w₁⟩
  · simp
  · simp

theorem run_bind_error_iff {α : Type} {p : SetCall α} {f : α → SetCall β} {w w' : TaskSetFiles}
    {e : ValueError} :
    (p.bind f).run w = (.error e, w') ↔
      p.run w = (.error e, w') ∨ ∃ a w₁, p.run w = (.ok a, w₁) ∧ (f a).run w₁ = (.error e, w') := by
  rw [run_bind]
  rcases p.run w with ⟨_ | a, w₁⟩
  · simp
  · simp

section Loops

variable {command : ChildCommand} {children : List TaskSetChild} {w : TaskSetFiles}

theorem each_moved : TasksMoved (child_ids children) w ((each command children).run w).2 := by
  induction children generalizing w with
  | nil => exact TasksMoved.refl _ w
  | cons child children ih =>
    have hfirst : TasksMoved [child.task_id] w
        ((at_once child.task_id (command child)).run w).2 := at_once_moved
    show TasksMoved _ w (((at_once child.task_id (command child)).bind
      fun _ => each command children).run w).2
    rw [run_bind]
    rcases hrun : (at_once child.task_id (command child)).run w with ⟨_ | _, w₁⟩
    · rw [hrun] at hfirst
      exact hfirst.mono (List.cons_subset_cons _ (List.nil_subset _))
    · rw [hrun] at hfirst
      exact hfirst.trans ih

/-- Where a loop returns, the command has been carried out on each of the tasks. -/
theorem each_performed (hnodup : (child_ids children).Nodup)
    (h : ((each command children).run w).1 = .ok ()) :
    ∀ child ∈ children,
      Performed (command child) child.task_id w ((each command children).run w).2 := by
  induction children generalizing w with
  | nil => simp
  | cons first children ih =>
    have hfirst : TasksMoved [first.task_id] w
        ((at_once first.task_id (command first)).run w).2 := at_once_moved
    have hrun : (each command (first :: children)).run w =
        ((at_once first.task_id (command first)).bind fun _ => each command children).run w := rfl
    rw [child_ids, List.map_cons, List.nodup_cons] at hnodup
    rcases hone : (at_once first.task_id (command first)).run w with ⟨_ | _, w₁⟩
    · rw [hrun, run_bind, hone] at h
      cases h
    · rw [hrun, run_bind_ok hone] at h ⊢
      have hrest : TasksMoved (child_ids children) w₁ ((each command children).run w₁).2 :=
        each_moved
      rw [hone] at hfirst
      intro child hchild
      rw [List.mem_cons] at hchild
      rcases hchild with rfl | hchild
      · have hperformed := at_once_performed (congrArg Prod.fst hone)
        rw [hone] at hperformed
        obtain ⟨at_, task, outcome, htask, houtcome, hleft⟩ := hperformed
        exact ⟨at_, task, outcome, htask, houtcome, (hrest.others _ hnodup.1).trans hleft⟩
      · obtain ⟨at_, task, outcome, htask, houtcome, hleft⟩ := ih hnodup.2 h child hchild
        have hne : child.task_id ∉ [first.task_id] := by
          rw [List.mem_singleton]
          intro hsame
          exact hnodup.1 (hsame ▸ List.mem_map_of_mem hchild)
        exact ⟨at_, task, outcome, (hfirst.others _ hne).symm.trans htask, houtcome, hleft⟩

theorem each_returns (hnodup : (child_ids children).Nodup)
    (h : ∀ child ∈ children, Accepts (command child) child.task_id w) :
    ((each command children).run w).1 = .ok () := by
  induction children generalizing w with
  | nil => rfl
  | cons first children ih =>
    rw [child_ids, List.map_cons, List.nodup_cons] at hnodup
    have hone := at_once_returns (h first List.mem_cons_self)
    have hmoved : TasksMoved [first.task_id] w
        ((at_once first.task_id (command first)).run w).2 := at_once_moved
    show (((at_once first.task_id (command first)).bind
      fun _ => each command children).run w).1 = .ok ()
    rw [run_bind_ok (Prod.ext hone rfl)]
    apply ih hnodup.2
    intro child hchild
    apply (h child (List.mem_cons_of_mem _ hchild)).moved hmoved
    rw [List.mem_singleton]
    intro hsame
    exact hnodup.1 (hsame ▸ List.mem_map_of_mem hchild)

end Loops

section Specs

variable {record : TaskSetRecord} {revision : ℕ} {children : List TaskSetChild}
  {w w' : TaskSetFiles} {result : Except ValueError Unit} {source_task : PlannedTask}

theorem unbind_children_moved (h : (unbind_children record children).run w = (result, w')) :
    TasksMoved (child_ids children) w w' := by
  have hmoved : TasksMoved (child_ids children) w ((unbind_children record children).run w).2 :=
    each_moved
  rwa [h] at hmoved

theorem unbind_children_ok (hnodup : (child_ids children).Nodup)
    (h : (unbind_children record children).run w = (.ok (), w')) :
    ∀ child ∈ children, ∃ task member, w.tasks child.task_id = some task ∧
      Releases record.task_set_id record.task_set_revision task.member ∧
      w'.tasks child.task_id = some { task with member := member } ∧ member.task_set = none ∧
      member.task_set_parent = task.member.task_set_parent ∧
      member.record.status = task.member.record.status ∧
      member.record.task_revision = task.member.record.task_revision := by
  intro child hchild
  have hperformed : Performed (fun at_ => task_unbind_task_set (unbind_command record at_))
      child.task_id w ((unbind_children record children).run w).2 :=
    each_performed hnodup (congrArg Prod.fst h) child hchild
  rw [h] at hperformed
  obtain ⟨_, task, outcome, htask, houtcome, hleft⟩ := hperformed
  exact ⟨task, _, htask, unbind_ok.mp ⟨outcome, houtcome⟩, hleft, unbind_leaves houtcome⟩

theorem bind_children_moved {task_set_id : Segment}
    (h : (bind_children task_set_id revision children).run w = (result, w')) :
    TasksMoved (child_ids children) w w' := by
  have hmoved : TasksMoved (child_ids children) w
      ((bind_children task_set_id revision children).run w).2 := each_moved
  rwa [h] at hmoved

theorem bind_children_ok {task_set_id : Segment} (hnodup : (child_ids children).Nodup)
    (h : (bind_children task_set_id revision children).run w = (.ok (), w')) :
    ∀ child ∈ children, ∃ task member, w.tasks child.task_id = some task ∧
      TakesChild task_set_id revision child task.member ∧
      w'.tasks child.task_id = some { task with member := member } ∧
      member.task_set = some (child_binding task_set_id revision child) ∧
      member.task_set_parent = task.member.task_set_parent := by
  intro child hchild
  have hperformed : Performed
      (fun at_ => task_bind_child (bind_child_command task_set_id revision child at_))
      child.task_id w ((bind_children task_set_id revision children).run w).2 :=
    each_performed hnodup (congrArg Prod.fst h) child hchild
  rw [h] at hperformed
  obtain ⟨_, task, outcome, htask, houtcome, hleft⟩ := hperformed
  exact ⟨task, _, htask, bind_child_ok.mp ⟨outcome, houtcome⟩, hleft, bind_child_leaves houtcome⟩

theorem bind_parent_moved (h : (bind_parent record revision source_task).run w = (result, w')) :
    TasksMoved [record.source_task_id] w w' := by
  have hmoved : TasksMoved [record.source_task_id] w
      ((bind_parent record revision source_task).run w).2 := at_once_moved
  rwa [h] at hmoved

theorem bind_parent_ok_spec (hsource : w.tasks record.source_task_id = some source_task)
    (h : (bind_parent record revision source_task).run w = (.ok (), w')) :
    TakesParent record.task_set_id revision source_task.member ∧
      ∃ member, w'.tasks record.source_task_id = some { source_task with member := member } ∧
        member.task_set_parent = some (parent_binding record.task_set_id revision
          source_task.member.record.task_revision) ∧
        member.task_set = source_task.member.task_set := by
  have hperformed : Performed
      (fun at_ => task_bind_parent (bind_parent_command record revision source_task at_))
      record.source_task_id w ((bind_parent record revision source_task).run w).2 :=
    at_once_performed (congrArg Prod.fst h)
  rw [h] at hperformed
  obtain ⟨_, task, outcome, htask, houtcome, hleft⟩ := hperformed
  rw [hsource, Option.some.injEq] at htask
  subst htask
  exact ⟨bind_parent_ok.mp ⟨outcome, houtcome⟩, _, hleft, (bind_parent_leaves houtcome).2⟩

end Specs

/-- The children that a revision leaves out. -/
def left_out (record : TaskSetRecord) (children : Children) : List TaskSetChild :=
  record.children.val.filter fun child => child.task_id ∉ child_ids children.val

/-- Every task that a revision would let go or bind takes it. -/
structure Admits (record : TaskSetRecord) (revision : ℕ) (children : Children) (w : TaskSetFiles) :
    Prop where
  releases : ∀ child ∈ left_out record children, ∃ task, w.tasks child.task_id = some task ∧
    Releases record.task_set_id record.task_set_revision task.member
  parent : ∃ task, w.tasks record.source_task_id = some task ∧
    TakesParent record.task_set_id revision task.member
  listed : ∀ child ∈ children.val, ∃ task, w.tasks child.task_id = some task ∧
    TakesChild record.task_set_id revision child task.member

theorem Admits.same_tasks {record : TaskSetRecord} {revision : ℕ} {children : Children}
    {w w' : TaskSetFiles} (h : Admits record revision children w) (htasks : w'.tasks = w.tasks) :
    Admits record revision children w' := by
  constructor
  · rw [htasks]
    exact h.releases
  · rw [htasks]
    exact h.parent
  · rw [htasks]
    exact h.listed

def bound_child (w : TaskSetFiles) (task_id : Segment) : Option ChildBinding :=
  (w.tasks task_id).bind fun task => task.member.task_set

def bound_parent (w : TaskSetFiles) (task_id : Segment) : Option ParentBinding :=
  (w.tasks task_id).bind fun task => task.member.task_set_parent

theorem bound_child_of {w : TaskSetFiles} {task_id : Segment} {task : PlannedTask}
    (h : w.tasks task_id = some task) : bound_child w task_id = task.member.task_set := by
  rw [bound_child, h]
  rfl

theorem bound_parent_of {w : TaskSetFiles} {task_id : Segment} {task : PlannedTask}
    (h : w.tasks task_id = some task) : bound_parent w task_id = task.member.task_set_parent := by
  rw [bound_parent, h]
  rfl

/-- What the tasks show once all of them are bound anew. -/
structure Rebound (record : TaskSetRecord) (revision : ℕ) (children : Children)
    (w w' : TaskSetFiles) : Prop where
  released : ∀ child ∈ left_out record children, bound_child w' child.task_id = none
  bound : ∀ child ∈ children.val,
    bound_child w' child.task_id = some (child_binding record.task_set_id revision child)
  parent_bound : ∃ task_revision, bound_parent w' record.source_task_id
    = some (parent_binding record.task_set_id revision task_revision)
  others : ∀ id, id ∉ child_ids (left_out record children) → id ∉ child_ids children.val →
    bound_child w' id = bound_child w id

theorem Rebound.same_tasks {record : TaskSetRecord} {revision : ℕ} {children : Children}
    {w w₁ w' w₂ : TaskSetFiles} (h : Rebound record revision children w₁ w₂)
    (hbefore : w₁.tasks = w.tasks) (hafter : w'.tasks = w₂.tasks) :
    Rebound record revision children w w' := by
  have hsame₁ : bound_child w = bound_child w₁ := by
    funext id
    rw [bound_child, bound_child, hbefore]
  have hsame₂ : bound_child w' = bound_child w₂ := by
    funext id
    rw [bound_child, bound_child, hafter]
  constructor
  · rw [hsame₂]
    exact h.released
  · rw [hsame₂]
    exact h.bound
  · rw [bound_parent, hafter]
    exact h.parent_bound
  · rw [hsame₁, hsame₂]
    exact h.others

section Rebinding

variable {record : TaskSetRecord} {revision : ℕ} {children : Children} {w w' : TaskSetFiles}

theorem nodup_left_out : (child_ids (left_out record children)).Nodup :=
  (List.Sublist.map _ List.filter_sublist).nodup record.children.property.nodup

theorem left_out_disjoint {child : TaskSetChild} (h : child ∈ children.val) :
    child.task_id ∉ child_ids (left_out record children) := by
  intro hmem
  obtain ⟨other, hother, hsame⟩ := List.mem_map.mp hmem
  have hout := (List.mem_filter.mp hother).2
  rw [decide_eq_true_eq, hsame] at hout
  exact hout (List.mem_map_of_mem h)

/-- What the tasks have taken and show where every one of them is bound anew. -/
theorem rebind_ok (hparent : record.source_task_id ∉ child_ids children.val)
    (h : (rebind_tasks record revision children).run w = (.ok (), w')) :
    Admits record revision children w ∧ Rebound record revision children w w' := by
  simp only [rebind_tasks, bind_eq, run_bind_ok_iff, run_inspect, Prod.mk.injEq] at h
  obtain ⟨_, w₁, hun, source_task, w₂, ⟨hshow, rfl⟩, _, w₃, hbind, hchildren⟩ := h
  rw [show_task, valueOr_ok] at hshow
  have hun_moved : TasksMoved (child_ids (left_out record children)) w w₁ :=
    unbind_children_moved hun
  have hun_ok := unbind_children_ok nodup_left_out hun
  have hparent_moved := bind_parent_moved hbind
  obtain ⟨htakes, parent, hparent_left, hparent_bound, hparent_child⟩ :=
    bind_parent_ok_spec hshow hbind
  have hchildren_moved := bind_children_moved hchildren
  have hchildren_ok := bind_children_ok children.property.nodup hchildren
  have hnot_source : ∀ child ∈ children.val, child.task_id ∉ [record.source_task_id] := by
    intro child hchild hmem
    rw [List.mem_singleton] at hmem
    exact hparent (hmem ▸ List.mem_map_of_mem hchild)
  refine ⟨⟨?_, ?_, ?_⟩, ⟨?_, ?_, ?_, ?_⟩⟩
  · intro child hchild
    obtain ⟨task, _, htask, hreleases, _⟩ := hun_ok child hchild
    exact ⟨task, htask, hreleases⟩
  · -- the parent may itself be a child that is left out; its release changes none of this
    by_cases hout : record.source_task_id ∈ child_ids (left_out record children)
    · obtain ⟨child, hchild, hsame⟩ := List.mem_map.mp hout
      obtain ⟨task, member, htask, _, hleft, _, hbinding, hstatus, hrevision⟩ := hun_ok child hchild
      rw [hsame] at htask hleft
      rw [hleft, Option.some.injEq] at hshow
      subst hshow
      refine ⟨task, htask, htakes.positive, ?_, ?_, ?_⟩
      · rw [← hrevision]
        exact htakes.task_positive
      · rw [← hrevision, ← hbinding]
        exact htakes.rebindable
      · rw [← hrevision, ← hbinding, ← hstatus]
        exact htakes.status
    · exact ⟨source_task, (hun_moved.others _ hout).symm.trans hshow, htakes⟩
  · intro child hchild
    obtain ⟨task, _, htask, htakes_child, _⟩ := hchildren_ok child hchild
    refine ⟨task, ?_, htakes_child⟩
    rw [← hun_moved.others _ (left_out_disjoint hchild),
      ← hparent_moved.others _ (hnot_source child hchild)]
    exact htask
  · intro child hchild
    obtain ⟨task, member, _, _, hleft, hnone, _⟩ := hun_ok child hchild
    have hlisted : child.task_id ∉ child_ids children.val := by
      have hout := (List.mem_filter.mp hchild).2
      rwa [decide_eq_true_eq] at hout
    have hafter := hchildren_moved.others _ hlisted
    by_cases hsource : child.task_id = record.source_task_id
    · rw [hsource] at hleft hafter ⊢
      rw [hshow, Option.some.injEq] at hleft
      rw [bound_child_of (hafter.trans hparent_left), hparent_child, hleft]
      exact hnone
    · have hnot : child.task_id ∉ [record.source_task_id] := by
        rw [List.mem_singleton]
        exact hsource
      rw [bound_child_of ((hafter.trans (hparent_moved.others _ hnot)).trans hleft)]
      exact hnone
  · intro child hchild
    obtain ⟨task, member, _, _, hleft, hbound, _⟩ := hchildren_ok child hchild
    rw [bound_child_of hleft]
    exact hbound
  · refine ⟨source_task.member.record.task_revision, ?_⟩
    rw [bound_parent_of ((hchildren_moved.others _ hparent).trans hparent_left)]
    exact hparent_bound
  · intro id hout hlisted
    have hafter := hchildren_moved.others _ hlisted
    by_cases hsource : id = record.source_task_id
    · rw [hsource] at hout hafter ⊢
      rw [bound_child_of (hafter.trans hparent_left), hparent_child,
        bound_child_of ((hun_moved.others _ hout).symm.trans hshow)]
    · have hnot : id ∉ [record.source_task_id] := by
        rw [List.mem_singleton]
        exact hsource
      rw [bound_child, hafter, hparent_moved.others _ hnot, hun_moved.others _ hout]
      rfl

/-- Where every task takes it, all of them are bound anew. -/
theorem rebind_returns (hparent : record.source_task_id ∉ child_ids children.val)
    (h : Admits record revision children w) :
    ∃ w', (rebind_tasks record revision children).run w = (.ok (), w') := by
  simp only [rebind_tasks, bind_eq, run_bind_ok_iff, run_inspect, Prod.mk.injEq]
  have hun : ((unbind_children record (left_out record children)).run w).1 = .ok () := by
    apply each_returns nodup_left_out
    intro child hchild
    obtain ⟨task, htask, hreleases⟩ := h.releases child hchild
    exact ⟨task, htask, fun at_ => unbind_ok.mpr hreleases⟩
  obtain ⟨w₁, hun⟩ : ∃ w₁, (unbind_children record (left_out record children)).run w
      = (.ok (), w₁) := ⟨_, Prod.ext hun rfl⟩
  have hun_moved := unbind_children_moved hun
  have hun_ok := unbind_children_ok nodup_left_out hun
  obtain ⟨source_task, hsource, htakes⟩ : ∃ source_task,
      w₁.tasks record.source_task_id = some source_task ∧
        TakesParent record.task_set_id revision source_task.member := by
    obtain ⟨task, htask, htakes⟩ := h.parent
    by_cases hout : record.source_task_id ∈ child_ids (left_out record children)
    · obtain ⟨child, hchild, hsame⟩ := List.mem_map.mp hout
      obtain ⟨other, member, hother, _, hleft, _, hbinding, hstatus, hrevision⟩ :=
        hun_ok child hchild
      rw [hsame] at hother hleft
      rw [htask, Option.some.injEq] at hother
      subst hother
      refine ⟨_, hleft, htakes.positive, ?_, ?_, ?_⟩
      · rw [hrevision]
        exact htakes.task_positive
      · rw [hrevision, hbinding]
        exact htakes.rebindable
      · rw [hrevision, hbinding, hstatus]
        exact htakes.status
    · exact ⟨task, (hun_moved.others _ hout).trans htask, htakes⟩
  have hbind : ((bind_parent record revision source_task).run w₁).1 = .ok () :=
    at_once_returns ⟨source_task, hsource, fun at_ => bind_parent_ok.mpr htakes⟩
  obtain ⟨w₂, hbind⟩ : ∃ w₂, (bind_parent record revision source_task).run w₁ = (.ok (), w₂) :=
    ⟨_, Prod.ext hbind rfl⟩
  have hparent_moved := bind_parent_moved hbind
  have hchildren : ((bind_children record.task_set_id revision children.val).run w₂).1
      = .ok () := by
    apply each_returns children.property.nodup
    intro child hchild
    obtain ⟨task, htask, htakes_child⟩ := h.listed child hchild
    have hnot : child.task_id ∉ [record.source_task_id] := by
      rw [List.mem_singleton]
      exact fun hsame => hparent (hsame ▸ List.mem_map_of_mem hchild)
    refine ⟨task, ?_, fun at_ => bind_child_ok.mpr htakes_child⟩
    rw [hparent_moved.others _ hnot, hun_moved.others _ (left_out_disjoint hchild)]
    exact htask
  refine ⟨_, (), w₁, hun, source_task, w₁, ⟨?_, rfl⟩, (), w₂, hbind, Prod.ext hchildren rfl⟩
  rw [show_task, valueOr_ok]
  exact hsource

/-- Only the tasks and the clock have changed. -/
def OnlyTasks (w w' : TaskSetFiles) : Prop :=
  w' = { w with tasks := w'.tasks, clock := w'.clock }

theorem OnlyTasks.next {w₁ : TaskSetFiles} (h : OnlyTasks w w₁) (tasks : Tasks) (clock : ℕ) :
    OnlyTasks w { w₁ with tasks := tasks, clock := clock } := by
  unfold OnlyTasks at h ⊢
  rw [h]

theorem OnlyTasks.task_set (h : OnlyTasks w w') : w'.task_set = w.task_set := by
  unfold OnlyTasks at h
  rw [h]

theorem along_at_once {task_id : Segment}
    {command : ℕ → MemberRecord → Except ValueError MemberOutcome} {w₁ : TaskSetFiles}
    (h : OnlyTasks w w₁) :
    Along (fun _ _ => True) (OnlyTasks w) (at_once task_id command) (fun _ => OnlyTasks w) w₁ := by
  apply Along.bind
  have hnow : OnlyTasks w { w₁ with clock := w₁.clock + 1 } := h.next w₁.tasks (w₁.clock + 1)
  suffices hcommand : Along (fun _ _ => True) (OnlyTasks w)
      (plan_task_fn task_id (command w₁.clock)) (fun _ => OnlyTasks w)
      { w₁ with clock := w₁.clock + 1 } from fun _ => ⟨hnow, hcommand⟩
  apply along_attempt hnow
  intro w₂ hw₂
  cases htasks : plan_task task_id (command w₁.clock) w₁.tasks with
  | error e =>
    simp only [htasks, Except.map, reduceCtorEq] at hw₂
  | ok tasks =>
    simp only [htasks, Except.map, Except.ok.injEq] at hw₂
    have hnext : OnlyTasks w w₂ := hw₂ ▸ h.next tasks (w₁.clock + 1)
    exact ⟨hnext, hnext⟩

theorem rebind_files : OnlyTasks w ((rebind_tasks record revision children).run w).2 := by
  have hstart : OnlyTasks w w := rfl
  refine (Along.run hstart (?_ : Along _ _ _ (fun _ _ => True) w)).1
  apply Along.bind
  refine (Along.forEach hstart fun _ _ _ h => along_at_once h).mono fun _ w₁ h => ?_
  apply Along.bind
  refine along_inspect h fun source_task _ => ?_
  apply Along.bind
  refine Along.mono (along_at_once h) fun _ w₂ h => ?_
  exact (Along.forEach h fun _ _ _ h => along_at_once h).mono fun _ _ _ => trivial

end Rebinding

end ClaudeCodeBridge.Analysis.TaskSet
