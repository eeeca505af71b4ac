import ClaudeCodeBridge.Analysis.TaskSetRevisions

/-!
# The members of a task set

As long as the first revision of a task set stands, the tasks that name it are children of its
record, or the parent is bound at the second revision already (`FirstRevision`): a creation binds
for the record that it finds, and a revision binds the parent before the children.  This holds at
every stop of every call and so over runs (`first_run`), and a creation that returns leaves the
bindings in step with the record (`created_in_step`).  `revisions_all_or_nothing_iff` puts this
beside what is known of revisions.
-/

set_option autoImplicit false

namespace ClaudeCodeBridge.Analysis.TaskSet

open Program Program.Prog
open Model.PlanTask
open Model.TaskSet

/-- The tasks that name the task set, as long as its first revision stands: they are children of
the record, or the parent is bound at the second revision already. -/
structure FirstRevision (task_set_id : Segment) (w : TaskSetFiles) : Prop where
  unbound : w.task_set = none → ∀ id binding, bound_child w id = some binding →
    binding.task_set_id ≠ task_set_id
  named : ∀ record, w.task_set = some record → record.task_set_id = task_set_id
  first : ∀ record, w.task_set = some record → record.task_set_revision = 1 →
    ∀ id binding, bound_child w id = some binding → binding.task_set_id = task_set_id →
      id ∈ child_ids record.children.val ∨
        ∃ parent, bound_parent w record.source_task_id = some parent ∧
          parent.task_set_id = task_set_id ∧ parent.task_set_revision = 2

/-- A record under which this holds. -/
structure Standing (task_set_id : Segment) (record : TaskSetRecord) (w : TaskSetFiles) : Prop where
  recorded : w.task_set = some record
  kept : FirstRevision task_set_id w

section Standing

variable {task_set_id : Segment} {record next : TaskSetRecord} {w w' : TaskSetFiles}

/-- Records that agree on what the bindings are compared with. -/
structure SameMembership (record next : TaskSetRecord) : Prop where
  task_set_id : next.task_set_id = record.task_set_id
  task_set_revision : next.task_set_revision = record.task_set_revision
  source_task_id : next.source_task_id = record.source_task_id
  children : next.children = record.children

theorem FirstRevision.same (h : FirstRevision task_set_id w) (hrecord : w'.task_set = w.task_set)
    (htasks : w'.tasks = w.tasks) : FirstRevision task_set_id w' := by
  have hchild : bound_child w' = bound_child w := by
    funext id
    rw [bound_child, bound_child, htasks]
  have hparent : bound_parent w' = bound_parent w := by
    funext id
    rw [bound_parent, bound_parent, htasks]
  constructor
  · rw [hrecord, hchild]
    exact h.unbound
  · rw [hrecord]
    exact h.named
  · rw [hrecord, hchild, hparent]
    exact h.first

theorem Standing.same (h : Standing task_set_id record w) (hrecord : w'.task_set = w.task_set)
    (htasks : w'.tasks = w.tasks) : Standing task_set_id record w' :=
  ⟨hrecord.trans h.recorded, h.kept.same hrecord htasks⟩

theorem Standing.written (h : Standing task_set_id record w) (hnext : SameMembership record next) :
    Standing task_set_id next { w with task_set := some next } := by
  have hnamed := h.kept.named record h.recorded
  refine ⟨rfl, ?_, ?_, ?_⟩
  · intro hnone
    cases hnone
  · intro found hfound
    rw [Option.some.injEq] at hfound
    rw [← hfound, hnext.task_set_id]
    exact hnamed
  · intro found hfound
    rw [Option.some.injEq] at hfound
    rw [← hfound, hnext.task_set_revision, hnext.source_task_id, hnext.children]
    exact h.kept.first record h.recorded

theorem Standing.advanced (h : Standing task_set_id record w)
    (hset : next.task_set_id = record.task_set_id) (hlater : 1 < next.task_set_revision) :
    FirstRevision task_set_id { w with task_set := some next } := by
  constructor
  · intro hnone
    cases hnone
  · intro found hfound
    rw [Option.some.injEq] at hfound
    rw [← hfound, hset]
    exact h.kept.named record h.recorded
  · intro found hfound hfirst
    rw [Option.some.injEq] at hfound
    rw [← hfound] at hfirst
    omega

section

variable {α : Type} (part : MemberRecord → Option α) {tasks : Tasks} {id other : Segment}
  {task : PlannedTask} {member : MemberRecord} {clock : ℕ}

theorem part_update :
    (Function.update tasks id (some task) other).bind (fun t => part t.member) =
      if other = id then part task.member else (tasks other).bind fun t => part t.member := by
  by_cases h : other = id
  · rw [if_pos h, h, Function.update_self]
    rfl
  · rw [if_neg h, Function.update_of_ne h]

theorem part_update_same (htask : tasks id = some task) (hsame : part member = part task.member) :
    (Function.update tasks id (some { task with member := member }) other).bind
      (fun t => part t.member) = (tasks other).bind fun t => part t.member := by
  rw [part_update]
  by_cases h : other = id
  · rw [if_pos h, h, htask]
    exact hsame
  · rw [if_neg h]

theorem bound_child_update :
    bound_child { w with tasks := Function.update tasks id (some task), clock := clock } other =
      if other = id then task.member.task_set
      else (tasks other).bind fun t => t.member.task_set :=
  part_update MemberRecord.task_set

theorem bound_parent_update :
    bound_parent { w with tasks := Function.update tasks id (some task), clock := clock } other =
      if other = id then task.member.task_set_parent
      else (tasks other).bind fun t => t.member.task_set_parent :=
  part_update MemberRecord.task_set_parent

theorem bound_child_update_same (htask : w.tasks id = some task)
    (hsame : member.task_set = task.member.task_set) :
    bound_child { w with
      tasks := Function.update w.tasks id (some { task with member := member })
      clock := clock } = bound_child w :=
  funext fun _ => part_update_same MemberRecord.task_set htask hsame

theorem bound_parent_update_same (htask : w.tasks id = some task)
    (hsame : member.task_set_parent = task.member.task_set_parent) :
    bound_parent { w with
      tasks := Function.update w.tasks id (some { task with member := member })
      clock := clock } = bound_parent w :=
  funext fun _ => part_update_same MemberRecord.task_set_parent htask hsame

end

def SecondParent (task_set_id : Segment) (record : TaskSetRecord) (w : TaskSetFiles) : Prop :=
  ∃ parent, bound_parent w record.source_task_id = some parent ∧
    parent.task_set_id = task_set_id ∧ parent.task_set_revision = 2

theorem Standing.moved (h : Standing task_set_id record w) (hrecord : w'.task_set = w.task_set)
    (hfirst : record.task_set_revision = 1 → ∀ id binding, bound_child w' id = some binding →
      binding.task_set_id = task_set_id →
        id ∈ child_ids record.children.val ∨ SecondParent task_set_id record w') :
    Standing task_set_id record w' := by
  have hrecorded := hrecord.trans h.recorded
  refine ⟨hrecorded, ?_, ?_, ?_⟩
  · intro hnone
    rw [hrecorded] at hnone
    cases hnone
  · intro found hfound
    exact h.kept.named found (hrecord.symm.trans hfound)
  · intro found hfound
    rw [hrecorded, Option.some.injEq] at hfound
    rw [← hfound]
    exact hfirst

abbrev Upholds {α : Type} (task_set_id : Segment) (call : SetCall α) (Q : α → TaskSetFiles → Prop)
    (w : TaskSetFiles) : Prop :=
  Along (fun _ _ => True) (FirstRevision task_set_id) call Q w

section

variable (h : Standing task_set_id record w)

include h

theorem upholds_now :
    Upholds task_set_id now (fun _ w' => Standing task_set_id record w' ∧
      w' = { w with clock := w'.clock }) w := by
  have hnext : Standing task_set_id record { w with clock := w.clock + 1 } := h.same rfl rfl
  exact fun _ => ⟨hnext.kept, hnext, rfl⟩

theorem upholds_at_once {id : Segment}
    {command : ℕ → MemberRecord → Except ValueError MemberOutcome} {Q : Unit → TaskSetFiles → Prop}
    (hmoved : ∀ at_ task outcome, w.tasks id = some task →
      command at_ task.member = .ok outcome → ∀ w',
        w' = { w with
          tasks := Function.update w.tasks id
            (some { task with member := leaves task.member outcome })
          clock := w.clock + 1 } → Standing task_set_id record w' ∧ Q () w') :
    Upholds task_set_id (at_once id command) Q w := by
  have hnext : Standing task_set_id record { w with clock := w.clock + 1 } := h.same rfl rfl
  suffices hcommand : Upholds task_set_id (plan_task_fn id (command w.clock)) Q
      { w with clock := w.clock + 1 } from fun _ => ⟨hnext.kept, hcommand⟩
  apply along_attempt hnext.kept
  intro w' hw'
  cases htasks : plan_task id (command w.clock) w.tasks with
  | error e => simp only [htasks, Except.map, reduceCtorEq] at hw'
  | ok tasks =>
    simp only [htasks, Except.map, Except.ok.injEq] at hw'
    obtain ⟨task, outcome, htask, houtcome, hupdate⟩ := plan_task_ok htasks
    rw [hupdate] at hw'
    have hboth := hmoved w.clock task outcome htask houtcome w' hw'.symm
    exact ⟨hboth.1.kept, hboth.2⟩

theorem upholds_unbind {of : TaskSetRecord} {id : Segment} :
    Upholds task_set_id (at_once id fun at_ => task_unbind_task_set (unbind_command of at_))
      (fun _ => Standing task_set_id record) w := by
  apply upholds_at_once h
  intro at_ task outcome htask houtcome w' hw'
  obtain ⟨hnone, hparent, _⟩ := unbind_leaves houtcome
  have hparents : bound_parent w' = bound_parent w := hw' ▸ bound_parent_update_same htask hparent
  suffices hstanding : Standing task_set_id record w' from ⟨hstanding, hstanding⟩
  refine h.moved (hw' ▸ rfl) ?_
  intro hfirst other binding hbinding hnames
  rw [hw', bound_child_update] at hbinding
  split at hbinding
  · rw [hnone] at hbinding
    cases hbinding
  · unfold SecondParent
    rw [hparents]
    exact h.kept.first record h.recorded hfirst other binding hbinding hnames

/-- A task that is bound as a child, of the record or once the parent is at the second
revision. -/
theorem upholds_bind_child {of : Segment} {revision : ℕ} {child : TaskSetChild}
    (hchild : record.task_set_revision = 1 → child.task_id ∈ child_ids record.children.val ∨
      SecondParent task_set_id record w) :
    Upholds task_set_id (at_once child.task_id fun at_ =>
        task_bind_child (bind_child_command of revision child at_))
      (fun _ w' => Standing task_set_id record w' ∧ bound_parent w' = bound_parent w) w := by
  apply upholds_at_once h
  intro at_ task outcome htask houtcome w' hw'
  have hparent := (bind_child_leaves houtcome).2
  have hparents : bound_parent w' = bound_parent w := hw' ▸ bound_parent_update_same htask hparent
  suffices hstanding : Standing task_set_id record w' from ⟨hstanding, hstanding, hparents⟩
  refine h.moved (hw' ▸ rfl) ?_
  intro hfirst other binding hbinding hnames
  unfold SecondParent at hchild ⊢
  rw [hparents]
  rw [hw', bound_child_update] at hbinding
  split at hbinding
  · rename_i hsame
    rw [hsame]
    exact hchild hfirst
  · exact h.kept.first record h.recorded hfirst other binding hbinding hnames

/-- The parent is bound at the first revision, which stands, or at the next one. -/
theorem upholds_bind_parent {of : TaskSetRecord} {revision : ℕ} {source_task : PlannedTask}
    (hset : of.task_set_id = task_set_id) (hsource : of.source_task_id = record.source_task_id)
    (hrevision : record.task_set_revision = 1 → revision = 1 ∨ revision = 2) :
    Upholds task_set_id (bind_parent of revision source_task) (fun _ w' =>
      Standing task_set_id record w' ∧ (revision = 2 → SecondParent task_set_id record w')) w := by
  apply upholds_at_once h
  intro at_ task outcome htask houtcome w' hw'
  obtain ⟨hrebindable, hparent, hchild⟩ := bind_parent_leaves houtcome
  have hchildren : bound_child w' = bound_child w := hw' ▸ bound_child_update_same htask hchild
  have hbound : bound_parent w' record.source_task_id
      = some (parent_binding of.task_set_id revision task.member.record.task_revision) := by
    rw [hw', bound_parent_update, if_pos hsource.symm]
    exact hparent
  have hsecond : revision = 2 → SecondParent task_set_id record w' :=
    fun htwo => ⟨_, hbound, hset, htwo⟩
  suffices hstanding : Standing task_set_id record w' from ⟨hstanding, hstanding, hsecond⟩
  refine h.moved (hw' ▸ rfl) ?_
  intro hfirst other binding hbinding hnames
  rw [hchildren] at hbinding
  rcases hrevision hfirst with hone | htwo
  · -- a parent at the second revision would have refused the first
    rcases h.kept.first record h.recorded hfirst other binding hbinding hnames with hmem | hold
    · exact .inl hmem
    · obtain ⟨parent, hparent_before, _, hold⟩ := hold
      rw [← hsource, bound_parent_of htask] at hparent_before
      obtain ⟨_, hless | hsame⟩ := hrebindable parent hparent_before
      · have hbefore : parent.task_set_revision < revision := hless
        omega
      · rw [hsame] at hold
        have hafter : revision = 2 := hold
        omega
  · exact .inr (hsecond htwo)

end

theorem upholds_find_task_set {Q : TaskSetRecord → TaskSetFiles → Prop}
    (h : FirstRevision task_set_id w)
    (hQ : ∀ record, w.task_set = some record → 0 < record.task_set_revision → Q record w) :
    Upholds task_set_id find_task_set Q w := by
  apply along_inspect h
  intro found hfound
  simp only [bind_ok, valueOr_ok, pure_ok, validate_task_set, refuseIf_ok] at hfound
  obtain ⟨record, hrecord, _, hpositive, rfl⟩ := hfound
  exact hQ record hrecord (Nat.pos_of_ne_zero hpositive)

theorem upholds_write_task_set (h : Standing task_set_id record w)
    (hnext : SameMembership record next) :
    Upholds task_set_id (write_task_set next) (fun _ => Standing task_set_id next) w :=
  fun _ => ⟨(h.written hnext).kept, h.written hnext⟩

theorem upholds_write {l : AccessName} {f : TaskSetFiles → TaskSetFiles}
    (h : Standing task_set_id record w) (hrecord : (f w).task_set = w.task_set)
    (htasks : (f w).tasks = w.tasks) :
    Upholds task_set_id (write l f) (fun _ => Standing task_set_id record) w :=
  fun _ => ⟨(h.same hrecord htasks).kept, h.same hrecord htasks⟩

/-! ### The calls -/

theorem upholds_open_task_set {command : CreateTaskSet} {plan_revision : Digest}
    {children : Children} (h : FirstRevision task_set_id w)
    (hset : command.task_set_id = task_set_id) :
    Upholds task_set_id (open_task_set command plan_revision children) (fun record w' =>
      Standing task_set_id record w' ∧ record.task_set_revision = 1 ∧
        record.children = children ∧ record.source_task_id = command.source_task_id ∧
        w'.tasks = w.tasks) w := by
  apply Along.bind
  apply along_read h
  cases hrecord : w.task_set with
  | some existing =>
    apply Along.bind
    refine along_ofExcept fun _ _ => ?_
    apply Along.bind
    refine along_ofExcept fun _ hsame => ?_
    rw [refuseIf_ok, not_or, not_not, not_not] at hsame
    obtain ⟨⟨_, hsource, _, _, _, hchildren⟩, hrevision⟩ := hsame
    exact ⟨⟨hrecord, h⟩, hrevision, hchildren, hsource, rfl⟩
  | none =>
    have hnow : FirstRevision task_set_id { w with clock := w.clock + 1 } := h.same rfl rfl
    have hnew : Standing task_set_id (created_task_set command plan_revision children w.clock)
        { w with
          clock := w.clock + 1
          task_set := some (created_task_set command plan_revision children w.clock) } := by
      refine ⟨rfl, ?_, ?_, ?_⟩
      · intro hnone
        cases hnone
      · intro found hfound
        cases hfound
        exact hset
      · intro found hfound _ id binding hbinding hnames
        exact absurd hnames (h.unbound hrecord id binding hbinding)
    exact fun _ => ⟨hnow, fun _ => ⟨hnew.kept, hnew, rfl, rfl, rfl, rfl⟩⟩

theorem upholds_create {command : CreateTaskSet} (h : FirstRevision task_set_id w)
    (hset : command.task_set_id = task_set_id) :
    Upholds task_set_id (create_task_set_authority command)
      (fun _ => FirstRevision task_set_id) w := by
  apply Along.bind
  refine along_inspect h fun children _ => ?_
  apply Along.bind
  refine along_inspect h fun source_task _ => ?_
  apply Along.bind
  refine along_ofExcept fun _ _ => ?_
  apply Along.bind
  refine along_inspect h fun plan_revision _ => ?_
  apply Along.within h
  apply Along.bind
  refine (upholds_open_task_set h hset).mono fun record w₁ hopened => ?_
  obtain ⟨hstanding, hrevision, hchildren, hsource, _⟩ := hopened
  apply Along.bind
  have hnamed := hstanding.kept.named record hstanding.recorded
  refine (upholds_bind_parent hstanding hnamed rfl fun _ => .inl rfl).mono fun _ w₂ hbound => ?_
  apply Along.bind
  refine Along.mono (Along.forEach hbound.1 fun child hchild _ hstanding => ?_)
    fun _ w₃ hstanding => ?_
  · refine (upholds_bind_child hstanding fun _ => .inl ?_).mono fun _ _ hboth => hboth.1
    rw [hchildren]
    exact List.mem_map_of_mem hchild
  · apply Along.bind
    refine (upholds_now hstanding).mono fun _ w₄ hnow => ?_
    apply Along.bind
    refine Along.mono (upholds_write_task_set hnow.1 ⟨rfl, rfl, rfl, rfl⟩) fun _ _ h => ?_
    exact h.kept

theorem upholds_archive_closure {revision : ℕ} (h : Standing task_set_id record w) :
    Upholds task_set_id (archive_closure revision) (fun _ => Standing task_set_id record) w := by
  apply Along.bind
  apply along_read h.kept
  cases w.closure with
  | none => exact h
  | some closure =>
    apply Along.bind
    apply along_read h.kept
    cases w.archives revision with
    | some archived =>
      apply Along.bind
      refine along_ofExcept fun _ _ => ?_
      exact upholds_write h rfl rfl
    | none => exact upholds_write h rfl rfl

theorem upholds_stale_open_intents {revision : ℕ} (h : Standing task_set_id record w) :
    Upholds task_set_id (stale_open_intents revision) (fun _ => Standing task_set_id record)
      w := by
  apply Along.bind
  apply along_read h.kept
  cases w.intents with
  | none => exact h
  | some intents =>
    apply Along.bind
    refine (upholds_now h).mono fun _ w₁ hnow => ?_
    dsimp only
    split
    · exact upholds_write hnow.1 rfl rfl
    · exact hnow.1

/-- The bindings of a revision, under the record `next` that is being revised. -/
theorem upholds_rebind_tasks {of : TaskSetRecord} {children : Children}
    (h : Standing task_set_id next w) (hsame : SameMembership of next) :
    Upholds task_set_id (rebind_tasks of (of.task_set_revision + 1) children)
      (fun _ => Standing task_set_id next) w := by
  have hnamed := h.kept.named next h.recorded
  rw [hsame.task_set_id] at hnamed
  apply Along.bind
  refine Along.mono (Along.forEach h fun _ _ _ h => upholds_unbind h) fun _ w₁ h => ?_
  apply Along.bind
  refine along_inspect h.kept fun source_task _ => ?_
  apply Along.bind
  refine (upholds_bind_parent h hnamed hsame.source_task_id.symm fun hfirst => .inr ?_).mono
    fun _ w₂ hbound => ?_
  · rw [hsame.task_set_revision] at hfirst
    rw [hfirst]
  · obtain ⟨hstanding, hsecond⟩ := hbound
    have hparent : next.task_set_revision = 1 → SecondParent task_set_id next w₂ := by
      intro hfirst
      rw [hsame.task_set_revision] at hfirst
      exact hsecond (by rw [hfirst])
    refine Along.mono (Along.forEach (K := fun w => Standing task_set_id next w ∧
      (next.task_set_revision = 1 → SecondParent task_set_id next w)) ⟨hstanding, hparent⟩ ?_)
      fun _ _ hboth => hboth.1
    intro child _ w₃ hboth
    refine (upholds_bind_child hboth.1 fun hfirst => .inr (hboth.2 hfirst)).mono ?_
    intro _ w₄ hnext
    refine ⟨hnext.1, fun hfirst => ?_⟩
    have hbefore := hboth.2 hfirst
    unfold SecondParent at hbefore ⊢
    rw [hnext.2]
    exact hbefore

theorem upholds_revise {expected_revision : ℕ} {requests : List ChildRequest}
    (h : FirstRevision task_set_id w) :
    Upholds task_set_id (revise_task_set_authority expected_revision requests)
      (fun _ => FirstRevision task_set_id) w := by
  apply Along.bind
  refine upholds_find_task_set h fun _ _ _ => ?_
  apply Along.within h
  apply Along.bind
  refine upholds_find_task_set h fun record hrecord hpositive => ?_
  apply Along.bind
  refine along_ofExcept fun _ _ => ?_
  apply Along.bind
  refine along_inspect h fun children _ => ?_
  have hstanding : Standing task_set_id record w := ⟨hrecord, h⟩
  apply Along.bind
  refine (upholds_archive_closure hstanding).mono fun _ _ hstanding => ?_
  apply Along.bind
  refine (upholds_now hstanding).mono fun _ _ hnow => ?_
  have hsame : ∀ time, SameMembership record { record with
      state := .revising (record.task_set_revision + 1) children
      updated_at := time } := fun _ => ⟨rfl, rfl, rfl, rfl⟩
  apply Along.bind
  refine Along.mono (upholds_write_task_set hnow.1 (hsame _)) fun _ _ hstanding => ?_
  apply Along.bind
  refine (upholds_stale_open_intents hstanding).mono fun _ _ hstanding => ?_
  apply Along.bind
  refine (upholds_rebind_tasks hstanding (hsame _)).mono fun _ _ hstanding => ?_
  apply Along.bind
  refine (upholds_now hstanding).mono fun time w₁ hnow => ?_
  have hrevised : FirstRevision task_set_id { w₁ with task_set := some (revised_task_set record
      (record.task_set_revision + 1) children time) } :=
    hnow.1.advanced rfl (Nat.lt_add_of_pos_left hpositive)
  exact fun _ => ⟨hrevised, hrevised⟩

variable (library : TaskSetLibrary)

theorem upholds_ensure_closure {evidence : List ChildEvidence} {aggregate_result : RoundResult}
    {reason : String} (h : Standing task_set_id record w) :
    Upholds task_set_id (ensure_closure library record evidence aggregate_result reason)
      (fun _ => Standing task_set_id record) w := by
  apply Along.bind
  apply along_read h.kept
  apply Along.bind
  refine along_ofExcept fun _ _ => ?_
  cases w.closure.filter fun closure => closure.content.status ≠ .system_failure with
  | some closure =>
    apply Along.bind
    exact along_ofExcept fun _ _ => h
  | none =>
    apply Along.bind
    refine (upholds_now h).mono fun _ _ hnow => ?_
    apply Along.bind
    exact Along.mono (upholds_write hnow.1 rfl rfl) fun _ _ h => h

theorem upholds_ensure_closure_intent {closure : Closure} (h : Standing task_set_id record w) :
    Upholds task_set_id (ensure_closure_intent library record closure)
      (fun _ => Standing task_set_id record) w := by
  apply Along.bind
  apply along_read h.kept
  apply Along.bind
  refine along_ofExcept fun found _ => ?_
  cases found with
  | some intent => exact h
  | none =>
    apply Along.bind
    refine (upholds_now h).mono fun _ _ hnow => ?_
    apply Along.bind
    exact Along.mono (upholds_write hnow.1 rfl rfl) fun _ _ h => h

theorem upholds_evaluate_evidence {evidence : List ChildEvidence}
    (h : Standing task_set_id record w) :
    Upholds task_set_id (evaluate_evidence library record evidence)
      (fun _ => FirstRevision task_set_id) w := by
  unfold evaluate_evidence
  split
  · exact h.kept
  split
  · apply Along.bind
    refine (upholds_now h).mono fun _ _ hnow => ?_
    apply Along.bind
    refine Along.mono (upholds_write hnow.1 rfl rfl) fun _ _ h => ?_
    apply Along.bind
    refine (upholds_now h).mono fun _ _ hnow => ?_
    apply Along.bind
    refine Along.mono (upholds_write_task_set hnow.1 ⟨rfl, rfl, rfl, rfl⟩) fun _ _ h => ?_
    exact h.kept
  · apply Along.bind
    refine along_ofExcept fun _ _ => ?_
    apply Along.bind
    refine Along.mono (upholds_ensure_closure library h) fun _ _ h => ?_
    apply Along.bind
    refine Along.mono (upholds_ensure_closure_intent library h) fun _ _ h => ?_
    apply Along.bind
    refine (upholds_now h).mono fun _ _ hnow => ?_
    apply Along.bind
    refine Along.mono (upholds_write_task_set hnow.1 ⟨rfl, rfl, rfl, rfl⟩) fun _ _ h => ?_
    exact h.kept

theorem upholds_evaluate {expected_revision : Option ℕ} (h : FirstRevision task_set_id w) :
    Upholds task_set_id (evaluate_task_set_closure library expected_revision)
      (fun _ => FirstRevision task_set_id) w := by
  apply Along.bind
  refine upholds_find_task_set h fun _ _ _ => ?_
  apply Along.within h
  apply Along.bind
  refine upholds_find_task_set h fun record hrecord _ => ?_
  apply Along.bind
  refine along_ofExcept fun _ _ => ?_
  split
  · exact h
  · apply Along.bind
    refine along_inspect h fun evidence _ => ?_
    exact upholds_evaluate_evidence library ⟨hrecord, h⟩

theorem upholds_call {call : TaskSetCall} (h : FirstRevision task_set_id w)
    (hset : ∀ command, call = .create command → command.task_set_id = task_set_id) :
    Upholds task_set_id (call.call library) (fun _ => FirstRevision task_set_id) w := by
  cases call with
  | create command =>
    apply Along.bind
    exact (upholds_create h (hset command rfl)).mono fun _ _ h => h
  | evaluate expected_revision =>
    apply Along.bind
    exact (upholds_evaluate library h).mono fun _ _ h => h
  | revise expected_revision children =>
    apply Along.bind
    exact (upholds_revise h).mono fun _ _ h => h
  | find_pending =>
    apply Along.bind
    refine Along.mono (?_ : Upholds _ _ (fun _ => FirstRevision task_set_id) _) fun _ _ h => h
    apply Along.bind
    apply along_read h
    cases w.intents with
    | none => exact h
    | some intents =>
      apply Along.bind
      exact upholds_find_task_set h fun _ _ _ => h

end Standing

/-! ### Runs -/

def Foreign (task_set_id : Segment) : TaskCommand → Prop
  | .update _ => True
  | .bind_child command => command.task_set_id ≠ task_set_id
  | .bind_parent command => command.task_set_id ≠ task_set_id
  | .unbind_task_set command => command.task_set_id ≠ task_set_id
  | .settle_parent command => command.task_set_id ≠ task_set_id

def OnTaskSet (task_set_id : Segment) : Event → Prop
  | .called (.create command) => command.task_set_id = task_set_id
  | .stopped (.create command) _ => command.task_set_id = task_set_id
  | .task_changed _ command => Foreign task_set_id command
  | _ => True

section Runs

variable (library : TaskSetLibrary) (plans : PlanLibrary)
variable {task_set_id : Segment} {w : TaskSetFiles}

theorem foreign_leaves {command : TaskCommand} {member : MemberRecord} {outcome : MemberOutcome}
    (hforeign : Foreign task_set_id command) (h : command.apply plans member = .ok outcome) :
    (∀ binding, (leaves member outcome).task_set = some binding →
        binding.task_set_id = task_set_id → member.task_set = some binding) ∧
      (∀ binding, member.task_set_parent = some binding → binding.task_set_id = task_set_id →
        (leaves member outcome).task_set_parent = some binding) := by
  cases command with
  | update command =>
    simp only [TaskCommand.apply, bind_ok] at h
    obtain ⟨updated, _, h⟩ := h
    cases updated with
    | unchanged | replaced record =>
      rw [pure_ok] at h
      rw [← h]
      exact ⟨fun _ hbinding _ => hbinding, fun _ hbinding _ => hbinding⟩
  | bind_child command =>
    simp only [TaskCommand.apply, task_bind_child, bind_ok] at h
    obtain ⟨_, -, _, -, same, _, h⟩ := h
    cases same with
    | true =>
      rw [if_pos rfl, pure_ok] at h
      rw [← h]
      exact ⟨fun _ hbinding _ => hbinding, fun _ hbinding _ => hbinding⟩
    | false =>
      rw [if_neg Bool.false_ne_true, pure_ok] at h
      rw [← h]
      refine ⟨fun binding hbinding hnames => ?_, fun _ hbinding _ => hbinding⟩
      have hbound := Option.some.inj hbinding
      rw [← hbound] at hnames
      exact absurd hnames hforeign
  | bind_parent command =>
    simp only [TaskCommand.apply, task_bind_parent, bind_ok] at h
    obtain ⟨_, -, _, -, same, hsame, h⟩ := h
    cases same with
    | true =>
      rw [if_pos rfl, pure_ok] at h
      rw [← h]
      exact ⟨fun _ hbinding _ => hbinding, fun _ hbinding _ => hbinding⟩
    | false =>
      rw [if_neg Bool.false_ne_true] at h
      simp only [bind_ok, pure_ok] at h
      obtain ⟨_, -, rfl⟩ := h
      refine ⟨fun _ hbinding _ => hbinding, fun binding hbinding hnames => ?_⟩
      have hold := (check_existing_binding_ok.mp ⟨false, hsame⟩ binding hbinding).1
      exact absurd (hold.symm.trans hnames) hforeign
  | unbind_task_set command =>
    simp only [TaskCommand.apply, task_unbind_task_set, bind_ok] at h
    obtain ⟨_, -, h⟩ := h
    cases htask : member.task_set with
    | none =>
      rw [htask, pure_ok] at h
      rw [← h]
      refine ⟨fun _ hbinding _ => ?_, fun _ hbinding _ => hbinding⟩
      exact htask.symm.trans hbinding
    | some old =>
      rw [htask] at h
      simp only [bind_ok, pure_ok] at h
      obtain ⟨_, -, rfl⟩ := h
      refine ⟨fun binding hbinding _ => ?_, fun _ hbinding _ => hbinding⟩
      cases hbinding
  | settle_parent command =>
    simp only [TaskCommand.apply, settle_task_set_parent, bind_ok] at h
    obtain ⟨_, -, h⟩ := h
    cases hclosure : member.task_set_closure with
    | some existing | none =>
      rw [hclosure] at h
      simp only [bind_ok, pure_ok] at h
      obtain ⟨_, -, rfl⟩ := h
      exact ⟨fun _ hbinding _ => hbinding, fun _ hbinding _ => hbinding⟩

section

variable (h : FirstRevision task_set_id w)

include h

theorem FirstRevision.fewer {w' : TaskSetFiles} (hrecord : w'.task_set = w.task_set)
    (hchild : ∀ id binding, bound_child w' id = some binding →
      binding.task_set_id = task_set_id → bound_child w id = some binding)
    (hparent : ∀ id binding, bound_parent w id = some binding →
      binding.task_set_id = task_set_id → bound_parent w' id = some binding) :
    FirstRevision task_set_id w' := by
  constructor
  · intro hnone id binding hbinding hnames
    rw [hrecord] at hnone
    exact h.unbound hnone id binding (hchild id binding hbinding hnames) hnames
  · rw [hrecord]
    exact h.named
  · intro record hrecorded hfirst id binding hbinding hnames
    rw [hrecord] at hrecorded
    rcases h.first record hrecorded hfirst id binding (hchild id binding hbinding hnames) hnames
      with hmem | ⟨parent, hbound, hset, hrevision⟩
    · exact .inl hmem
    · exact .inr ⟨parent, hparent _ parent hbound hset, hset, hrevision⟩

theorem first_task_changed {id : Segment} {command : TaskCommand}
    (hforeign : Foreign task_set_id command) :
    FirstRevision task_set_id (Event.step library plans (.task_changed id command) w) := by
  show FirstRevision task_set_id { w with
    tasks := (plan_task id (command.apply plans) w.tasks).toOption.getD w.tasks }
  cases hplan : plan_task id (command.apply plans) w.tasks with
  | error e => exact h
  | ok tasks =>
    obtain ⟨task, outcome, htask, houtcome, rfl⟩ := plan_task_ok hplan
    obtain ⟨hchild, hparent⟩ := foreign_leaves plans hforeign houtcome
    refine h.fewer rfl ?_ ?_
    · intro other binding hbinding hnames
      have hmoved := @bound_child_update w w.tasks id other
        { task with member := leaves task.member outcome } w.clock
      have hbinding := hmoved.symm.trans hbinding
      split at hbinding
      · rename_i hsame
        rw [hsame, bound_child_of htask]
        exact hchild binding hbinding hnames
      · exact hbinding
    · intro other binding hbinding hnames
      have hmoved := @bound_parent_update w w.tasks id other
        { task with member := leaves task.member outcome } w.clock
      refine hmoved.trans ?_
      split
      · rename_i hsame
        rw [hsame, bound_parent_of htask] at hbinding
        exact hparent binding hbinding hnames
      · exact hbinding

theorem first_task_created {plan_slug : Segment} {command : CreateCommand} :
    FirstRevision task_set_id (Event.step library plans (.task_created plan_slug command) w) := by
  show FirstRevision task_set_id { w with tasks := create_task plan_slug command w.tasks }
  unfold create_task
  cases htask : w.tasks command.task_id with
  | some task => exact h
  | none =>
    refine h.fewer rfl ?_ ?_
    · intro other binding hbinding hnames
      have hmoved := @bound_child_update w w.tasks command.task_id other
        { plan_slug := plan_slug, member := created_member command } w.clock
      have hbinding := hmoved.symm.trans hbinding
      split at hbinding
      · cases hbinding
      · exact hbinding
    · intro other binding hbinding hnames
      have hmoved := @bound_parent_update w w.tasks command.task_id other
        { plan_slug := plan_slug, member := created_member command } w.clock
      refine hmoved.trans ?_
      split
      · rename_i hsame
        rw [hsame, bound_parent, htask] at hbinding
        cases hbinding
      · exact hbinding

theorem first_step {event : Event} (hset : OnTaskSet task_set_id event) :
    FirstRevision task_set_id (event.step library plans w) := by
  cases event with
  | called call =>
    refine (Along.run h (upholds_call library h ?_)).1
    rintro command rfl
    exact hset
  | stopped call steps =>
    refine Along.stopAfter h (upholds_call library h ?_) steps fun _ _ => trivial
    rintro command rfl
    exact hset
  | task_created plan_slug command => exact first_task_created library plans h
  | task_changed id command => exact first_task_changed library plans h hset
  | project_changed terminal plan_revision transport | elapsed time => exact h.same rfl rfl

theorem first_run {events : List Event} (hset : ∀ event ∈ events, OnTaskSet task_set_id event) :
    FirstRevision task_set_id (run_events library plans events w) := by
  induction events generalizing w with
  | nil => exact h
  | cons event events ih =>
    apply ih (first_step library plans h (hset event List.mem_cons_self))
    exact fun later hlater => hset later (List.mem_cons_of_mem _ hlater)

/-- **A creation that returns leaves the bindings in step with the record.** -/
theorem created_in_step {command : CreateTaskSet} {record : TaskSetRecord} {w' : TaskSetFiles}
    (hset : command.task_set_id = task_set_id)
    (hrun : (create_task_set_authority command).run w = (.ok record, w')) : InStep record w' := by
  have hafter := (Along.run h (upholds_create h hset)).1
  rw [hrun] at hafter
  simp only [create_task_set_authority, file_lock, bind_eq, run_bind_ok_iff, run_inspect,
    run_ofExcept, run_within, Prod.mk.injEq] at hrun
  obtain ⟨children, w₁, ⟨hresolve, rfl⟩, source_task, w₂, ⟨hshow, rfl⟩, _, w₃, ⟨_, rfl⟩,
    plan_revision, w₄, ⟨_, rfl⟩, opened, w₅, hopen, _, w₆, hparent, _, w₇, hchildren, time, w₈,
    hnow, _, w₉, hwrite, hreturn⟩ := hrun
  have hopened := (Along.run h (upholds_open_task_set h hset)).2 opened (congrArg Prod.fst hopen)
  rw [hopen] at hopened
  obtain ⟨hstanding, hrevision, hsame_children, hsource, htasks⟩ := hopened
  have hnamed := hstanding.kept.named opened hstanding.recorded
  have hnot_child : opened.source_task_id ∉ child_ids children.val := by
    rw [hsource]
    exact (resolve_children_ids hresolve).2
  rw [show_task, valueOr_ok, ← hsource, ← htasks] at hshow
  obtain ⟨_, parent, hparent_left, hparent_bound, _⟩ := bind_parent_ok_spec hshow hparent
  have hchildren_moved := bind_children_moved hchildren
  have hchildren_ok := bind_children_ok children.property.nodup hchildren
  have htasks' : w'.tasks = w₇.tasks := by
    cases hnow
    cases hwrite
    cases hreturn
    rfl
  have hrecord : record = { opened with
      state := target_state opened.state
      updated_at := time } := by
    cases hreturn
    rfl
  have hrecorded : w'.task_set = some record := by
    cases hwrite
    cases hreturn
    rfl
  have hparent_after : bound_parent w' record.source_task_id
      = some (parent_binding opened.task_set_id 1 source_task.member.record.task_revision) := by
    rw [bound_parent, htasks', hrecord]
    exact (bound_parent_of ((hchildren_moved.others _ hnot_child).trans hparent_left)).trans
      hparent_bound
  constructor
  · exact hrecorded
  · intro id binding hbinding hnames
    have hfirst : record.task_set_revision = 1 := by
      rw [hrecord]
      exact hrevision
    rw [hafter.named record hrecorded] at hnames
    rcases hafter.first record hrecorded hfirst id binding hbinding hnames with hmem | hsecond
    · exact hmem
    · obtain ⟨second, hbound, _, htwo⟩ := hsecond
      rw [hparent_after, Option.some.injEq] at hbound
      rw [← hbound] at htwo
      cases htwo
  · intro child hchild
    have hmem : child ∈ children.val := by
      rw [hrecord] at hchild
      exact hsame_children ▸ hchild
    obtain ⟨task, member, _, _, hleft, hbound, _⟩ := hchildren_ok child hmem
    refine ⟨child_binding command.task_set_id 1 child, ?_, ?_, ?_, rfl, rfl⟩
    · rw [bound_child, htasks']
      exact (bound_child_of hleft).trans hbound
    · rw [hrecord]
      exact hset.trans hnamed.symm
    · rw [hrecord]
      exact hrevision.symm
  · refine ⟨_, hparent_after, ?_, ?_⟩
    · rw [hrecord]
      rfl
    · rw [hrecord]
      exact hrevision.symm

end

end Runs

def Unnamed (task_set_id : Segment) (w : TaskSetFiles) : Prop :=
  ∀ id binding, bound_child w id = some binding → binding.task_set_id ≠ task_set_id

theorem first_untouched {task_set_id : Segment} {w : TaskSetFiles} (hstart : Untouched w)
    (hunnamed : Unnamed task_set_id w) : FirstRevision task_set_id w := by
  constructor
  · exact fun _ => hunnamed
  · intro record hrecord
    rw [hstart.task_set] at hrecord
    cases hrecord
  · intro record hrecord
    rw [hstart.task_set] at hrecord
    cases hrecord

/-- **What is left of all or nothing.**  A revision that is refused changes nothing exactly when
the tasks take what passes its checks.  After any run a creation that returns leaves the
bindings in step with the record, and a revision that returns does exactly when its children
cover the tasks that are bound. -/
theorem revisions_all_or_nothing_iff (library : TaskSetLibrary) (plans : PlanLibrary) :
    (∀ (w : TaskSetFiles) (record : TaskSetRecord) (expected_revision : ℕ)
        (requests : List ChildRequest),
      w.task_set = some record → record.state.is_revising = false →
        ((∀ e w', (revise_task_set_authority expected_revision requests).run w = (.error e, w') →
            Unchanged w w') ↔
          ∀ children, PassesChecks record expected_revision requests children w →
            Admits record (record.task_set_revision + 1) children w)) ∧
    ∀ (task_set_id : Segment) (events : List Event) (start w : TaskSetFiles),
      Untouched start → Unnamed task_set_id start →
      (∀ event ∈ events, OnTaskSet task_set_id event) →
      w = run_events library plans events start →
        (∀ command record w', command.task_set_id = task_set_id →
          (create_task_set_authority command).run w = (.ok record, w') → InStep record w') ∧
        ∀ expected_revision requests record revised w', w.task_set = some record →
          (revise_task_set_authority expected_revision requests).run w = (.ok revised, w') →
            (InStep revised w' ↔ Covers record requests w) := by
  refine ⟨fun w record expected_revision requests hrecord hstate =>
    refused_unchanged_iff hrecord hstate, ?_⟩
  rintro task_set_id events start _ hstart hunnamed hset rfl
  have hfirst := first_run library plans (first_untouched hstart hunnamed) hset
  constructor
  · intro command record w' hcommand hrun
    exact created_in_step hfirst hcommand hrun
  · intro expected_revision requests record revised w' hrecord hrun
    exact revised_in_step_iff hrecord hrun

def exampleOther : Segment := ⟨asciiText "other", by decide⟩

def exampleTaken : Segment := ⟨asciiText "taken", by decide⟩

def takenTask : PlannedTask :=
  let task := exampleTask exampleTaken
  { task with member := { task.member with
      task_set := some {
        task_set_id := exampleOther
        task_set_revision := 1
        bound_task_revision := 1
        required := true
        order := 0 } } }

def revisionFiles : TaskSetFiles :=
  { exampleFiles with
    tasks := fun task_id =>
      if task_id = exampleOther then some (exampleTask exampleOther)
      else if task_id = exampleTaken then some takenTask
      else exampleFiles.tasks task_id }

def askFor (task_id : Segment) : List ChildRequest := [{ task_id := task_id, required := true }]

def createdFiles : TaskSetFiles :=
  run_events exampleLibrary examplePlans [.called (.create exampleCreation)] revisionFiles

/-- The files once a revision has stopped that binds another child. -/
def stoppedFiles : TaskSetFiles :=
  run_events exampleLibrary examplePlans
    [.called (.create exampleCreation), .stopped (.revise 1 (askFor exampleOther)) 15] revisionFiles

def revisionOf (requests : List ChildRequest) (files : TaskSetFiles) :
    Except ValueError TaskSetRecord × TaskSetFiles :=
  (revise_task_set_authority 1 requests).run files

theorem untouched_revisionFiles : Untouched revisionFiles :=
  { task_set := rfl
    closure := rfl
    archives := fun _ => rfl
    intents := rfl }

theorem unnamed_revisionFiles : Unnamed exampleSet revisionFiles := by
  intro id binding hbinding
  unfold bound_child revisionFiles exampleFiles at hbinding
  dsimp only at hbinding
  split at hbinding
  · cases hbinding
  split at hbinding
  · have htaken := Option.some.inj hbinding
    rw [← htaken]
    decide
  split at hbinding
  · cases hbinding
  split at hbinding
  · cases hbinding
  · cases hbinding

theorem exists_of_returns {α : Type} {call : SetCall α} {w : TaskSetFiles}
    (h : (call.run w).1.toOption.isSome = true) : ∃ a w', call.run w = (.ok a, w') := by
  rcases hrun : call.run w with ⟨_ | a, w'⟩
  · rw [hrun] at h
    cases h
  · exact ⟨a, w', rfl⟩

/-- Every call of the theorem, after the creation. -/
theorem revisions_all_or_nothing_created :
    (∃ record, createdFiles.task_set = some record ∧
      ((∀ e w', (revise_task_set_authority 1 (askFor exampleTaken)).run createdFiles
          = (.error e, w') → Unchanged createdFiles w') ↔
        ∀ children, PassesChecks record 1 (askFor exampleTaken) children createdFiles →
          Admits record (record.task_set_revision + 1) children createdFiles)) ∧
    (∃ record w', (create_task_set_authority exampleCreation).run createdFiles = (.ok record, w') ∧
      InStep record w') ∧
    ∃ record revised w', createdFiles.task_set = some record ∧
      (revise_task_set_authority 1 (askFor exampleOther)).run createdFiles = (.ok revised, w') ∧
        (InStep revised w' ↔ Covers record (askFor exampleOther) createdFiles) := by
  obtain ⟨hrefused, hruns⟩ := revisions_all_or_nothing_iff exampleLibrary examplePlans
  have hset : ∀ event ∈ [Event.called (.create exampleCreation)], OnTaskSet exampleSet event := by
    intro event hevent
    rw [List.mem_singleton] at hevent
    rw [hevent]
    rfl
  obtain ⟨hcreate, hrevise⟩ := hruns exampleSet [.called (.create exampleCreation)] revisionFiles
    createdFiles untouched_revisionFiles unnamed_revisionFiles hset rfl
  have hrecord : ∃ record, createdFiles.task_set = some record ∧
      record.state.is_revising = false := by
    have hsome : (createdFiles.task_set.map fun record => record.state.is_revising)
        = some false := by decide
    exact Option.map_eq_some_iff.mp hsome
  obtain ⟨record, hrecord, hstate⟩ := hrecord
  have hcreated : ∃ record w', (create_task_set_authority exampleCreation).run createdFiles
      = (.ok record, w') := exists_of_returns (by decide)
  have hrevised : ∃ revised w', (revise_task_set_authority 1 (askFor exampleOther)).run createdFiles
      = (.ok revised, w') := exists_of_returns (by decide)
  obtain ⟨created, w₁, hcreated⟩ := hcreated
  obtain ⟨revised, w₂, hrevised⟩ := hrevised
  refine ⟨⟨record, hrecord, hrefused createdFiles record 1 _ hrecord hstate⟩,
    ⟨created, w₁, hcreated, hcreate exampleCreation created w₁ rfl hcreated⟩, record, revised, w₂,
    hrecord, hrevised, hrevise 1 _ record revised w₂ hrecord hrevised⟩

/-- A child that another task set has taken refuses a revision of which much is done by then;
and a revision that comes after one that has stopped leaves the other's child bound. -/
theorem refused_and_resumed_revisions :
    (Untouched revisionFiles ∧ Unnamed exampleSet revisionFiles) ∧
    (∃ e w', (revise_task_set_authority 1 (askFor exampleTaken)).run createdFiles = (.error e, w') ∧
      ¬ Unchanged createdFiles w') ∧
    ∃ revised w', (revise_task_set_authority 1 (askFor exampleChild)).run stoppedFiles
        = (.ok revised, w') ∧ ¬ InStep revised w' := by
  refine ⟨⟨untouched_revisionFiles, unnamed_revisionFiles⟩, ?_, ?_⟩
  · have hafter : (revisionOf (askFor exampleTaken) createdFiles).2.task_set.map
        (fun record => record.state.is_revising) = some true := by decide
    have hbefore : createdFiles.task_set.map (fun record => record.state.is_revising)
        = some false := by decide
    rcases hrun : revisionOf (askFor exampleTaken) createdFiles with ⟨e | revised, w'⟩
    · refine ⟨e, w', hrun, fun hunchanged => ?_⟩
      rw [hrun, hunchanged.task_set, hbefore] at hafter
      cases hafter
    · have hfails : (revisionOf (askFor exampleTaken) createdFiles).1.toOption.isNone = true := by
        decide
      rw [hrun] at hfails
      cases hfails
  · have hreturns : ∃ revised w',
        (revise_task_set_authority 1 (askFor exampleChild)).run stoppedFiles = (.ok revised, w') :=
      exists_of_returns (by decide)
    obtain ⟨revised, w', hrun⟩ := hreturns
    refine ⟨revised, w', hrun, fun hstep => ?_⟩
    have hresult : revisionOf (askFor exampleChild) stoppedFiles = (.ok revised, w') := hrun
    have hbound : (bound_child (revisionOf (askFor exampleChild) stoppedFiles).2 exampleOther).map
        ChildBinding.task_set_id = some exampleSet := by decide
    have hids : (revisionOf (askFor exampleChild) stoppedFiles).1.toOption.map
        (fun record => (record.task_set_id, child_ids record.children.val))
          = some (exampleSet, [exampleChild]) := by decide
    rw [hresult] at hbound hids
    obtain ⟨binding, hbinding, hnames⟩ := Option.map_eq_some_iff.mp hbound
    have hrevised : (revised.task_set_id, child_ids revised.children.val)
        = (exampleSet, [exampleChild]) := Option.some.inj hids
    rw [Prod.mk.injEq] at hrevised
    have hmem := hstep.only_children exampleOther binding hbinding (hnames.trans hrevised.1.symm)
    rw [hrevised.2] at hmem
    exact absurd hmem (by decide)

end ClaudeCodeBridge.Analysis.TaskSet
