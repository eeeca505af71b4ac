import ClaudeCodeBridge.Model.PlanTasks

/-!
# Running and bound

A task runs when a loop is bound to it: `task-bind-loop` sets the status, the loop and the
lease together, and `task-import-round` and the replans take them back together.
`task-status` moves along the same table of edges and touches neither loop nor lease.

The ladder: what a command may do to the record (`TaskChange`, one lemma for each
command); what every run keeps (`TaskSound`); a step keeps a task bound exactly
(`bound_step`), unless it is a `task-status` into or out of `running`
(`keepsRunning_of_bound`); the runs (`running_exactly_when_bound`).
-/

set_option autoImplicit false

namespace ClaudeCodeBridge.Analysis.PlanTask

open Program
open Model.PlanTask

variable {library : PlanLibrary} {record record' : TaskRecord}

structure SameTask (record record' : TaskRecord) : Prop where
  task_id : record'.task_id = record.task_id
  state_version : record'.state_version = record.state_version

/-- The changes that commands make of status, next owner, loop and lease. -/
inductive TaskChange (record : TaskRecord) : UpdateCommand → TaskRecord → Prop
  | kept (command : UpdateCommand) (record' : TaskRecord)
      (hnot : ∀ c, command ≠ .status c)
      (hstatus : record'.status = record.status) (howner : record'.next_owner = record.next_owner)
      (hloop : record'.current_loop = record.current_loop)
      (hlease : record'.loop_lease = record.loop_lease) (hsame : SameTask record record') :
      TaskChange record command record'
  | moved (command : StatusCommand) (record' : TaskRecord)
      (hstatus : command.status = .given record'.status)
      (howner : record'.next_owner = default_next_owner_for_status record'.status)
      (hloop : record'.current_loop = record.current_loop)
      (hlease : record'.loop_lease = record.loop_lease) (hsame : SameTask record record') :
      TaskChange record (.status command) record'
  | unbound (command : UpdateCommand) (record' : TaskRecord)
      (hnot : ∀ c, command ≠ .status c) (hstatus : record'.status ≠ .running)
      (howner : record'.next_owner = default_next_owner_for_status record'.status)
      (hloop : record'.current_loop = none) (hsame : SameTask record record') :
      TaskChange record command record'
  | bound (command : UpdateCommand) (record' : TaskRecord) (lease : LoopLease)
      (hnot : ∀ c, command ≠ .status c) (hstatus : record'.status = .running)
      (howner : record'.next_owner = .orchestrator)
      (hloop : record'.current_loop = some lease.loop_id) (hlease : record'.loop_lease = some lease)
      (hactive : lease.status = .active) (hsame : SameTask record record') :
      TaskChange record command record'

variable {c : ArtifactCommand}

def withArtifact (c : ArtifactCommand) (kind : ArtifactKind) (artifact : TaskArtifact)
    (revision : ℕ) (record : TaskRecord) : TaskRecord :=
  { record.put_artifact kind artifact with task_revision := revision, updated_at := c.now }

/-- What an artifact that is imported makes of the record. -/
theorem artifact_replaced (h : task_artifact library c record = .ok (.replaced record')) :
    ∃ kind artifact revision, c.artifact_kind = .given kind ∧ artifact.loop_id = none ∧
      (record' = withArtifact c kind artifact revision record ∨
        record' = synchronize_stop_contract_revisions
          (withArtifact c kind artifact revision record)) := by
  unfold task_artifact at h
  split at h
  · simp at h
  · simp at h
  · simp at h
  · rename_i kind _ hkind
    simp only [bind_ok] at h
    obtain ⟨_, _, h⟩ := h
    split at h
    · rename_i hbundle
      rw [hbundle] at hkind
      simp only [task_orchestration_bundle_artifact, bind_ok, refuseIf_ok, valueOr_ok] at h
      obtain ⟨_, _, _, _, normalized, _, h⟩ := h
      cases hexisting : record.artifacts .orchestration_bundle with
      | none =>
        simp only [hexisting, bind_ok, refuseIf_ok, pure_ok, Outcome.replaced.injEq] at h
        exact ⟨_, _, record.task_revision, hkind, rfl, .inl h.choose_spec.2.symm⟩
      | some existing =>
        simp only [hexisting, bind_ok, valueOr_ok] at h
        obtain ⟨revision, _, h⟩ := h
        split at h
        · simp only [bind_ok, pure_ok, reduceCtorEq, and_false, exists_false] at h
        · simp only [bind_ok, refuseIf_ok, pure_ok, Outcome.replaced.injEq] at h
          obtain ⟨_, _, _, _, h⟩ := h
          exact ⟨_, _, record.task_revision, hkind, rfl, .inl h.symm⟩
    · simp only [task_text_artifact, bind_ok, refuseIf_ok, valueOr_ok] at h
      obtain ⟨route, _, _, _, text, _, h⟩ := h
      split at h
      · obtain ⟨_, _, h⟩ := bind_ok.mp h
        simp only [pure_ok, reduceCtorEq] at h
      · simp only [bind_ok, pure_ok, Outcome.replaced.injEq] at h
        obtain ⟨_, _, h⟩ := h
        split at h
        · exact ⟨kind, _, _, hkind, rfl, .inr h.symm⟩
        · exact ⟨kind, _, _, hkind, rfl, .inl h.symm⟩

theorem artifact_change (h : task_artifact library c record = .ok (.replaced record')) :
    TaskChange record (.artifact c) record' := by
  obtain ⟨kind, artifact, revision, _, _, rfl | rfl⟩ := artifact_replaced h <;>
    exact .kept _ _ (fun _ => by simp) rfl rfl rfl rfl ⟨rfl, rfl⟩

theorem next_owner_ok {argument : Argument NextOwner} {status : TaskStatus} {owner : NextOwner}
    (h : next_owner_for_status_command argument status = .ok owner) :
    owner = default_next_owner_for_status status := by
  cases argument with
  | absent => exact (Except.ok.inj h).symm
  | unknown => simp [next_owner_for_status_command] at h
  | given given_owner =>
    simp only [next_owner_for_status_command, validate_status_next_owner, bind_ok, refuseIf_ok,
      pure_ok] at h
    obtain ⟨_, hsame, rfl⟩ := h
    exact not_not.mp hsame

theorem status_change {c : StatusCommand} (h : task_status c record = .ok (.replaced record')) :
    TaskChange record (.status c) record' := by
  simp only [task_status, bind_ok] at h
  obtain ⟨_, _, h⟩ := h
  cases hstatus : c.status with
  | absent | unknown => simp [hstatus] at h
  | given status =>
    simp only [hstatus, bind_ok, refuseIf_ok, pure_ok, Outcome.replaced.injEq] at h
    obtain ⟨_, _, _, _, owner, howner, reason, _, rfl⟩ := h
    exact .moved c _ hstatus (next_owner_ok howner) rfl rfl ⟨rfl, rfl⟩

theorem status_replaces {c : StatusCommand} : task_status c record ≠ .ok .unchanged := by
  intro h
  simp only [task_status, bind_ok] at h
  obtain ⟨_, _, h⟩ := h
  cases hstatus : c.status with
  | absent | unknown => simp [hstatus] at h
  | given status => simp only [hstatus, bind_ok, pure_ok, reduceCtorEq, and_false, exists_false] at h

theorem bind_loop_change {c : BindLoopCommand}
    (h : task_bind_loop c record = .ok (.replaced record')) :
    TaskChange record (.bind_loop c) record' := by
  simp only [task_bind_loop, bind_ok, refuseIf_ok] at h
  obtain ⟨_, _, _, _, h⟩ := h
  split at h
  · simp only [bind_ok, pure_ok, reduceCtorEq, and_false, exists_false] at h
  · simp only [bind_ok, refuseIf_ok, pure_ok, Outcome.replaced.injEq] at h
    obtain ⟨_, _, _, _, _, _, rfl⟩ := h
    exact .bound _ _ _ (fun _ => by simp) rfl rfl rfl rfl rfl ⟨rfl, rfl⟩

theorem import_round_change {c : ImportRoundCommand}
    (h : task_import_round library c record = .ok (.replaced record')) :
    TaskChange record (.import_round c) record' := by
  simp only [task_import_round, bind_ok] at h
  obtain ⟨_, _, existing, _, h⟩ := h
  split at h
  · simp only [pure_ok, reduceCtorEq] at h
  · simp only [bind_ok, refuseIf_ok, pure_ok, Outcome.replaced.injEq] at h
    obtain ⟨_, _, _, _, rfl⟩ := h
    refine .unbound _ _ (fun _ => by simp) ?_ rfl rfl ⟨rfl, rfl⟩
    show c.result.target_status ≠ .running
    cases c.result <;> decide

theorem accept_change {c : AcceptDetailerReplanCommand}
    (h : task_accept_detailer_replan c record = .ok (.replaced record')) :
    TaskChange record (.accept_detailer_replan c) record' := by
  unfold task_accept_detailer_replan at h
  cases hexisting : record.replan_feedback with
  | some existing =>
    simp only [hexisting, bind_ok, refuseIf_ok] at h
    obtain ⟨_, _, _, _, h⟩ := h
    split at h
    · simp only [pure_ok, Outcome.replaced.injEq] at h
      subst h
      exact .kept _ _ (fun _ => by simp) rfl rfl rfl rfl ⟨rfl, rfl⟩
    · simp only [pure_ok, reduceCtorEq] at h
  | none =>
    simp only [hexisting, bind_ok, refuseIf_ok, pure_ok, Outcome.replaced.injEq] at h
    obtain ⟨_, _, _, _, _, _, rfl⟩ := h
    exact .unbound _ _ (fun _ => by simp) (by simp) rfl rfl ⟨rfl, rfl⟩

theorem complete_change {c : CompleteDetailerReplanCommand}
    (h : task_complete_detailer_replan c record = .ok (.replaced record')) :
    TaskChange record (.complete_detailer_replan c) record' := by
  simp only [task_complete_detailer_replan, bind_ok, refuseIf_ok] at h
  obtain ⟨_, _, _, _, _, _, h⟩ := h
  cases hexisting : record.planner_replan_backfill with
  | some existing =>
    simp only [hexisting, bind_ok, pure_ok, reduceCtorEq, and_false, exists_false] at h
  | none =>
    simp only [hexisting, bind_ok, refuseIf_ok, pure_ok, Outcome.replaced.injEq] at h
    obtain ⟨_, _, rfl⟩ := h
    exact .unbound _ _ (fun _ => by simp) (by simp) rfl rfl ⟨rfl, rfl⟩

theorem basis_unbound {allowed : List TaskStatus} {basis : Option Digest} {digest : Digest}
    (h : detail_ready_reconcile_basis record allowed basis = some digest) :
    record.current_loop = none := by
  cases hloop : record.current_loop with
  | none => rfl
  | some loop_id => simp [detail_ready_reconcile_basis, hloop] at h

theorem reconcile_change {c : ReconcileDetailReadyCommand}
    (h : task_reconcile_detail_ready library c record = .ok (.replaced record')) :
    TaskChange record (.reconcile_detail_ready c) record' := by
  simp only [task_reconcile_detail_ready, bind_ok, valueOr_ok] at h
  obtain ⟨basis, hbasis, h⟩ := h
  split at h
  · simp only [pure_ok, reduceCtorEq] at h
  · simp only [bind_ok, refuseIf_ok, pure_ok, Outcome.replaced.injEq] at h
    obtain ⟨_, _, _, _, _, _, rfl⟩ := h
    have hunbound := basis_unbound hbasis
    exact .unbound _ _ (fun _ => by simp) (by simp) rfl hunbound ⟨rfl, rfl⟩

variable {command : UpdateCommand}

theorem task_change (h : command.apply library record = .ok (.replaced record')) :
    TaskChange record command record' := by
  cases command with
  | artifact c => exact artifact_change h
  | status c => exact status_change h
  | reconcile_detail_ready c => exact reconcile_change h
  | accept_detailer_replan c => exact accept_change h
  | complete_detailer_replan c => exact complete_change h
  | bind_loop c => exact bind_loop_change h
  | import_round c => exact import_round_change h

theorem change_same (h : TaskChange record command record') : SameTask record record' := by
  cases h with
  | kept _ _ _ _ _ _ _ hsame => exact hsame
  | moved _ _ _ _ _ _ hsame => exact hsame
  | unbound _ _ _ _ _ _ hsame => exact hsame
  | bound _ _ _ _ _ _ _ _ _ hsame => exact hsame

theorem step_cases (h : command.step library record = .ok record') :
    record' = record ∨ ∃ changed, TaskChange record command changed ∧ record' = changed.bumped := by
  simp only [UpdateCommand.step, bind_ok] at h
  obtain ⟨outcome, houtcome, h⟩ := h
  cases outcome with
  | unchanged =>
    simp only [pure_ok] at h
    exact .inl h.symm
  | replaced changed =>
    simp only [pure_ok] at h
    exact .inr ⟨changed, task_change houtcome, h.symm⟩

/-- The loop of a task holds an active lease, and its next owner is that of its status. -/
structure TaskSound (record : TaskRecord) : Prop where
  owner : record.next_owner = default_next_owner_for_status record.status
  leased : ∀ loop_id, record.current_loop = some loop_id →
    ∃ lease, record.loop_lease = some lease ∧ lease.loop_id = loop_id ∧ lease.status = .active

theorem sound_created (create : CreateCommand) : TaskSound (created_record create) :=
  ⟨rfl, fun loop_id h => by simp [created_record] at h⟩

theorem sound_change (hsound : TaskSound record)
    (h : TaskChange record command record') : TaskSound record' := by
  cases h with
  | kept command record' hnot hstatus howner hloop hlease hsame =>
    refine ⟨?_, ?_⟩
    · rw [howner, hstatus]
      exact hsound.owner
    · rw [hloop, hlease]
      exact hsound.leased
  | moved command record' hstatus howner hloop hlease hsame =>
    refine ⟨howner, ?_⟩
    rw [hloop, hlease]
    exact hsound.leased
  | unbound command record' hnot hstatus howner hloop hsame =>
    refine ⟨howner, fun loop_id h => ?_⟩
    rw [hloop] at h
    simp at h
  | bound command record' lease hnot hstatus howner hloop hlease hactive hsame =>
    refine ⟨?_, fun loop_id h => ⟨lease, hlease, ?_, hactive⟩⟩
    · rw [howner, hstatus]
      rfl
    · rw [hloop] at h
      exact Option.some.inj h

theorem sound_step (hsound : TaskSound record)
    (h : command.step library record = .ok record') : TaskSound record' := by
  rcases step_cases h with rfl | ⟨changed, hchange, rfl⟩
  · exact hsound
  · have hchanged := sound_change hsound hchange
    exact ⟨hchanged.owner, hchanged.leased⟩

/-- The task runs exactly when a loop is bound to it, the loop's lease is active, and a task
to be orchestrated is not bound and gets an action of the runner. -/
structure BoundExactly (record : TaskRecord) : Prop where
  running : record.status = .running ↔ record.current_loop.isSome
  leased : ∀ loop_id, record.current_loop = some loop_id →
    ∃ lease, record.loop_lease = some lease ∧ lease.loop_id = loop_id ∧ lease.status = .active
  acted : record.status = .ready_for_orchestration → record.current_loop = none ∧
    ∀ files, ∃ action, activation_runner_action_for_record files record = .ok (some action)

/-- A `task-status` that neither starts nor ends the running of the task. -/
def KeepsRunning (command : UpdateCommand) (record : TaskRecord) : Prop :=
  match command with
  | .status command => command.status = .given .running ↔ record.status = .running
  | _ => True

theorem boundExactly_of (hsound : TaskSound record)
    (hrunning : record.status = .running ↔ record.current_loop.isSome) : BoundExactly record := by
  refine ⟨hrunning, hsound.leased, fun hready => ?_⟩
  have hunbound : record.current_loop = none := by
    cases hloop : record.current_loop with
    | none => rfl
    | some loop_id =>
      rw [hready, hloop] at hrunning
      simp at hrunning
  refine ⟨hunbound, fun files => ⟨orchestration_action files record, ?_⟩⟩
  have howner := hsound.owner
  rw [hready] at howner
  have howner' : record.next_owner = .orchestrator := howner
  unfold activation_runner_action_for_record
  simp [hready, howner', hunbound, validate_status_next_owner, default_next_owner_for_status,
    refuseIf, bind, Except.bind, pure, Except.pure]

theorem bound_step (hsound : TaskSound record)
    (hbound : record.status = .running ↔ record.current_loop.isSome)
    (hkeeps : KeepsRunning command record) (h : command.step library record = .ok record') :
    record'.status = .running ↔ record'.current_loop.isSome := by
  rcases step_cases h with rfl | ⟨changed, hchange, rfl⟩
  · exact hbound
  · show changed.status = .running ↔ changed.current_loop.isSome
    cases hchange with
    | kept command record' hnot hstatus howner hloop hlease hsame =>
      rw [hstatus, hloop]
      exact hbound
    | moved command record' hstatus howner hloop hlease hsame =>
      have hkeeps' : command.status = .given .running ↔ record.status = .running := hkeeps
      rw [hloop, ← hbound, ← hkeeps', hstatus]
      simp
    | unbound command record' hnot hstatus howner hloop hsame =>
      rw [hloop]
      simp [hstatus]
    | bound command record' lease hnot hstatus howner hloop hlease hactive hsame =>
      rw [hstatus, hloop]
      simp

/-- A step between two states in which the task is bound exactly has kept its running. -/
theorem keepsRunning_of_bound (hbound : record.status = .running ↔ record.current_loop.isSome)
    (h : command.step library record = .ok record')
    (hbound' : record'.status = .running ↔ record'.current_loop.isSome) :
    KeepsRunning command record := by
  cases command with
  | status c =>
    show c.status = .given .running ↔ record.status = .running
    simp only [UpdateCommand.step, bind_ok] at h
    obtain ⟨outcome, houtcome, h⟩ := h
    cases outcome with
    | unchanged => exact absurd houtcome status_replaces
    | replaced changed =>
      simp only [pure_ok] at h
      subst h
      have hchange := status_change houtcome
      cases hchange with
      | kept _ _ hnot | unbound _ _ hnot | bound _ _ _ hnot => exact absurd rfl (hnot c)
      | moved _ _ hstatus howner hloop hlease hsame =>
        have hbound'' : changed.status = .running ↔ changed.current_loop.isSome := hbound'
        rw [hbound, ← hloop, ← hbound'', hstatus]
        simp
  | artifact c => trivial
  | reconcile_detail_ready c => trivial
  | accept_detailer_replan c | complete_detailer_replan c | bind_loop c | import_round c => trivial

theorem run_concat (commands : List UpdateCommand) (command : UpdateCommand)
    (record : TaskRecord) : run_commands library (commands ++ [command]) record =
      run_commands library commands record >>= command.step library := by
  unfold run_commands
  rw [List.foldlM_append]
  congr 1
  funext record
  simp

theorem bound_run (create : CreateCommand) (commands : List UpdateCommand)
    (hkeeps : ∀ before command, before ++ [command] <+: commands → ∀ r r',
      run_commands library before (created_record create) = .ok r →
      command.step library r = .ok r' → KeepsRunning command r) :
    ∀ record, run_commands library commands (created_record create) = .ok record →
      TaskSound record ∧ (record.status = .running ↔ record.current_loop.isSome) := by
  induction commands using List.reverseRecOn with
  | nil =>
    intro record h
    have hcreated : created_record create = record := Except.ok.inj h
    subst hcreated
    exact ⟨sound_created create, by simp [created_record]⟩
  | append_singleton commands command ih =>
    intro record h
    rw [run_concat, bind_ok] at h
    obtain ⟨middle, hmiddle, hstep⟩ := h
    obtain ⟨hsound, hbound⟩ := ih (fun before c hpre =>
      hkeeps before c (hpre.trans (List.prefix_append _ _))) middle hmiddle
    have hkeep := hkeeps commands command (List.prefix_refl _) middle record hmiddle hstep
    exact ⟨sound_step hsound hstep, bound_step hsound hbound hkeep hstep⟩

/-- **A task runs exactly when it is bound**, in every state of a run, if and only if no
`task-status` of the run takes it into or out of `running`. -/
theorem running_exactly_when_bound (library : PlanLibrary) (create : CreateCommand)
    (commands : List UpdateCommand) :
    (∀ before, before <+: commands → ∀ record,
      run_commands library before (created_record create) = .ok record → BoundExactly record) ↔
    ∀ before command, before ++ [command] <+: commands → ∀ record record',
      run_commands library before (created_record create) = .ok record →
      command.step library record = .ok record' → KeepsRunning command record := by
  constructor
  · intro hbound before command hpre record record' hbefore hstep
    have hrecord := hbound before ((List.prefix_append _ _).trans hpre) record hbefore
    have hafter : run_commands library (before ++ [command]) (created_record create) =
        .ok record' := by
      rw [run_concat, hbefore]
      exact hstep
    have hrecord' := hbound (before ++ [command]) hpre record' hafter
    exact keepsRunning_of_bound hrecord.running hstep hrecord'.running
  · intro hkeeps before hpre record hbefore
    obtain ⟨hsound, hrunning⟩ := bound_run create before
      (fun earlier command h => hkeeps earlier command (h.trans hpre)) record hbefore
    exact boundExactly_of hsound hrunning

def plainLibrary : PlanLibrary :=
  { sha256 := id
    authority_digest := fun _ _ => []
    post_state_digest := fun _ _ => [] }

def exampleTask : CreateCommand :=
  { task_id := ⟨asciiText "t", by decide⟩, title := asciiText "title", now := 1 }

def exampleLoop : Segment := ⟨asciiText "loop", by decide⟩

def importOf (kind : ArtifactKind) (text : String) : UpdateCommand :=
  .artifact {
    artifact_kind := .given kind
    route := .absent
    file := some (asciiText text)
    bundle := none
    stored_bundle_digest := none
    named_actor := ⟨[], [], []⟩
    actor := ⟨asciiText "cli", asciiText "user", []⟩
    expected_task_revision := none
    now := 1 }

def statusTo (status : TaskStatus) : UpdateCommand :=
  .status {
    status := .given status
    next_owner := .absent
    activation_reason := []
    expected_task_revision := none
    now := 1 }

/-- A running task is sent back for replanning and made ready again by `task-status`. -/
def stranding : List UpdateCommand :=
  [importOf .task_packet "packet", importOf .execution_contract "contract",
    statusTo .ready_for_orchestration,
    .bind_loop { loop_id := exampleLoop, lease_id := 1, expected_task_revision := none, now := 1 },
    importOf .macro_adjustment_request "request", statusTo .replan_required,
    statusTo .ready_for_orchestration]

theorem stranded_task : ∃ record,
    run_commands plainLibrary stranding (created_record exampleTask) = .ok record ∧
    ¬ BoundExactly record ∧
    ∀ files, activation_runner_action_for_record files record = .ok none := by
  have hend : (run_commands plainLibrary stranding (created_record exampleTask)).toOption.map
      (fun record => (record.status, record.next_owner, record.current_loop)) =
        some (.ready_for_orchestration, .orchestrator, some exampleLoop) := by
    decide
  cases hrun : run_commands plainLibrary stranding (created_record exampleTask) with
  | error e =>
    rw [hrun] at hend
    simp [Except.toOption] at hend
  | ok record =>
    rw [hrun] at hend
    simp only [Except.toOption, Option.map_some, Option.some.injEq, Prod.mk.injEq] at hend
    obtain ⟨hstatus, howner, hloop⟩ := hend
    refine ⟨record, rfl, fun hbound => ?_, fun files => ?_⟩
    · have hrunning := hbound.running
      rw [hstatus, hloop] at hrunning
      simp at hrunning
    · unfold activation_runner_action_for_record
      simp [hstatus, howner, hloop, validate_status_next_owner, default_next_owner_for_status,
        refuseIf, bind, Except.bind, pure, Except.pure]

theorem versions_run (commands : List UpdateCommand) (hsound : TaskSound record) :
    ∀ record', run_commands library commands record = .ok record' → TaskSound record' ∧
      record.state_version ≤ record'.state_version ∧
      (record'.state_version = record.state_version → record' = record) := by
  induction commands using List.reverseRecOn with
  | nil =>
    intro record' h
    cases Except.ok.inj h
    exact ⟨hsound, le_rfl, fun _ => rfl⟩
  | append_singleton commands command ih =>
    intro record' h
    rw [run_concat, bind_ok] at h
    obtain ⟨middle, hmiddle, hstep⟩ := h
    obtain ⟨hbefore, hle, hsame⟩ := ih middle hmiddle
    refine ⟨sound_step hbefore hstep, ?_⟩
    rcases step_cases hstep with rfl | ⟨changed, hchange, rfl⟩
    · exact ⟨hle, hsame⟩
    · have hversion := (change_same hchange).state_version
      have hbumped : changed.bumped.state_version = middle.state_version + 1 :=
        congrArg (· + 1) hversion
      exact ⟨by omega, fun _ => by omega⟩

/-- **A state version stands for one state**: in every run it never goes back, and commands
that leave it leave the record.  The next owner is always that of the status, and a bound
loop holds its lease. -/
theorem state_versions_identify (library : PlanLibrary) (create : CreateCommand)
    (commands more : List UpdateCommand)
    (h : run_commands library commands (created_record create) = .ok record)
    (hmore : run_commands library more record = .ok record') :
    TaskSound record' ∧ record.state_version ≤ record'.state_version ∧
      (record'.state_version = record.state_version → record' = record) :=
  versions_run more (versions_run commands (sound_created create) record h).1 record' hmore

/-- The same packet again leaves the version, and so the record. -/
theorem state_versions_identify_again : ∃ record record',
    run_commands plainLibrary [statusTo .draft, importOf .task_packet "packet"]
      (created_record exampleTask) = .ok record ∧
    run_commands plainLibrary [importOf .task_packet "packet"] record = .ok record' ∧
    record.state_version = 3 ∧ record'.state_version = 3 ∧ TaskSound record' ∧ record' = record := by
  refine ⟨_, _, rfl, rfl, rfl, rfl, ?_⟩
  obtain ⟨hsound, -, hsame⟩ := state_versions_identify plainLibrary exampleTask
    [statusTo .draft, importOf .task_packet "packet"] [importOf .task_packet "packet"] rfl rfl
  exact ⟨hsound, hsame rfl⟩

end ClaudeCodeBridge.Analysis.PlanTask
