import ClaudeCodeBridge.Analysis.LifecycleOwnership

/-!
# A stop is not lost

Every writer that sets `desired_state` to running has tested it first, but one: the signature
update of a reload tests that the lifecycle is mounted, and a lifecycle that is stopped never
is.  A keeper that relocates a project keeps what is desired, unless it makes the lifecycle of
a lease; there is none of the project without a lifecycle of the project, since daemons that
keepers start mount on one.

The ladder: what a write of the lifecycle or the lease has to show (`halts_lifecycle`,
`halts_lease`); each region keeps `Halts` wherever it stops (`halts_region`,
`halts_keeper_region`, `halts_command_region`); so does every run (`halts_run`), which gives
that a stop lasts (`stop_lasts`).
-/

set_option autoImplicit false

namespace ClaudeCodeBridge.Analysis.Ownership

open Program
open Model.Ownership
open Prog

variable {project_id : Text} {base : Option CcbdLease} {stopped : Prop} {files : Files}

/-- What holds of the files of a project, and, once it is `stopped`, that it stays so and no
lease is mounted that was not on file at `base`. -/
structure Halts (project_id : Text) (base : Option CcbdLease) (stopped : Prop)
    (files : Files) : Prop where
  project : files.OfProject project_id
  found : stopped → files.lifecycle ≠ none
  desired : stopped → ∀ lifecycle, files.lifecycle = some lifecycle →
    lifecycle.desired_state = .stopped
  lease : stopped → ∀ lease, files.lease = some lease → lease.mount_state = .mounted →
    ∃ old, base = some old ∧ old.mount_state = .mounted ∧
      old.daemon_instance_id = lease.daemon_instance_id ∧ old.generation = lease.generation

theorem Halts.running (hs : Halts project_id base stopped files) {lifecycle : CcbdLifecycle}
    (hfound : files.lifecycle = some lifecycle) (hrunning : lifecycle.desired_state = .running) :
    ¬ stopped := by
  intro hstopped
  have hwant := hs.desired hstopped lifecycle hfound
  rw [hrunning] at hwant
  cases hwant

theorem halts_lifecycle (hs : Halts project_id base stopped files) {new : CcbdLifecycle}
    (hproject : ∀ lease, files.lease = some lease → lease.project_id = project_id →
      new.project_id = project_id)
    (hphase : new.desired_state = .stopped → new.phase ≠ .mounted)
    (hdesired : stopped → new.desired_state = .stopped) :
    Halts project_id base stopped { files with lifecycle := some new } := by
  refine { project := ?_, found := fun _ => Option.some_ne_none _, desired := ?_,
           lease := hs.lease }
  · refine { lifecycle := fun lease lifecycle hlease hfound hsame => ?_,
             stopped := fun lifecycle hfound => ?_ }
    · rw [← Option.some.inj hfound]
      exact hproject lease hlease hsame
    · rw [← Option.some.inj hfound]
      exact hphase
  · intro hstopped lifecycle hfound
    rw [← Option.some.inj hfound]
    exact hdesired hstopped

theorem halts_of_same (hs : Halts project_id base stopped files) {old new : CcbdLifecycle}
    (hfound : files.lifecycle = some old) (hsame : new.project_id = old.project_id)
    (hphase : new.desired_state = .stopped → new.phase ≠ .mounted)
    (hdesired : old.desired_state = .stopped → new.desired_state = .stopped) :
    Halts project_id base stopped { files with lifecycle := some new } := by
  refine halts_lifecycle hs ?_ hphase fun hstopped => hdesired (hs.desired hstopped old hfound)
  intro lease hlease hproject
  rw [hsame]
  exact hs.project.lifecycle lease old hlease hfound hproject

theorem halts_lease (hs : Halts project_id base stopped files) {old new : CcbdLease}
    {written : List (DaemonId × CcbdLease)} (hold : files.lease = some old)
    (hproject : new.project_id = old.project_id)
    (hholder : new.daemon_instance_id = old.daemon_instance_id)
    (hgeneration : new.generation = old.generation)
    (hmounted : new.mount_state = .mounted → old.mount_state = .mounted) :
    Halts project_id base stopped { files with lease := some new, written := written } := by
  refine { project := ?_, found := hs.found, desired := hs.desired, lease := ?_ }
  · refine { lifecycle := fun lease lifecycle hlease hfound hsame => ?_,
             stopped := hs.project.stopped }
    rw [← Option.some.inj hlease, hproject] at hsame
    exact hs.project.lifecycle old lifecycle hold hfound hsame
  · intro hstopped lease hlease hnow
    have hequal : new = lease := Option.some.inj hlease
    subst hequal
    obtain ⟨first, hfirst, hwas, hsame, hequal⟩ := hs.lease hstopped old hold (hmounted hnow)
    exact ⟨first, hfirst, hwas, hsame.trans hholder.symm, hequal.trans hgeneration.symm⟩

variable {h : Home} {answers : Answers} {fence : ExpectedStartupFence}

/-- Every stop of a region keeps what holds of the files, and so does its end. -/
abbrev HaltsAlong {α : Type} (project_id : Text) (base : Option CcbdLease) (stopped : Prop)
    (call : DaemonCall α) (h : Home) : Prop :=
  Along (fun _ _ => True) (fun h' => Halts project_id base stopped h'.files) call
    (fun _ h' => Halts project_id base stopped h'.files) h

theorem halts_save_lifecycle {new : CcbdLifecycle}
    (hafter : Halts project_id base stopped { h.files with lifecycle := some new }) :
    HaltsAlong project_id base stopped (save_lifecycle new) h :=
  fun _ => ⟨hafter, hafter⟩

section

variable (hs : Halts project_id base stopped h.files)

include hs

theorem halts_startup_generation_of (hfence : h.app.expected_startup_fence = some fence) :
    Along (fun _ _ => True) (fun h' => Halts project_id base stopped h'.files)
      (startup_generation_of answers)
      (fun claim h' => h' = h ∧ ∃ old, h.files.lifecycle = some old ∧
        claim.1.project_id = old.project_id ∧ old.desired_state = .running) h := by
  refine along_read_bind hs ?_
  simp only [hfence]
  refine along_read_bind hs (along_ofExcept_bind fun lifecycle hexpected => ?_)
  refine along_ofExcept_bind fun _ _ => along_read_bind hs (along_ofExcept_bind fun _ _ => ?_)
  obtain ⟨hmap, hstartup⟩ := expectedStartup_of hexpected
  rw [Option.map_eq_some_iff] at hmap
  obtain ⟨old, hold, hreset⟩ := hmap
  have hsame : (reset_crashed answers old).project_id = old.project_id ∧
      (reset_crashed answers old).desired_state = old.desired_state := by
    unfold reset_crashed
    split
    · exact ⟨rfl, rfl⟩
    · exact ⟨rfl, rfl⟩
  rw [hreset] at hsame
  exact ⟨rfl, old, hold, hsame.1, hsame.2.symm.trans hstartup.desired_state⟩

theorem halts_claim_starting (hfence : h.app.expected_startup_fence = some fence) :
    HaltsAlong project_id base stopped (claim_starting answers) h := by
  refine Along.bind (Along.mono (halts_startup_generation_of hs hfence) ?_)
  rintro claim h' ⟨rfl, old, hold, hproject, hrunning⟩
  refine along_ofExcept_bind fun _ _ => along_read_bind hs (Along.bind ?_)
  have hafter : Halts project_id base stopped { h'.files with
      lifecycle := some (starting_owner_claim h'.app claim.1 claim.2) } := by
    refine halts_of_same hs hold hproject DesiredState.noConfusion fun hwant => ?_
    rw [hrunning] at hwant
    cases hwant
  exact fun _ => ⟨hafter, fun _ => ⟨hafter, hafter⟩⟩

theorem halts_update_startup_progress
    (hfence : h.app.expected_startup_fence = some fence) (stage : StartupStage) :
    HaltsAlong project_id base stopped (update_startup_progress stage) h := by
  refine along_reads_bind hs (along_ofExcept_bind fun lifecycle hok => ?_)
  simp only [hfence] at hok
  obtain ⟨hfound, _⟩ := expectedStartup_of hok
  exact halts_save_lifecycle
    (halts_of_same hs hfound rfl (hs.project.stopped lifecycle hfound) fun hwant => hwant)

theorem halts_publish_mounted (hfence : h.app.expected_startup_fence = some fence)
    (hproject : h.app.project_id = project_id) :
    HaltsAlong project_id base stopped (publish_mounted_after_bootstrap_probe answers) h := by
  refine along_read_bind hs (along_ofExcept_bind fun _ _ => along_read_bind hs ?_)
  refine along_ofExcept_bind fun _ hexpected => along_read_bind hs ?_
  refine along_ofExcept_bind fun _ _ => along_ofExcept_bind fun lifecycle hok => ?_
  simp only [hfence, bind_ok] at hexpected
  obtain ⟨lifecycle', hexpected, _⟩ := hexpected
  obtain ⟨hfound, hstartup⟩ := expectedStartup_of hexpected
  obtain ⟨hfound', _⟩ := startingOwner_of hok
  have hsame : lifecycle' = lifecycle := Option.some.inj (hfound.symm.trans hfound')
  subst hsame
  have hopen := hs.running hfound hstartup.desired_state
  have hmounted : Halts project_id base stopped { h.files with
      lease := some (mounted_lease answers h.app (h.app.startup_generation.getD 0))
      written := h.files.written ++ [(h.app.daemon_instance_id,
        mounted_lease answers h.app (h.app.startup_generation.getD 0))] } := by
    refine { project := ?_, found := hs.found, desired := hs.desired,
             lease := fun hstopped => absurd hstopped hopen }
    refine { lifecycle := fun lease current _ hcurrent _ => ?_, stopped := hs.project.stopped }
    rw [← Option.some.inj (hfound.symm.trans hcurrent), hstartup.project_id, hproject]
  refine Along.bind fun _ => ⟨hmounted, Along.bind ?_⟩
  have hafter : Halts project_id base stopped { h.files with
      lease := some (mounted_lease answers h.app (h.app.startup_generation.getD 0))
      written := h.files.written ++ [(h.app.daemon_instance_id,
        mounted_lease answers h.app (h.app.startup_generation.getD 0))]
      lifecycle := some (runtime_bootstrap_lifecycle answers h.app lifecycle'
        (h.app.startup_generation.getD 0)) } :=
    halts_lifecycle hmounted (fun _ _ _ => hstartup.project_id.trans hproject)
      DesiredState.noConfusion fun hstopped => absurd hstopped hopen
  exact fun _ => ⟨hafter, fun _ => ⟨hafter, hafter⟩⟩

theorem halts_runtime_bootstrap_complete :
    HaltsAlong project_id base stopped (mark_runtime_bootstrap_complete answers) h := by
  refine along_read_bind hs (along_ofExcept_bind fun _ _ => ?_)
  refine along_reads_bind hs (along_ofExcept_bind fun lifecycle hok => ?_)
  obtain ⟨hfound, hauthority⟩ := startupAuthority_of hok
  refine halts_save_lifecycle (halts_of_same hs hfound rfl ?_ fun hwant => ?_)
  · exact DesiredState.noConfusion
  · rw [hauthority.desired_state] at hwant
    cases hwant

theorem halts_mark_lifecycle_failed (failure_reason : Text) :
    HaltsAlong project_id base stopped (mark_lifecycle_failed failure_reason) h := by
  refine along_reads_bind hs ?_
  cases hfound : h.files.lifecycle with
  | none => exact hs
  | some lifecycle =>
    refine along_read_bind hs (Along.ite (fun _ => ?_) fun _ => hs)
    refine halts_save_lifecycle (halts_of_same hs hfound rfl ?_ fun hwant => hwant)
    exact fun _ => Phase.noConfusion

theorem halts_current_lifecycle (hproject : h.app.project_id = project_id) {new : CcbdLifecycle}
    (hsame : new.project_id = (current_lifecycle h.app h.files.lifecycle).project_id)
    (hphase : new.phase ≠ .mounted)
    (hdesired : (current_lifecycle h.app h.files.lifecycle).desired_state = .stopped →
      new.desired_state = .stopped) :
    HaltsAlong project_id base stopped (save_lifecycle new) h := by
  cases hfound : h.files.lifecycle with
  | none =>
    rw [hfound] at hsame
    refine halts_save_lifecycle (halts_lifecycle hs ?_ (fun _ => hphase) ?_)
    · exact fun _ _ _ => hsame.trans hproject
    · exact fun hstopped => absurd hfound (hs.found hstopped)
  | some lifecycle =>
    rw [hfound] at hsame hdesired
    exact halts_save_lifecycle (halts_of_same hs hfound hsame (fun _ => hphase) hdesired)

theorem halts_mark_lifecycle_stopping
    (hproject : h.app.project_id = project_id) (shutdown_intent : Text) :
    HaltsAlong project_id base stopped (mark_lifecycle_stopping shutdown_intent) h := by
  refine along_reads_bind hs ?_
  exact halts_current_lifecycle hs hproject rfl Phase.noConfusion
    fun _ => rfl

theorem halts_mark_lifecycle_unmounted
    (hproject : h.app.project_id = project_id) (desired_state : DesiredState) :
    HaltsAlong project_id base stopped (mark_lifecycle_unmounted desired_state) h := by
  refine along_reads_bind hs (Along.ite (fun _ => hs) fun _ => ?_)
  refine Along.ite (fun _ => hs) fun _ => ?_
  refine halts_current_lifecycle hs hproject rfl Phase.noConfusion ?_
  exact fun hwant => if_pos (Or.inl hwant)

theorem halts_save_lease {old : CcbdLease} (new : CcbdLease) (hold : h.files.lease = some old)
    (hproject : new.project_id = old.project_id) (hheld : held new = held old)
    (hmounted : new.mount_state = .mounted → old.mount_state = .mounted) :
    HaltsAlong project_id base stopped (save_lease new) h := by
  simp only [held, Prod.mk.injEq] at hheld
  have hafter : Halts project_id base stopped { h.files with
      lease := some new
      written := h.files.written ++ [(h.app.daemon_instance_id, new)] } :=
    halts_lease hs hold hproject hheld.2.1 hheld.1 hmounted
  exact fun _ => ⟨hafter, hafter⟩

theorem halts_refresh_heartbeat :
    HaltsAlong project_id base stopped (refresh_heartbeat answers) h := by
  refine along_reads_bind hs (along_ofExcept_bind fun lease hlease => ?_)
  rw [valueOr_ok] at hlease
  refine Along.ite (fun _ => hs) fun hmounted => along_ofExcept_bind fun _ _ => ?_
  refine Along.ite (fun _ => Along.bind (Along.mono ?_ fun _ _ hs' => hs')) fun _ => hs
  exact halts_save_lease hs { lease with last_heartbeat_at := answers.now } hlease rfl rfl
    fun hstate => hstate

theorem halts_record_heartbeat_failures (failures : Option Text) :
    HaltsAlong project_id base stopped (record_heartbeat_failures failures) h := by
  refine along_read_bind hs ?_
  cases hfound : h.files.lifecycle with
  | none => exact hs
  | some lifecycle =>
    refine Along.ite (fun _ => ?_) fun _ => hs
    exact halts_save_lifecycle
      (halts_of_same hs hfound rfl (hs.project.stopped lifecycle hfound) fun hwant => hwant)

theorem halts_heartbeat (failures : Option Text) :
    HaltsAlong project_id base stopped (heartbeat answers failures) h := by
  refine along_reads_bind hs (Along.ite (fun _ => hs) fun _ => ?_)
  refine along_read_bind hs (along_ofExcept_bind fun _ _ => ?_)
  refine Along.bind (Along.mono (halts_refresh_heartbeat hs) fun lease h' hs' => ?_)
  have hafter : Halts project_id base stopped
      ({ h' with app := { h'.app with lease := some lease } } : Home).files := hs'
  exact Along.bind fun _ => ⟨hafter, halts_record_heartbeat_failures hafter failures⟩

theorem halts_update_lease_signature (config_signature : Text) (expected_generation : ℕ) :
    HaltsAlong project_id base stopped
      (update_current_lease_config_signature answers config_signature expected_generation) h := by
  refine along_reads_bind hs (along_ofExcept_bind fun lease hlease => ?_)
  rw [valueOr_ok] at hlease
  refine along_ofExcept_bind fun _ _ => along_ofExcept_bind fun _ _ => ?_
  refine along_ofExcept_bind fun _ _ => along_ofExcept_bind fun _ _ => ?_
  exact halts_save_lease hs _ hlease rfl rfl fun hstate => hstate

theorem halts_update_lifecycle_signature (config_signature : Text) (expected_generation : ℕ) :
    HaltsAlong project_id base stopped
      (update_mounted_lifecycle_config_signature answers config_signature expected_generation)
      h := by
  refine along_reads_bind hs (along_ofExcept_bind fun lifecycle hok => ?_)
  refine along_ofExcept_bind fun _ _ => ?_
  simp only [assert_mounted_lifecycle_signature_handoff, bind_ok, valueOr_ok, refuseIf_ok, pure_ok,
    not_not] at hok
  obtain ⟨found, hfound, _, hmounted, _, _, _, _, _, _, hsame⟩ := hok
  subst hsame
  refine halts_save_lifecycle (halts_of_same hs hfound rfl ?_ fun hwant => ?_)
  · exact DesiredState.noConfusion
  · exact absurd hmounted (hs.project.stopped found hfound hwant)

theorem halts_sync_lifecycle_namespace_epoch (epoch : ℕ) :
    HaltsAlong project_id base stopped (sync_lifecycle_namespace_epoch epoch) h := by
  refine along_read_bind hs ?_
  cases hfound : h.files.lifecycle with
  | none => exact hs
  | some lifecycle =>
    refine along_read_bind hs (Along.ite (fun _ => ?_) fun _ => hs)
    exact halts_save_lifecycle
      (halts_of_same hs hfound rfl (hs.project.stopped lifecycle hfound) fun hwant => hwant)

theorem halts_release_backend_ownership
    (hproject : h.app.project_id = project_id) (desired_state : DesiredState) :
    HaltsAlong project_id base stopped (release_backend_ownership answers desired_state) h := by
  refine along_read_bind hs ?_
  have hmarked : Along (fun _ _ => True) (fun h' => Halts project_id base stopped h'.files)
      (mark_current_daemon_unmounted answers)
      (fun _ h' => Halts project_id base stopped h'.files ∧ h'.app = h.app) h := by
    refine along_reads_bind hs ?_
    cases hlease : h.files.lease with
    | none => exact ⟨hs, rfl⟩
    | some lease =>
      cases hchecked : assert_expected_holder h.app lease with
      | error e =>
        simp only [hchecked]
        exact ⟨hs, rfl⟩
      | ok u =>
        simp only [hchecked]
        have hsaved := halts_save_lease hs { lease with
          mount_state := .unmounted
          last_heartbeat_at := answers.now } hlease rfl rfl fun hstate =>
            MountState.noConfusion hstate
        exact Along.bind fun _ => ⟨(hsaved trivial).1, (hsaved trivial).1, rfl⟩
  refine Along.bind (Along.mono hmarked fun lease h' hmarked => ?_)
  obtain ⟨hs', happ⟩ := hmarked
  refine along_read_bind hs' (along_read_bind hs' (Along.ite (fun _ => ?_) ?_))
  · have hproject' : h'.app.project_id = project_id := by
      rw [happ]
      exact hproject
    refine Along.bind (Along.mono (halts_mark_lifecycle_unmounted hs' hproject' desired_state) ?_)
    exact fun _ h'' hs'' => fun _ => ⟨hs'', hs''⟩
  · exact fun _ => fun _ => ⟨hs', hs'⟩

end

theorem halts_region (region : DaemonRegion) (hs : Halts project_id base stopped h.files)
    (hproject : h.app.project_id = project_id)
    (hfence : h.app.expected_startup_fence = some fence) :
    HaltsAlong project_id base stopped (region.call answers) h := by
  cases region with
  | claim_starting => exact halts_claim_starting hs hfence
  | update_startup_progress stage => exact halts_update_startup_progress hs hfence stage
  | publish_mounted => exact halts_publish_mounted hs hfence hproject
  | runtime_bootstrap_complete => exact halts_runtime_bootstrap_complete hs
  | mark_failed failure_reason => exact halts_mark_lifecycle_failed hs failure_reason
  | mark_stopping shutdown_intent =>
    exact halts_mark_lifecycle_stopping hs hproject shutdown_intent
  | heartbeat failures => exact halts_heartbeat hs failures
  | release_backend_ownership desired_state =>
    exact halts_release_backend_ownership hs hproject desired_state
  | update_lease_signature config_signature expected_generation =>
    exact halts_update_lease_signature hs config_signature expected_generation
  | update_lifecycle_signature config_signature expected_generation =>
    exact halts_update_lifecycle_signature hs config_signature expected_generation
  | sync_namespace_epoch epoch => exact halts_sync_lifecycle_namespace_epoch hs epoch

variable {w : Files}

abbrev HaltsFiles {α : Type} (project_id : Text) (base : Option CcbdLease) (stopped : Prop)
    (call : KeeperCall α) (w : Files) : Prop :=
  Along (fun _ _ => True) (Halts project_id base stopped) call
    (fun _ => Halts project_id base stopped) w

theorem halts_save_lifecycle_file {new : CcbdLifecycle}
    (hafter : Halts project_id base stopped { w with lifecycle := some new }) :
    HaltsFiles project_id base stopped (save_lifecycle_file new) w :=
  fun _ => ⟨hafter, hafter⟩

theorem lifecycle_from_inspection_stopped (project_id : Text) (config_signature : Option Text)
    (keeper_pid : Option ℕ) (inspection : LeaseInspection) :
    (lifecycle_from_inspection project_id config_signature keeper_pid
        inspection).project_id = project_id ∧
      ((lifecycle_from_inspection project_id config_signature keeper_pid
        inspection).desired_state = .stopped →
      (lifecycle_from_inspection project_id config_signature keeper_pid
        inspection).phase ≠ .mounted) := by
  unfold lifecycle_from_inspection
  cases inspection.lease with
  | none => exact ⟨rfl, fun _ => Phase.noConfusion⟩
  | some lease =>
    refine ⟨rfl, fun hwant hphase => ?_⟩
    by_cases hmounted : lease.mount_state ≠ .unmounted
    · simp only [if_pos hmounted] at hwant
      cases hwant
    · simp only [if_neg hmounted] at hphase
      cases hphase

variable {keeper : ProjectKeeper}

section

variable (hs : Halts project_id base stopped w)

include hs

theorem halts_of_inspection {new : CcbdLifecycle}
    (hmissing : w.lifecycle = none) (hproject : new.project_id = project_id)
    (hphase : new.desired_state = .stopped → new.phase ≠ .mounted) :
    Halts project_id base stopped { w with lifecycle := some new } :=
  halts_lifecycle hs (fun _ _ _ => hproject) hphase fun hstopped =>
    absurd hmissing (hs.found hstopped)

theorem halts_spawn_daemon
    (hproject : keeper.project_id = project_id) (config_signature : Text) (start_timeout : ℤ) :
    HaltsFiles project_id base stopped
      (spawn_daemon answers keeper config_signature start_timeout) w := by
  refine along_reads_bind hs (Along.ite (fun _ => hs) fun hgoes => ?_)
  simp only [not_or, not_not] at hgoes
  refine Along.bind (along_write fun _ => and_self_iff.mpr ?_)
  cases hfound : w.lifecycle with
  | none =>
    refine halts_of_inspection hs hfound ?_ DesiredState.noConfusion
    exact (lifecycle_from_inspection_stopped _ _ _ _).1.trans hproject
  | some lifecycle =>
    rw [hfound, Option.getD_some] at hgoes
    refine halts_of_same hs hfound rfl DesiredState.noConfusion fun hwant => ?_
    rw [hgoes.1] at hwant
    cases hwant

theorem halts_record_daemon_start_success (starting : CcbdLifecycle) (config_signature : Text) :
    HaltsFiles project_id base stopped
      (record_daemon_start_success keeper starting config_signature) w := by
  refine along_read_bind hs ?_
  cases hfound : w.lifecycle with
  | none => exact hs
  | some current =>
    refine along_read_bind hs (Along.ite (fun _ => hs) fun hgoes => ?_)
    simp only [not_or, not_not] at hgoes
    have hopen : current.desired_state ≠ .stopped := by
      rw [hgoes.2.1]
      exact DesiredState.noConfusion
    exact halts_save_lifecycle_file (halts_of_same hs hfound rfl
      (fun hwant => absurd hwant hopen) fun hwant => hwant)

theorem halts_record_daemon_start_failure
    (starting : Option CcbdLifecycle) (desired_state : DesiredState) (failure_reason : Text) :
    HaltsFiles project_id base stopped
      (record_daemon_start_failure starting desired_state failure_reason) w := by
  refine along_read_bind hs ?_
  cases hfound : w.lifecycle with
  | none => exact hs
  | some current =>
    refine Along.ite (fun hallowed => ?_) fun _ => hs
    refine halts_save_lifecycle_file (halts_of_same hs hfound rfl ?_ fun hwant => ?_)
    · exact fun _ => Phase.noConfusion
    · exfalso
      cases starting with
      | none =>
        simp only [hwant] at hallowed
        cases hallowed
      | some starting =>
        simp only [hwant, Bool.and_eq_true] at hallowed
        cases hallowed.1.2

theorem halts_record_connectable_mounted (observed : Option CcbdLease) :
    HaltsFiles project_id base stopped (record_connectable_mounted answers keeper observed) w := by
  refine along_reads_bind hs ?_
  cases hfound : w.lifecycle with
  | none => exact hs
  | some lifecycle =>
    cases hlease : w.lease with
    | none => exact hs
    | some lease =>
      refine Along.ite (fun _ => hs) fun hgoes => halts_save_lifecycle_file ?_
      simp only [not_or, not_not] at hgoes
      refine halts_of_same hs hfound rfl ?_ fun hwant => ?_
      · exact DesiredState.noConfusion
      rw [hgoes.1] at hwant
      cases hwant

theorem halts_record_connectable_restart (observed : Option CcbdLease) :
    HaltsFiles project_id base stopped (record_connectable_restart observed) w := by
  refine along_read_bind hs ?_
  cases hfound : w.lifecycle with
  | none => exact hs
  | some lifecycle =>
    refine along_read_bind hs (Along.ite (fun _ => hs) fun hgoes => halts_save_lifecycle_file ?_)
    simp only [not_or, not_not] at hgoes
    refine halts_of_same hs hfound rfl DesiredState.noConfusion fun hwant => ?_
    rw [hgoes.1] at hwant
    cases hwant

theorem halts_record_connectable_observation_failure
    (observed : Option CcbdLease) (failure_reason : Text) :
    HaltsFiles project_id base stopped
      (record_connectable_observation_failure answers keeper observed failure_reason) w := by
  refine along_read_bind hs ?_
  cases hfound : w.lifecycle with
  | none => exact hs
  | some current =>
    refine along_read_bind hs (Along.ite (fun _ => hs) fun hgoes => ?_)
    simp only [not_or, not_not] at hgoes
    -- the keeper goes on only for a project that should run
    have hwrites : ∀ new : CcbdLifecycle, new.project_id = current.project_id →
        new.desired_state = .running →
          HaltsFiles project_id base stopped (save_lifecycle_file new) w := by
      intro new hproject hrunning
      refine halts_save_lifecycle_file (halts_of_same hs hfound hproject ?_ fun hwant => ?_)
      · rw [hrunning]
        exact DesiredState.noConfusion
      · rw [hgoes.1] at hwant
        cases hwant
    rw [inspect_lease]
    cases hlease : w.lease with
    | none => exact Along.ite (fun _ => hs) fun _ => hwrites _ rfl rfl
    | some lease =>
      refine Along.ite (fun _ => ?_) fun _ => Along.ite (fun _ => hs) fun _ => hwrites _ rfl rfl
      exact Along.ite (fun _ => hs) fun _ => hwrites _ rfl rfl

end

/-- The lifecycle of a project is the one on file, or one that keeps what is desired. -/
structure KeepsDesired (project_id : Text) (stopped : Prop) (before w : Files)
    (result : Option CcbdLifecycle × Bool) : Prop where
  lifecycle : w.lifecycle = before.lifecycle
  kept : result.2 = false → result.1 = w.lifecycle
  anew : result.2 = true → ∃ new, result.1 = some new ∧ new.project_id = project_id ∧
    (new.desired_state = .stopped → new.phase ≠ .mounted) ∧
    (stopped → new.desired_state = .stopped)

variable {context : CommandContext}

section

variable (hs : Halts project_id base stopped w)

include hs

theorem halts_reconcile (socket_path : Text)
    (config_signature : Option Text) (keeper_pid : Option ℕ) :
    Along (fun _ _ => True) (Halts project_id base stopped)
      (reconcile_runtime_project_identity answers project_id socket_path config_signature
        keeper_pid w.lifecycle (Model.Ownership.inspect answers w.lease))
      (fun result w' => Halts project_id base stopped w' ∧
        KeepsDesired project_id stopped w w' result) w := by
  unfold reconcile_runtime_project_identity
  have hinspected := inspect_lease answers w.lease
  refine Along.ite (fun _ => ?_) fun hforeign => ?_
  · refine along_pure ⟨hs, ⟨rfl, fun _ => rfl, fun h => ?_⟩⟩
    cases h
  rw [hinspected] at hforeign
  have hrelocated : ∀ (w' : Files) (new : CcbdLifecycle), Halts project_id base stopped w' →
      w'.lifecycle = w.lifecycle → new.project_id = project_id → new.phase = .unmounted →
      new.desired_state = w.lifecycle.elim .stopped CcbdLifecycle.desired_state →
        Halts project_id base stopped w' ∧
          KeepsDesired project_id stopped w w' (some new, true) := by
    intro w' new hs' hsame hproject hphase hdesired
    refine ⟨hs', ⟨hsame, Bool.noConfusion, fun _ => ⟨new, rfl, hproject, ?_, ?_⟩⟩⟩
    · intro _ hmounted
      rw [hphase] at hmounted
      cases hmounted
    · intro hstopped
      obtain ⟨lifecycle, hfound⟩ := Option.ne_none_iff_exists'.mp (hs.found hstopped)
      rw [hdesired, hfound, Option.elim_some]
      exact hs.desired hstopped lifecycle hfound
  rw [hinspected]
  cases hlease : w.lease with
  | none => exact along_pure (hrelocated w _ hs rfl rfl rfl rfl)
  | some lease =>
    refine Along.ite (fun hmine => ?_) fun _ => ?_
    · obtain ⟨hproject, hphase⟩ := lifecycle_from_inspection_stopped project_id config_signature
        keeper_pid (Model.Ownership.inspect answers (some lease))
      refine along_pure ⟨hs, ⟨rfl, Bool.noConfusion, fun _ => ?_⟩⟩
      refine ⟨_, rfl, hproject, hphase, fun hstopped => ?_⟩
      -- a lease of the project has a lifecycle of the project, so nothing is foreign
      obtain ⟨lifecycle, hfound⟩ := Option.ne_none_iff_exists'.mp (hs.found hstopped)
      have hsame := hs.project.lifecycle lease lifecycle hlease hfound hmine
      rw [hlease, hfound, Option.all_some, Option.all_some, hsame, hmine] at hforeign
      simp at hforeign
    refine Along.ite (fun _ => along_pure (hrelocated w _ hs rfl rfl rfl rfl)) fun _ => ?_
    refine along_ofExcept_bind fun _ _ => Along.bind (along_write fun _ => ?_)
    have hafter : Halts project_id base stopped { w with lease := w.lease.map fun lease =>
        { lease with
          mount_state := .unmounted
          last_heartbeat_at := answers.now } } := by
      rw [hlease]
      exact halts_lease hs hlease rfl rfl rfl MountState.noConfusion
    exact ⟨hafter, along_pure (hrelocated _ _ hafter rfl rfl rfl rfl)⟩

theorem halts_ensure_project_lifecycle (hproject : keeper.project_id = project_id)
    (config_signature : Option Text) :
    HaltsFiles project_id base stopped
      (ensure_project_lifecycle answers keeper config_signature) w := by
  subst hproject
  refine along_reads_bind hs ?_
  refine Along.bind (Along.mono (halts_reconcile hs _ _ _) fun result w' hresult => ?_)
  obtain ⟨hs', hkeeps⟩ := hresult
  obtain ⟨lifecycle, reconciled⟩ := result
  cases reconciled with
  | true =>
    obtain ⟨new, hnew, hproject, hphase, hdesired⟩ := hkeeps.anew rfl
    simp only at hnew
    subst hnew
    exact halts_save_lifecycle_file (halts_lifecycle hs' (fun _ _ _ => hproject) hphase hdesired)
  | false =>
    have hkept := hkeeps.kept rfl
    simp only at hkept
    cases lifecycle with
    | none =>
      obtain ⟨hproject, hphase⟩ := lifecycle_from_inspection_stopped keeper.project_id
        config_signature (some keeper.pid) (Model.Ownership.inspect answers w.lease)
      exact halts_save_lifecycle_file (halts_of_inspection hs' hkept.symm hproject hphase)
    | some lifecycle =>
      refine Along.ite (fun h => by cases h) fun _ => Along.ite (fun _ => hs') fun _ => ?_
      exact halts_save_lifecycle_file (halts_of_same hs' hkept.symm rfl
        (hs'.project.stopped lifecycle hkept.symm) fun hwant => hwant)

theorem halts_record_running_intent (hproject : context.project_id = project_id)
    (hopen : ¬ stopped) :
    HaltsFiles project_id base stopped (record_running_intent answers context) w := by
  subst hproject
  refine along_reads_bind hs ?_
  refine Along.bind (Along.mono (halts_reconcile hs _ _ _) fun result w' hresult => ?_)
  obtain ⟨hs', hkeeps⟩ := hresult
  refine along_read_bind hs' (Along.ite (fun _ => hs') fun _ => halts_save_lifecycle_file ?_)
  refine halts_lifecycle hs' ?_ DesiredState.noConfusion
    fun hstopped => absurd hstopped hopen
  intro lease hlease hmine
  cases hsome : result.1 with
  | none => exact (lifecycle_from_inspection_stopped context.project_id none none _).1
  | some lifecycle =>
    cases hanew : result.2 with
    | true =>
      obtain ⟨new, hnew, hproject, _⟩ := hkeeps.anew hanew
      rw [← Option.some.inj (hnew.symm.trans hsome)]
      exact hproject
    | false =>
      have hkept := hkeeps.kept hanew
      rw [hsome] at hkept
      exact hs'.project.lifecycle lease lifecycle hlease hkept.symm hmine

theorem halts_record_shutdown_intent (hproject : context.project_id = project_id)
    (config_signature : Option Text) (reason : Text) :
    HaltsFiles project_id base stopped
      (record_shutdown_intent answers context config_signature reason) w := by
  refine along_reads_bind hs (halts_save_lifecycle_file ?_)
  have hphase : ∀ phase : Phase, (if phase = .unmounted then Phase.unmounted
      else .stopping) ≠ .mounted := by
    intro phase
    split
    · exact Phase.noConfusion
    · exact Phase.noConfusion
  cases hfound : w.lifecycle with
  | none =>
    refine halts_of_inspection hs hfound ?_ fun _ => hphase _
    exact (lifecycle_from_inspection_stopped _ _ _ _).1.trans hproject
  | some current => exact halts_of_same hs hfound rfl (fun _ => hphase _) fun _ => rfl

theorem halts_finalize_shutdown_lifecycle (hproject : context.project_id = project_id)
    (config_signature : Option Text) (intent : Bool) :
    HaltsFiles project_id base stopped
      (finalize_shutdown_lifecycle answers context config_signature intent) w := by
  refine along_read_bind hs (Along.ite (fun _ => hs) fun _ => along_read_bind hs ?_)
  refine halts_save_lifecycle_file ?_
  cases hfound : w.lifecycle with
  | none =>
    refine halts_of_inspection hs hfound ?_ fun _ => Phase.noConfusion
    exact (lifecycle_from_inspection_stopped _ _ _ _).1.trans hproject
  | some current =>
    exact halts_of_same hs hfound rfl (fun _ => Phase.noConfusion) fun _ => rfl

end

theorem halts_keeper_region (region : KeeperRegion)
    (hs : Halts project_id base stopped w) (hproject : keeper.project_id = project_id) :
    HaltsFiles project_id base stopped (region.call answers keeper) w := by
  cases region with
  | spawn_daemon config_signature start_timeout =>
    refine Along.bind (Along.mono ?_ fun _ _ hs' => hs')
    exact halts_spawn_daemon hs hproject config_signature start_timeout
  | record_daemon_start_success starting config_signature =>
    exact halts_record_daemon_start_success hs starting config_signature
  | record_daemon_start_failure starting desired_state failure_reason =>
    exact halts_record_daemon_start_failure hs starting desired_state failure_reason
  | ensure_project_lifecycle config_signature =>
    exact halts_ensure_project_lifecycle hs hproject config_signature
  | record_connectable_mounted observed => exact halts_record_connectable_mounted hs observed
  | record_connectable_restart observed => exact halts_record_connectable_restart hs observed
  | record_connectable_observation_failure observed failure_reason =>
    exact halts_record_connectable_observation_failure hs observed failure_reason

theorem halts_command_region (region : CommandRegion)
    (hs : Halts project_id base stopped w) (hproject : context.project_id = project_id)
    (hstart : stopped → region ≠ .record_running_intent) :
    HaltsFiles project_id base stopped (region.call answers context) w := by
  cases region with
  | record_running_intent =>
    exact halts_record_running_intent hs hproject fun hstopped => hstart hstopped rfl
  | record_shutdown_intent config_signature reason =>
    exact halts_record_shutdown_intent hs hproject config_signature reason
  | finalize_shutdown_lifecycle config_signature intent =>
    exact halts_finalize_shutdown_lifecycle hs hproject config_signature intent

variable {s : System} {id : DaemonId}

def DaemonsOf (project_id : Text) (daemon : DaemonId → Option DaemonApp) : Prop :=
  ∀ id app, daemon id = some app → app.project_id = project_id ∧ app.expected_startup_fence ≠ none

theorem halts_daemon (hs : Halts project_id base stopped s.files)
    (hdaemons : DaemonsOf project_id s.daemon) {step : Step} (hactor : step.actor = some id)
    {app : DaemonApp} (happ : s.daemon id = some app) :
    Halts project_id base stopped (s.step step).files ∧
      DaemonsOf project_id (s.step step).daemon := by
  obtain ⟨region, answers, home, later, _, htakes, hstep⟩ := step_daemon hactor happ
  obtain ⟨hproject, hfenced⟩ := hdaemons id app happ
  obtain ⟨fence, hfence⟩ := Option.ne_none_iff_exists'.mp hfenced
  rw [hstep]
  refine ⟨htakes.of_along (I := fun h => Halts project_id base stopped h.files) hs
    (halts_region region hs hproject hfence), ?_⟩
  intro other app' hother
  have hnow : Function.update s.daemon id later other = some app' := hother
  by_cases hsame : other = id
  · rw [hsame, Function.update_self] at hnow
    have hkept := identity_of_takes htakes
    simp only [identity, Prod.mk.injEq] at hkept
    obtain ⟨_, hkept, hkeptFence⟩ := hkept
    rw [htakes.later app' hnow, hkept, hkeptFence]
    exact ⟨hproject, hfenced⟩
  · rw [Function.update_of_ne hsame] at hnow
    exact hdaemons other app' hnow

/-- **Every step of a project keeps a stop, but for a start.** -/
theorem halts_step (hs : Halts project_id base stopped s.files)
    (hdaemons : DaemonsOf project_id s.daemon) {step : Step} (hproject : step.OfProject project_id)
    (hstart : stopped → ¬ step.IsStart) :
    Halts project_id base stopped (s.step step).files ∧
      DaemonsOf project_id (s.step step).daemon := by
  cases hactor : step.actor with
  | some id =>
    cases happ : s.daemon id with
    | some app => exact halts_daemon hs hdaemons hactor happ
    | none =>
      rw [step_of_dead hactor happ]
      exact ⟨hs, hdaemons⟩
  | none =>
    cases step with
    | daemon other region answers => cases hactor
    | daemon_stops other region answers accesses => cases hactor
    | keeper keeper region answers =>
      exact ⟨Leaves.ends.of_along hs (halts_keeper_region region hs hproject), hdaemons⟩
    | keeper_stops keeper region answers accesses =>
      exact ⟨(Leaves.stops accesses).of_along hs (halts_keeper_region region hs hproject), hdaemons⟩
    | command context region answers =>
      refine ⟨Leaves.ends.of_along hs (halts_command_region region hs hproject ?_), hdaemons⟩
      rintro hstopped rfl
      exact hstart hstopped trivial
    | command_stops context region answers accesses =>
      refine ⟨(Leaves.stops accesses).of_along hs (halts_command_region region hs hproject ?_),
        hdaemons⟩
      rintro hstopped rfl
      exact hstart hstopped trivial

theorem halts_run (hs : Halts project_id base stopped s.files)
    (hdaemons : DaemonsOf project_id s.daemon) (steps : List Step)
    (hsteps : ∀ step ∈ steps, step.OfProject project_id ∧ (stopped → ¬ step.IsStart)) :
    Halts project_id base stopped (s.run steps).files ∧
      DaemonsOf project_id (s.run steps).daemon := by
  induction steps generalizing s with
  | nil => exact ⟨hs, hdaemons⟩
  | cons step steps ih =>
    obtain ⟨hproject, hstart⟩ := hsteps step List.mem_cons_self
    obtain ⟨hnext, hnextDaemons⟩ := halts_step hs hdaemons hproject hstart
    exact ih hnext hnextDaemons fun later hlater => hsteps later (List.mem_cons_of_mem _ hlater)

/-- **A stop lasts until the user starts the project.** -/
theorem stop_lasts (hs : s.OfProject project_id) (before later : List Step)
    (hbefore : ∀ step ∈ before, step.OfProject project_id)
    (hlater : ∀ step ∈ later, step.OfProject project_id ∧ ¬ step.IsStart)
    (hstopped : (s.run before).Stopped) :
    ((s.run before).run later).Stopped ∧
      (s.run before).MountsNothing ((s.run before).run later) := by
  have hinitial : Halts project_id none False s.files :=
    { project := hs.files
      found := False.elim
      desired := False.elim
      lease := False.elim }
  obtain ⟨hreached, hdaemons⟩ := halts_run hinitial hs.daemons before fun step hstep =>
    ⟨hbefore step hstep, False.elim⟩
  obtain ⟨lifecycle, hfound, hwant⟩ := hstopped
  have hhalted : Halts project_id (s.run before).files.lease True (s.run before).files := by
    refine { project := hreached.project, found := fun _ => ?_, desired := ?_, lease := ?_ }
    · rw [hfound]
      exact Option.some_ne_none _
    · intro _ current hcurrent
      rw [← Option.some.inj (hfound.symm.trans hcurrent)]
      exact hwant
    · exact fun _ lease hlease hmounted => ⟨lease, hlease, hmounted, rfl, rfl⟩
  obtain ⟨hend, _⟩ := halts_run hhalted hdaemons later fun step hstep =>
    ⟨(hlater step hstep).1, fun _ => (hlater step hstep).2⟩
  obtain ⟨current, hcurrent⟩ := Option.ne_none_iff_exists'.mp (hend.found trivial)
  exact ⟨⟨current, hcurrent, hend.desired trivial current hcurrent⟩, hend.lease trivial⟩

/-! A fenced daemon mounts, and a stop is asked for: neither the end of its bootstrap, nor the
keeper, nor the release of its lease starts the project again. -/

def exampleProject : System :=
  { files := { lease := none, lifecycle := none, written := [] }
    daemon := fun id =>
      if id = 2 then some (exampleDaemon 2 (some { startup_id := 7, generation := 1 })) else none }

def exampleCommand : CommandContext := { project_id := [112], socket_path := [115] }

def exampleStop : List Step :=
  [.command exampleCommand .record_running_intent (exampleAnswers 0),
    .keeper exampleKeeper (.spawn_daemon [99] 60) (exampleAnswers 1),
    .daemon 2 .claim_starting (exampleAnswers 2),
    .daemon 2 .publish_mounted (exampleAnswers 3),
    .daemon 2 (.mark_stopping [107]) (exampleAnswers 4)]

def exampleAfterStop : List Step :=
  [.daemon 2 .runtime_bootstrap_complete (exampleAnswers 5),
    .keeper exampleKeeper (.spawn_daemon [99] 60) (exampleAnswers 6),
    .daemon 2 (.release_backend_ownership .running) (exampleAnswers 7)]

theorem exampleProject_ofProject : exampleProject.OfProject [112] := by
  refine { files := { lifecycle := ?_, stopped := ?_ }, daemons := ?_ }
  · intro lease lifecycle hlease
    cases hlease
  · intro lifecycle hlifecycle
    cases hlifecycle
  · intro other app hother
    by_cases hsame : other = 2
    · subst hsame
      cases hother
      exact ⟨rfl, Option.some_ne_none _⟩
    · simp [exampleProject, hsame] at hother

theorem exampleStop_stopped : (exampleProject.run exampleStop).Stopped := by
  have hdesired : (exampleProject.run exampleStop).files.lifecycle.map
      CcbdLifecycle.desired_state = some .stopped := by decide
  rw [Option.map_eq_some_iff] at hdesired
  exact hdesired

theorem stop_lasts_released :
    ((exampleProject.run exampleStop).run exampleAfterStop).Stopped ∧
      (exampleProject.run exampleStop).MountsNothing
        ((exampleProject.run exampleStop).run exampleAfterStop) := by
  refine stop_lasts exampleProject_ofProject _ _ ?_ ?_ exampleStop_stopped
  · simp [exampleStop, Step.OfProject, exampleCommand, exampleKeeper]
  · simp [exampleAfterStop, Step.OfProject, Step.IsStart, exampleKeeper]

end ClaudeCodeBridge.Analysis.Ownership
