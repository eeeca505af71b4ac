import ClaudeCodeBridge.Model.ProjectKeepers
import ClaudeCodeBridge.Program.Frames

/-!
# One daemon at a time

A region writes the lease at most once, and what it writes there is its daemon's: either the
daemon holds the lease and keeps its generation, or it mounts with the generation that it has
claimed, which is above that of the lease (`Result`).  Since the lease is never taken away,
its generation only grows, and with it that of the leases that were written
(`Exclusive.ordered`).

The ladder: what a claim of a generation has checked (`verified_of_takeover`,
`claimed_of_expected`); what one region does, wherever it stops (`does_region`); one step
keeps `Exclusive` (`exclusive_step`); and so does every run, which gives that the lease is
exclusive (`lease_exclusive`).
-/

set_option autoImplicit false

namespace ClaudeCodeBridge.Analysis.Ownership

open Program
open Model.Ownership
open Prog

variable {answers : Answers} {app : DaemonApp}

theorem verified_of_takeover {lease : Option CcbdLease} {generation : ℕ}
    (h : verify_or_takeover answers app lease = .ok generation) :
    ∀ current, lease = some current → current.generation ≤ generation := by
  rintro current rfl
  unfold verify_or_takeover at h
  by_cases hforeign : current.project_id ≠ app.project_id ∧ current.mount_state = .unmounted
  · simp only [if_pos hforeign, Except.ok.injEq] at h
    omega
  · simp only [if_neg hforeign, bind_ok, refuseIf_ok] at h
    obtain ⟨_, _, h⟩ := h
    by_cases hholder : same_holder app current = true
    · simp only [if_pos hholder, pure_ok] at h
      omega
    · simp only [if_neg hholder] at h
      by_cases htakeover : (inspect answers (some current)).takeover_allowed = true
      · simp only [if_pos htakeover, pure_ok] at h
        omega
      · simp only [if_neg htakeover] at h
        cases h

theorem legacy_startup_generation_ge (lifecycle : CcbdLifecycle) (verified : ℕ) :
    verified ≤ legacy_startup_generation lifecycle verified := by
  unfold legacy_startup_generation
  split
  · exact Nat.le_max_left _ _
  · split
    · omega
    · exact le_refl _

/-- **A generation that may be claimed is that of the daemon's own lease, or above that of the
lease.** -/
theorem claimed_of_expected {lease : Option CcbdLease} {generation : ℕ} {u : Unit}
    (h : assert_expected_claim_allowed answers app generation lease = .ok u) :
    0 < generation ∧ ∀ current, lease = some current →
      current.daemon_instance_id = some app.daemon_instance_id ∧ current.generation = generation
        ∨ current.generation < generation := by
  unfold assert_expected_claim_allowed at h
  simp only [bind_ok, refuseIf_ok] at h
  obtain ⟨_, hpositive, h⟩ := h
  refine ⟨Nat.pos_of_ne_zero hpositive, ?_⟩
  rintro current rfl
  by_cases hsame : current.project_id = app.project_id ∧ current.generation = generation
      ∧ same_holder app current = true ∧ current.daemon_instance_id = some app.daemon_instance_id
  · exact Or.inl ⟨hsame.2.2.2, hsame.2.1⟩
  right
  simp only [if_neg hsame] at h
  by_cases hforeign : current.project_id ≠ app.project_id
  · rw [if_pos hforeign, refuseIf_ok, not_not] at h
    exact h.2
  · rw [if_neg hforeign] at h
    simp only [bind_ok, refuseIf_ok] at h
    obtain ⟨_, habove, _⟩ := h
    omega

/-- What a daemon is started with. -/
def identity (app : DaemonApp) : DaemonId × Text × Option ExpectedStartupFence :=
  (app.daemon_instance_id, app.project_id, app.expected_startup_fence)

structure Stays (before h : Home) : Prop where
  lease : h.files.lease = before.files.lease
  written : h.files.written = before.files.written
  claim : h.app.startup_generation = before.app.startup_generation
  identity : identity h.app = identity before.app

/-- A lease that a daemon may write: its own once more, or one of its generation above all. -/
def Admits (before : Home) (lease : CcbdLease) : Prop :=
  (∃ old, before.files.lease = some old ∧
      old.daemon_instance_id = some before.app.daemon_instance_id ∧
      lease.generation = old.generation) ∨
    before.app.startup_generation = some lease.generation ∧
      ∀ old, before.files.lease = some old → old.generation < lease.generation

structure Writes (before h : Home) (new : CcbdLease) : Prop where
  lease : h.files.lease = some new
  written : h.files.written = before.files.written ++ [(before.app.daemon_instance_id, new)]
  claim : h.app.startup_generation = before.app.startup_generation
  identity : identity h.app = identity before.app
  holder : new.daemon_instance_id = some before.app.daemon_instance_id
  admits : Admits before new

structure Claims (before h : Home) (generation : ℕ) : Prop where
  lease : h.files.lease = before.files.lease
  written : h.files.written = before.files.written
  claim : h.app.startup_generation = some generation
  identity : identity h.app = identity before.app
  above : ∀ old, before.files.lease = some old → old.generation ≤ generation

inductive Result (before h : Home) : Prop where
  | stays (h : Stays before h)
  | claims (generation : ℕ) (h : Claims before h generation)
  | writes (lease : CcbdLease) (h : Writes before h lease)

theorem stays_refl (h : Home) : Stays h h := ⟨rfl, rfl, rfl, rfl⟩

variable {before h h' : Home}

theorem Result.stay (hresult : Result before h) (hstays : Stays h h') : Result before h' := by
  cases hresult with
  | stays hbefore =>
    exact .stays
      { lease := hstays.lease.trans hbefore.lease
        written := hstays.written.trans hbefore.written
        claim := hstays.claim.trans hbefore.claim
        identity := hstays.identity.trans hbefore.identity }
  | claims generation hclaims =>
    exact .claims generation
      { lease := hstays.lease.trans hclaims.lease
        written := hstays.written.trans hclaims.written
        claim := hstays.claim.trans hclaims.claim
        identity := hstays.identity.trans hclaims.identity
        above := hclaims.above }
  | writes lease hwrites =>
    exact .writes lease
      { lease := hstays.lease.trans hwrites.lease
        written := hstays.written.trans hwrites.written
        claim := hstays.claim.trans hwrites.claim
        identity := hstays.identity.trans hwrites.identity
        holder := hwrites.holder
        admits := hwrites.admits }

/-- Every stop of a region has one of the results, and its end that of `Q`. -/
abbrev Does {α : Type} (before : Home) (call : DaemonCall α) (Q : α → Home → Prop) (h : Home) :
    Prop :=
  Along (fun _ _ => True) (Result before) call Q h

/-- An access that leaves lease and claim alone. -/
def Harmless (_ : PlaceName) (f : Home → Home) : Prop := ∀ h, Stays h (f h)

variable {α : Type}

theorem does_harmless {call : DaemonCall α} (hcall : call.Each Harmless)
    (hresult : Result before h) : Does before call (fun _ => Result before) h :=
  Along.of_each (fun _ _ hf s hs => hs.stay (hf s)) hcall hresult

def OnlyLifecycle (_ : PlaceName) (f : Home → Home) : Prop :=
  ∀ h, ∃ lifecycle, f h = { h with files := { h.files with lifecycle := lifecycle } }

theorem onlyLifecycle_id (l : PlaceName) : OnlyLifecycle l fun h => h :=
  fun h => ⟨h.files.lifecycle, rfl⟩

theorem each_save_lifecycle (lifecycle : CcbdLifecycle) :
    (save_lifecycle lifecycle).Each OnlyLifecycle := each_write fun _ => ⟨some lifecycle, rfl⟩

theorem each_load_lease : load_lease.Each OnlyLifecycle := each_read (onlyLifecycle_id _)

theorem each_load_lifecycle : load_lifecycle.Each OnlyLifecycle := each_read (onlyLifecycle_id _)

theorem each_this_app : this_app.Each OnlyLifecycle := each_read (onlyLifecycle_id _)

theorem harmless_of_lifecycle {call : DaemonCall α}
    (hcall : call.Each OnlyLifecycle) : call.Each Harmless := by
  refine Each.mono (fun _ f hf h => ?_) hcall
  obtain ⟨lifecycle, hsame⟩ := hf h
  rw [hsame]
  exact ⟨rfl, rfl, rfl, rfl⟩

theorem each_set_lease (lease : Option CcbdLease) : (set_lease lease).Each Harmless :=
  each_write fun _ => ⟨rfl, rfl, rfl, rfl⟩

theorem does_lifecycle {call : DaemonCall α} (hcall : call.Each OnlyLifecycle) :
    Does h call (fun _ => Result h) h :=
  does_harmless (harmless_of_lifecycle hcall) (.stays (stays_refl h))

theorem each_update_startup_progress (stage : StartupStage) :
    (update_startup_progress stage).Each OnlyLifecycle := by
  refine Each.bind each_this_app fun app => ?_
  refine Each.bind each_load_lifecycle fun found => ?_
  exact Each.bind (each_ofExcept _) fun lifecycle => each_save_lifecycle _

theorem each_mark_runtime_bootstrap_complete :
    (mark_runtime_bootstrap_complete answers).Each OnlyLifecycle := by
  refine Each.bind each_this_app fun app => ?_
  refine Each.bind (each_ofExcept _) fun _ => ?_
  refine Each.bind each_load_lifecycle fun found => ?_
  refine Each.bind each_load_lease fun lease => ?_
  exact Each.bind (each_ofExcept _) fun lifecycle => each_save_lifecycle _

theorem each_mark_lifecycle_failed (failure_reason : Text) :
    (mark_lifecycle_failed failure_reason).Each OnlyLifecycle := by
  refine Each.bind each_this_app fun app => ?_
  refine Each.bind each_load_lifecycle fun found => ?_
  cases found with
  | none => trivial
  | some lifecycle =>
    refine Each.bind each_load_lease fun lease => ?_
    exact Each.ite (each_save_lifecycle _) trivial

theorem each_mark_lifecycle_stopping (shutdown_intent : Text) :
    (mark_lifecycle_stopping shutdown_intent).Each OnlyLifecycle := by
  refine Each.bind each_this_app fun app => ?_
  exact Each.bind each_load_lifecycle fun found => each_save_lifecycle _

theorem each_update_lifecycle_signature (config_signature : Text) (expected_generation : ℕ) :
    (update_mounted_lifecycle_config_signature answers config_signature expected_generation).Each
      OnlyLifecycle := by
  refine Each.bind each_this_app fun app => ?_
  refine Each.bind each_load_lifecycle fun found => ?_
  refine Each.bind (each_ofExcept _) fun lifecycle => ?_
  exact Each.bind (each_ofExcept _) fun _ => each_save_lifecycle _

theorem each_sync_lifecycle_namespace_epoch (epoch : ℕ) :
    (sync_lifecycle_namespace_epoch epoch).Each OnlyLifecycle := by
  refine Each.bind each_load_lifecycle fun found => ?_
  cases found with
  | none => trivial
  | some lifecycle =>
    refine Each.bind each_load_lease fun lease => ?_
    exact Each.ite (each_save_lifecycle _) trivial

theorem each_record_heartbeat_failures (failures : Option Text) :
    (record_heartbeat_failures failures).Each OnlyLifecycle := by
  refine Each.bind each_load_lifecycle fun found => ?_
  cases found with
  | none => trivial
  | some lifecycle => exact Each.ite (each_save_lifecycle _) trivial

theorem each_mark_lifecycle_unmounted (desired_state : DesiredState) :
    (mark_lifecycle_unmounted desired_state).Each OnlyLifecycle := by
  refine Each.bind each_this_app fun app => ?_
  refine Each.bind each_load_lifecycle fun found => ?_
  exact Each.ite trivial (Each.ite trivial (each_save_lifecycle _))

theorem each_startup_generation_of : (startup_generation_of answers).Each OnlyLifecycle := by
  refine Each.bind each_this_app fun app => ?_
  cases app.expected_startup_fence with
  | none =>
    refine Each.bind each_load_lifecycle fun found => Each.bind (each_ofExcept _) fun _ => ?_
    refine Each.bind each_load_lease fun lease => Each.bind (each_ofExcept _) fun _ => ?_
    exact Each.bind (each_ofExcept _) fun _ => trivial
  | some fence =>
    refine Each.bind each_load_lifecycle fun found => Each.bind (each_ofExcept _) fun _ => ?_
    refine Each.bind (each_ofExcept _) fun _ => Each.bind each_load_lease fun lease => ?_
    exact Each.bind (each_ofExcept _) fun _ => trivial

variable {lease : CcbdLease}

theorem does_save_lease {rest : Unit → DaemonCall α}
    (hholder : lease.daemon_instance_id = some h.app.daemon_instance_id)
    (hadmits : Admits h lease) (hrest : (rest ()).Each Harmless) :
    Does h ((save_lease lease).bind rest) (fun _ => Result h) h := by
  have hwrites : Result h { h with files := { h.files with
      lease := some lease
      written := h.files.written ++ [(h.app.daemon_instance_id, lease)] } } :=
    .writes lease
      { lease := rfl
        written := rfl
        claim := rfl
        identity := rfl
        holder := hholder
        admits := hadmits }
  exact fun _ => ⟨hwrites, does_harmless hrest hwrites⟩

theorem does_startup_generation_of :
    Does h (startup_generation_of answers) (fun claim h' => h' = h ∧
      ∀ old, h.files.lease = some old → old.generation ≤ claim.2) h := by
  have hnow : Result h h := .stays (stays_refl h)
  refine along_read_bind hnow ?_
  cases hfence : h.app.expected_startup_fence with
  | none =>
    simp only
    refine along_read_bind hnow (along_ofExcept_bind fun _ _ => along_read_bind hnow ?_)
    refine along_ofExcept_bind fun verified hverified => along_ofExcept_bind fun _ _ => ?_
    refine ⟨rfl, fun old hold => ?_⟩
    exact le_trans (verified_of_takeover hverified old hold) (legacy_startup_generation_ge _ _)
  | some fence =>
    simp only
    refine along_read_bind hnow (along_ofExcept_bind fun lifecycle _ => ?_)
    refine along_ofExcept_bind fun _ _ => along_read_bind hnow ?_
    refine along_ofExcept_bind fun _ hallowed => ⟨rfl, fun old hold => ?_⟩
    rcases (claimed_of_expected hallowed).2 old hold with hsame | hbelow
    · exact le_of_eq hsame.2
    · exact le_of_lt hbelow

theorem does_claim_starting : Does h (claim_starting answers) (fun _ => Result h) h := by
  refine Along.bind (Along.mono does_startup_generation_of fun claim h' hclaim => ?_)
  obtain ⟨rfl, habove⟩ := hclaim
  have hnow : Result h' h' := .stays (stays_refl h')
  refine along_ofExcept_bind fun _ _ => along_read_bind hnow ?_
  refine Along.bind ?_
  have hsaved : Stays h' { h' with files := { h'.files with
      lifecycle := some (starting_owner_claim h'.app claim.1 claim.2) } } := ⟨rfl, rfl, rfl, rfl⟩
  refine fun _ => ⟨.stays hsaved, fun _ => ?_⟩
  have hclaims : Result h' { h' with
      files := { h'.files with
        lifecycle := some (starting_owner_claim h'.app claim.1 claim.2) }
      app := { h'.app with startup_generation := some claim.2 } } :=
    .claims claim.2
      { lease := rfl
        written := rfl
        claim := rfl
        identity := rfl
        above := habove }
  exact ⟨hclaims, hclaims⟩

/-- **A daemon mounts with the generation that it has claimed, above that of the lease or on
its own lease.** -/
theorem does_publish_mounted :
    Does h (publish_mounted_after_bootstrap_probe answers) (fun _ => Result h) h := by
  have hnow : Result h h := .stays (stays_refl h)
  refine along_read_bind hnow (along_ofExcept_bind fun _ hpositive => along_read_bind hnow ?_)
  refine along_ofExcept_bind fun _ _ => along_read_bind hnow ?_
  refine along_ofExcept_bind fun _ hallowed => along_ofExcept_bind fun lifecycle _ => ?_
  have hclaimed : h.app.startup_generation = some (h.app.startup_generation.getD 0) := by
    cases hclaim : h.app.startup_generation with
    | none => simp [hclaim] at hpositive
    | some generation => rfl
  have hadmits : Admits h (mounted_lease answers h.app (h.app.startup_generation.getD 0)) := by
    by_cases hown : ∃ old, h.files.lease = some old ∧
        old.daemon_instance_id = some h.app.daemon_instance_id ∧
        old.generation = h.app.startup_generation.getD 0
    · obtain ⟨old, hold, hholder, hsame⟩ := hown
      exact Or.inl ⟨old, hold, hholder, hsame.symm⟩
    · refine Or.inr ⟨hclaimed, fun old hold => ?_⟩
      rcases (claimed_of_expected hallowed).2 old hold with hsame | hbelow
      · exact absurd ⟨old, hold, hsame⟩ hown
      · exact hbelow
  refine does_save_lease rfl hadmits ?_
  exact Each.bind (harmless_of_lifecycle (each_save_lifecycle _)) fun _ => each_set_lease _

theorem holder_of_expected {u : Unit} (hholder : assert_expected_holder app lease = .ok u) :
    lease.daemon_instance_id = some app.daemon_instance_id := by
  simp only [assert_expected_holder, bind_ok, refuseIf_ok, not_not] at hholder
  obtain ⟨_, _, hid⟩ := hholder
  exact hid

theorem admits_own {new : CcbdLease} (hlease : h.files.lease = some lease)
    (hholder : lease.daemon_instance_id = some h.app.daemon_instance_id)
    (hgeneration : new.generation = lease.generation) : Admits h new :=
  Or.inl ⟨lease, hlease, hholder, hgeneration⟩

theorem does_refresh_heartbeat : Does h (refresh_heartbeat answers) (fun _ => Result h) h := by
  have hnow : Result h h := .stays (stays_refl h)
  refine along_read_bind hnow (along_read_bind hnow ?_)
  refine along_ofExcept_bind fun lease hlease => ?_
  rw [valueOr_ok] at hlease
  by_cases hmounted : lease.mount_state ≠ .mounted
  · rw [if_pos hmounted]
    exact hnow
  rw [if_neg hmounted]
  refine along_ofExcept_bind fun _ hchecked => ?_
  have hholder := holder_of_expected hchecked
  by_cases hdue : heartbeat_write_due answers lease = true
  · rw [if_pos hdue]
    exact does_save_lease hholder (admits_own hlease hholder rfl) trivial
  · rw [if_neg hdue]
    exact hnow

theorem does_heartbeat (failures : Option Text) :
    Does h (heartbeat answers failures) (fun _ => Result h) h := by
  have hnow : Result h h := .stays (stays_refl h)
  refine along_read_bind hnow (along_read_bind hnow ?_)
  split
  · exact hnow
  refine along_read_bind hnow (along_ofExcept_bind fun _ _ => ?_)
  refine Along.bind (Along.mono does_refresh_heartbeat fun lease h' hresult => ?_)
  refine does_harmless ?_ hresult
  exact Each.bind (each_set_lease _) fun _ =>
    harmless_of_lifecycle (each_record_heartbeat_failures failures)

theorem does_update_lease_signature (config_signature : Text) (expected_generation : ℕ) :
    Does h (update_current_lease_config_signature answers config_signature expected_generation)
      (fun _ => Result h) h := by
  have hnow : Result h h := .stays (stays_refl h)
  refine along_read_bind hnow (along_read_bind hnow ?_)
  refine along_ofExcept_bind fun lease hlease => along_ofExcept_bind fun _ _ => ?_
  rw [valueOr_ok] at hlease
  refine along_ofExcept_bind fun _ hchecked => along_ofExcept_bind fun _ _ => ?_
  refine along_ofExcept_bind fun _ _ => ?_
  have hholder := holder_of_expected hchecked
  exact does_save_lease (α := Unit) hholder (admits_own hlease hholder rfl) trivial

theorem does_mark_current_daemon_unmounted :
    Does h (mark_current_daemon_unmounted answers) (fun _ => Result h) h := by
  have hnow : Result h h := .stays (stays_refl h)
  refine along_read_bind hnow (along_read_bind hnow ?_)
  cases hlease : h.files.lease with
  | none => exact hnow
  | some lease =>
    simp only
    cases hchecked : assert_expected_holder h.app lease with
    | error e => exact hnow
    | ok u =>
      have hholder := holder_of_expected hchecked
      exact does_save_lease hholder (admits_own hlease hholder rfl) trivial

theorem does_release_backend_ownership (desired_state : DesiredState) :
    Does h (release_backend_ownership answers desired_state) (fun _ => Result h) h := by
  have hnow : Result h h := .stays (stays_refl h)
  refine along_read_bind hnow ?_
  refine Along.bind (Along.mono does_mark_current_daemon_unmounted fun lease h' hresult => ?_)
  refine does_harmless ?_ hresult
  refine Each.bind (harmless_of_lifecycle each_load_lease) fun current => ?_
  refine Each.bind (harmless_of_lifecycle each_load_lifecycle) fun found => ?_
  refine Each.ite (Each.bind ?_ fun _ => each_set_lease _) (each_set_lease _)
  exact harmless_of_lifecycle (each_mark_lifecycle_unmounted _)

theorem does_region (region : DaemonRegion) :
    Does h (region.call answers) (fun _ => Result h) h := by
  cases region with
  | claim_starting => exact does_claim_starting
  | update_startup_progress stage => exact does_lifecycle (each_update_startup_progress stage)
  | publish_mounted => exact does_publish_mounted
  | runtime_bootstrap_complete => exact does_lifecycle each_mark_runtime_bootstrap_complete
  | mark_failed failure_reason => exact does_lifecycle (each_mark_lifecycle_failed failure_reason)
  | mark_stopping shutdown_intent =>
    exact does_lifecycle (each_mark_lifecycle_stopping shutdown_intent)
  | heartbeat failures => exact does_heartbeat failures
  | release_backend_ownership desired_state => exact does_release_backend_ownership desired_state
  | update_lease_signature config_signature expected_generation =>
    exact does_update_lease_signature config_signature expected_generation
  | update_lifecycle_signature config_signature expected_generation =>
    exact does_lifecycle (each_update_lifecycle_signature config_signature expected_generation)
  | sync_namespace_epoch epoch => exact does_lifecycle (each_sync_lifecycle_namespace_epoch epoch)

/-- What holds of the files and the daemons at any time. -/
structure Exclusive (s : System) : Prop where
  ids : ∀ id app, s.daemon id = some app → app.daemon_instance_id = id
  ordered : s.files.written.Pairwise fun x y =>
    x.2.generation ≤ y.2.generation ∧ (x.1 ≠ y.1 → x.2.generation < y.2.generation)
  last : ∀ entry ∈ s.files.written, ∃ lease, s.files.lease = some lease ∧
    entry.2.generation ≤ lease.generation ∧
    (entry.2.generation = lease.generation → lease.daemon_instance_id = some entry.1)
  own : ∀ id app lease, s.daemon id = some app → s.files.lease = some lease →
    lease.daemon_instance_id = some id →
      ∃ claimed, app.startup_generation = some claimed ∧ lease.generation ≤ claimed

variable {s : System} {id : DaemonId}

theorem admitted_above (hs : Exclusive s) {app : DaemonApp} {new : CcbdLease}
    (happ : app.daemon_instance_id = id) (hadmits : Admits { files := s.files, app := app } new) :
    ∀ entry ∈ s.files.written, entry.2.generation ≤ new.generation ∧
      (entry.1 ≠ id → entry.2.generation < new.generation) := by
  intro entry hentry
  obtain ⟨lease, hlease, hbelow, hholder⟩ := hs.last entry hentry
  rcases hadmits with ⟨old, hold, hown, hsame⟩ | ⟨_, habove⟩
  · have heq : lease = old := Option.some.inj (hlease.symm.trans hold)
    subst heq
    rw [happ] at hown
    refine ⟨by omega, fun hne => ?_⟩
    have hdiffers : entry.2.generation ≠ lease.generation := by
      intro hequal
      have hsome := (hholder hequal).symm.trans hown
      exact hne (Option.some.inj hsome)
    omega
  · have hlower := habove lease hlease
    exact ⟨by omega, fun _ => by omega⟩

variable {home : Home}

theorem exclusive_result (hs : Exclusive s) {app : DaemonApp} (happ : s.daemon id = some app)
    (hresult : Result { files := s.files, app := app } home)
    {later : Option DaemonApp} (hlater : ∀ app', later = some app' → app' = home.app) :
    Exclusive { files := home.files, daemon := Function.update s.daemon id later } := by
  have hid : app.daemon_instance_id = id := hs.ids id app happ
  have hids : home.app.daemon_instance_id = id → ∀ other app',
      Function.update s.daemon id later other = some app' → app'.daemon_instance_id = other := by
    intro hhome other app' hother
    by_cases hsame : other = id
    · subst hsame
      rw [Function.update_self] at hother
      rw [hlater app' hother, hhome]
    · rw [Function.update_of_ne hsame] at hother
      exact hs.ids other app' hother
  -- the others keep their claims, and the daemon has the one that it had or has made
  have hown : ∀ lease, home.files.lease = some lease →
      (lease.daemon_instance_id = some id → ∃ claimed,
        home.app.startup_generation = some claimed ∧ lease.generation ≤ claimed) →
      (∀ other, other ≠ id → lease.daemon_instance_id = some other → s.files.lease = some lease) →
      ∀ other app', Function.update s.daemon id later other = some app' →
        lease.daemon_instance_id = some other →
          ∃ claimed, app'.startup_generation = some claimed ∧ lease.generation ≤ claimed := by
    intro lease _ hmine hothers other app' hother hholder
    by_cases hsame : other = id
    · subst hsame
      rw [Function.update_self] at hother
      rw [hlater app' hother]
      exact hmine hholder
    · rw [Function.update_of_ne hsame] at hother
      exact hs.own other app' lease hother (hothers other hsame hholder) hholder
  cases hresult with
  | stays hstays =>
    refine { ids := hids ((congrArg Prod.fst hstays.identity).trans hid), ordered := ?_, last := ?_
             own := ?_ }
    · rw [hstays.written]
      exact hs.ordered
    · rw [hstays.written, hstays.lease]
      exact hs.last
    · intro other app' lease hother hlease hholder
      have hbefore : s.files.lease = some lease := hstays.lease.symm.trans hlease
      refine hown lease hlease (fun hmine => ?_) (fun _ _ _ => hbefore) other app' hother hholder
      rw [hstays.claim]
      exact hs.own id app lease happ hbefore hmine
  | claims generation hclaims =>
    refine { ids := hids ((congrArg Prod.fst hclaims.identity).trans hid), ordered := ?_, last := ?_
             own := ?_ }
    · rw [hclaims.written]
      exact hs.ordered
    · rw [hclaims.written, hclaims.lease]
      exact hs.last
    · intro other app' lease hother hlease hholder
      have hbefore : s.files.lease = some lease := hclaims.lease.symm.trans hlease
      refine hown lease hlease (fun _ => ?_) (fun _ _ _ => hbefore) other app' hother hholder
      exact ⟨generation, hclaims.claim, hclaims.above lease hbefore⟩
  | writes new hwrites =>
    have habove := admitted_above hs hid hwrites.admits
    have hwritten : home.files.written = s.files.written ++ [(id, new)] := by
      rw [hwrites.written, hid]
    have hholder : new.daemon_instance_id = some id := by rw [hwrites.holder, hid]
    refine { ids := hids ((congrArg Prod.fst hwrites.identity).trans hid), ordered := ?_, last := ?_
             own := ?_ }
    · rw [hwritten, List.pairwise_append]
      refine ⟨hs.ordered, List.pairwise_singleton _ _, fun x hx y hy => ?_⟩
      rw [List.mem_singleton] at hy
      rw [hy]
      exact habove x hx
    · intro entry hentry
      refine ⟨new, hwrites.lease, ?_⟩
      rw [hwritten, List.mem_append, List.mem_singleton] at hentry
      rcases hentry with hentry | rfl
      · refine ⟨(habove entry hentry).1, fun hequal => ?_⟩
        have hsame : entry.1 = id := by
          by_contra hne
          have hlower := (habove entry hentry).2 hne
          omega
        rw [hholder, hsame]
      · exact ⟨le_refl _, fun _ => hholder⟩
    · intro other app' lease hother hlease hheld
      have hnew : lease = new := Option.some.inj (hlease.symm.trans hwrites.lease)
      subst hnew
      refine hown lease hlease (fun _ => ?_) (fun other hne hheld => ?_) other app' hother hheld
      · rw [hwrites.claim]
        rcases hwrites.admits with ⟨old, hold, hmine, hsame⟩ | ⟨hclaim, _⟩
        · rw [hid] at hmine
          obtain ⟨claimed, hclaimed, hbelow⟩ := hs.own id app old happ hold hmine
          exact ⟨claimed, hclaimed, by omega⟩
        · exact ⟨_, hclaim, le_refl _⟩
      · rw [hholder] at hheld
        exact absurd (Option.some.inj hheld).symm hne

def held (lease : CcbdLease) : ℕ × Option DaemonId × ℕ :=
  (lease.generation, lease.daemon_instance_id, lease.ccbd_pid)

variable {files : Files}

theorem held_back {files' : Files} (hlease : files'.lease.map held = files.lease.map held)
    (hnow : files'.lease = some lease) : ∃ old, files.lease = some old ∧
      old.generation = lease.generation ∧ old.daemon_instance_id = lease.daemon_instance_id ∧
      old.ccbd_pid = lease.ccbd_pid := by
  rw [hnow, Option.map_some, eq_comm, Option.map_eq_some_iff] at hlease
  obtain ⟨old, hold, hsame⟩ := hlease
  simp only [held, Prod.mk.injEq] at hsame
  exact ⟨old, hold, hsame⟩

/-- An access of a keeper or of a command leaves the lease to its holder. -/
def KeepsHolder (_ : PlaceName) (f : Files → Files) : Prop :=
  ∀ w, (f w).written = w.written ∧ (f w).lease.map held = w.lease.map held

theorem keepsHolder_id (l : PlaceName) : KeepsHolder l fun w => w := fun _ => ⟨rfl, rfl⟩

theorem each_lease_file : lease_file.Each KeepsHolder := each_read (keepsHolder_id _)

theorem each_lifecycle_file : lifecycle_file.Each KeepsHolder := each_read (keepsHolder_id _)

theorem each_save_lifecycle_file (lifecycle : CcbdLifecycle) :
    (save_lifecycle_file lifecycle).Each KeepsHolder := each_write fun _ => ⟨rfl, rfl⟩

theorem each_reconcile (project_id socket_path : Text) (config_signature : Option Text)
    (keeper_pid : Option ℕ) (lifecycle : Option CcbdLifecycle) (inspection : LeaseInspection) :
    (reconcile_runtime_project_identity answers project_id socket_path config_signature keeper_pid
      lifecycle inspection).Each KeepsHolder := by
  refine Each.ite trivial ?_
  cases inspection.lease with
  | none => trivial
  | some lease =>
    refine Each.ite trivial (Each.ite trivial ?_)
    refine Each.bind (each_ofExcept _) fun _ => Each.bind (each_write fun w => ?_) fun _ => trivial
    refine ⟨rfl, ?_⟩
    cases w.lease with
    | none => rfl
    | some lease => rfl

theorem each_keeper_region {keeper : ProjectKeeper} (region : KeeperRegion) :
    (region.call answers keeper).Each KeepsHolder := by
  cases region with
  | spawn_daemon config_signature start_timeout =>
    refine Each.bind ?_ fun _ => trivial
    refine Each.bind each_lease_file fun lease => Each.bind each_lifecycle_file fun found => ?_
    exact Each.ite trivial (Each.bind (each_save_lifecycle_file _) fun _ => trivial)
  | record_daemon_start_success starting config_signature =>
    refine Each.bind each_lifecycle_file fun found => ?_
    cases found with
    | none => trivial
    | some current =>
      refine Each.bind each_lease_file fun lease => ?_
      exact Each.ite trivial (each_save_lifecycle_file _)
  | record_daemon_start_failure starting desired_state failure_reason =>
    refine Each.bind each_lifecycle_file fun found => ?_
    cases found with
    | none => trivial
    | some current => exact Each.ite (each_save_lifecycle_file _) trivial
  | ensure_project_lifecycle config_signature =>
    refine Each.bind each_lifecycle_file fun found => Each.bind each_lease_file fun lease => ?_
    refine Each.bind (each_reconcile _ _ _ _ _ _) fun result => ?_
    cases hlifecycle : result.1 with
    | none =>
      simp only [hlifecycle]
      exact each_save_lifecycle_file _
    | some lifecycle =>
      simp only [hlifecycle]
      exact Each.ite (each_save_lifecycle_file _) (Each.ite trivial (each_save_lifecycle_file _))
  | record_connectable_mounted observed =>
    refine Each.bind each_lifecycle_file fun found => Each.bind each_lease_file fun lease => ?_
    cases found with
    | none => trivial
    | some lifecycle =>
      cases lease with
      | none => trivial
      | some lease => exact Each.ite trivial (each_save_lifecycle_file _)
  | record_connectable_restart observed =>
    refine Each.bind each_lifecycle_file fun found => ?_
    cases found with
    | none => trivial
    | some lifecycle =>
      refine Each.bind each_lease_file fun lease => ?_
      exact Each.ite trivial (each_save_lifecycle_file _)
  | record_connectable_observation_failure observed failure_reason =>
    refine Each.bind each_lifecycle_file fun found => ?_
    cases found with
    | none => trivial
    | some current =>
      refine Each.bind each_lease_file fun lease => Each.ite trivial ?_
      cases (inspect answers lease).lease with
      | none => exact Each.ite trivial (each_save_lifecycle_file _)
      | some lease =>
        refine Each.ite (Each.ite trivial (each_save_lifecycle_file _)) ?_
        exact Each.ite trivial (each_save_lifecycle_file _)

theorem each_command_region {context : CommandContext} (region : CommandRegion) :
    (region.call answers context).Each KeepsHolder := by
  cases region with
  | record_running_intent =>
    refine Each.bind each_lifecycle_file fun found => Each.bind each_lease_file fun lease => ?_
    refine Each.bind (each_reconcile _ _ _ _ _ _) fun result => ?_
    refine Each.bind each_lease_file fun lease => ?_
    exact Each.ite trivial (each_save_lifecycle_file _)
  | record_shutdown_intent config_signature reason =>
    refine Each.bind each_lifecycle_file fun found => Each.bind each_lease_file fun lease => ?_
    exact each_save_lifecycle_file _
  | finalize_shutdown_lifecycle config_signature intent =>
    refine Each.bind each_lifecycle_file fun found => Each.ite trivial ?_
    exact Each.bind each_lease_file fun lease => each_save_lifecycle_file _

inductive Leaves (call : KeeperCall Unit) (before : Files) : Files → Prop where
  | ends : Leaves call before (call.run before).2
  | stops (accesses : ℕ) : Leaves call before (stopAfter accesses call before)

theorem Leaves.of_along {call : KeeperCall Unit} {before : Files} {I : Files → Prop}
    (hleaves : Leaves call before files) (hbefore : I before)
    (halong : Along (fun _ _ => True) I call (fun _ => I) before) : I files := by
  cases hleaves with
  | ends => exact (halong.run hbefore).1
  | stops accesses => exact halong.stopAfter hbefore accesses fun _ _ => trivial

/-- A region that is no daemon's, and the `startup_id` that it draws. -/
inductive Outside : KeeperCall Unit → Option StartupId → Prop where
  | keeper (keeper : ProjectKeeper) (region : KeeperRegion) (answers : Answers) :
      Outside (region.call answers keeper) (region.draws answers)
  | command (context : CommandContext) (region : CommandRegion) (answers : Answers) :
      Outside (region.call answers context) none

variable {draws : Option StartupId}

theorem Outside.each {call : KeeperCall Unit} (hcall : Outside call draws) :
    call.Each KeepsHolder := by
  cases hcall with
  | keeper keeper region answers => exact each_keeper_region region
  | command context region answers => exact each_command_region region

theorem step_outside {step : Step} (hactor : step.actor = none) :
    ∃ call files, Outside call step.draws ∧ Leaves call s.files files ∧
      s.step step = { s with files := files } := by
  cases step with
  | daemon other region answers => cases hactor
  | daemon_stops other region answers accesses => cases hactor
  | keeper keeper region answers => exact ⟨_, _, .keeper keeper region answers, .ends, rfl⟩
  | keeper_stops keeper region answers accesses =>
    exact ⟨_, _, .keeper keeper region answers, .stops accesses, rfl⟩
  | command context region answers => exact ⟨_, _, .command context region answers, .ends, rfl⟩
  | command_stops context region answers accesses =>
    exact ⟨_, _, .command context region answers, .stops accesses, rfl⟩

theorem holder_kept {call : KeeperCall Unit} (hcall : Outside call draws)
    (hleaves : Leaves call s.files files) :
    files.written = s.files.written ∧ files.lease.map held = s.files.lease.map held := by
  have halong := Along.of_each (I := fun w : Files => w.written = s.files.written ∧
    w.lease.map held = s.files.lease.map held)
    (fun _ _ hf w hw => ⟨(hf w).1.trans hw.1, (hf w).2.trans hw.2⟩) hcall.each ⟨rfl, rfl⟩
  exact hleaves.of_along ⟨rfl, rfl⟩ halong

theorem exclusive_of_same (hs : Exclusive s)
    (hlease : files.lease.map held = s.files.lease.map held)
    (hwritten : files.written = s.files.written) : Exclusive { s with files := files } := by
  refine { ids := hs.ids, ordered := hwritten ▸ hs.ordered, last := ?_, own := ?_ }
  · intro entry hentry
    rw [hwritten] at hentry
    obtain ⟨old, hold, hbelow, hholder⟩ := hs.last entry hentry
    obtain ⟨lease, hnow, hgeneration, hsame, _⟩ := held_back hlease.symm hold
    refine ⟨lease, hnow, by omega, fun hequal => ?_⟩
    rw [hsame]
    exact hholder (by omega)
  · intro other app lease hother hnow hholder
    obtain ⟨old, hold, hgeneration, hsame, _⟩ := held_back hlease hnow
    obtain ⟨claimed, hclaimed, hbelow⟩ := hs.own other app old hother hold (hsame.trans hholder)
    exact ⟨claimed, hclaimed, by omega⟩

inductive Takes (call : DaemonCall Unit) (before : Home) : Home → Option DaemonApp → Prop where
  | ends : Takes call before (call.run before).2 (some (call.run before).2.app)
  | stops (accesses : ℕ) : Takes call before (stopAfter accesses call before) none

theorem Takes.later {call : DaemonCall Unit} {before : Home} {later : Option DaemonApp}
    (htakes : Takes call before home later) : ∀ app, later = some app → app = home.app := by
  intro app hlater
  cases htakes with
  | ends => exact (Option.some.inj hlater).symm
  | stops accesses => cases hlater

theorem Takes.of_along {call : DaemonCall Unit} {before : Home} {later : Option DaemonApp}
    {I : Home → Prop} (htakes : Takes call before home later) (hbefore : I before)
    (halong : Along (fun _ _ => True) I call (fun _ => I) before) : I home := by
  cases htakes with
  | ends => exact (halong.run hbefore).1
  | stops accesses => exact halong.stopAfter hbefore accesses fun _ _ => trivial

theorem step_daemon {step : Step} (hactor : step.actor = some id) {app : DaemonApp}
    (happ : s.daemon id = some app) :
    ∃ region answers home later, step.region = some region ∧
      Takes (region.call answers) { files := s.files, app := app } home later ∧
      s.step step = { files := home.files, daemon := Function.update s.daemon id later } := by
  cases step with
  | daemon other region answers =>
    rw [Step.actor, Option.some.injEq] at hactor
    subst hactor
    refine ⟨region, answers, _, _, rfl, .ends, ?_⟩
    simp only [System.step, happ]
  | daemon_stops other region answers accesses =>
    rw [Step.actor, Option.some.injEq] at hactor
    subst hactor
    refine ⟨region, answers, _, _, rfl, .stops accesses, ?_⟩
    simp only [System.step, happ]
  | keeper _ _ _ | keeper_stops _ _ _ _ | command _ _ _ | command_stops _ _ _ _ => cases hactor

theorem result_of_takes {region : DaemonRegion} {before : Home} {later : Option DaemonApp}
    (htakes : Takes (region.call answers) before home later) : Result before home :=
  htakes.of_along (.stays (stays_refl before)) (does_region region)

theorem identity_of_takes {region : DaemonRegion} {before home : Home} {later : Option DaemonApp}
    (htakes : Takes (region.call answers) before home later) :
    identity home.app = identity before.app := by
  cases result_of_takes htakes with
  | stays hstays => exact hstays.identity
  | claims generation hclaims => exact hclaims.identity
  | writes lease hwrites => exact hwrites.identity

theorem step_of_dead {step : Step} (hactor : step.actor = some id) (hdead : s.daemon id = none) :
    s.step step = s := by
  cases step with
  | daemon other region answers | daemon_stops other region answers accesses =>
    rw [Step.actor, Option.some.injEq] at hactor
    rw [← hactor] at hdead
    simp only [System.step, hdead]
  | keeper _ _ _ | keeper_stops _ _ _ _ | command _ _ _ | command_stops _ _ _ _ => cases hactor

theorem exclusive_step (hs : Exclusive s) (step : Step) : Exclusive (s.step step) := by
  cases hactor : step.actor with
  | some id =>
    cases happ : s.daemon id with
    | some app =>
      obtain ⟨_, _, home, later, _, htakes, hstep⟩ := step_daemon hactor happ
      rw [hstep]
      exact exclusive_result hs happ (result_of_takes htakes) htakes.later
    | none =>
      rw [step_of_dead hactor happ]
      exact hs
  | none =>
    obtain ⟨call, files, hcall, hleaves, hstep⟩ := step_outside (s := s) hactor
    obtain ⟨hwritten, hlease⟩ := holder_kept hcall hleaves
    rw [hstep]
    exact exclusive_of_same hs hlease hwritten

theorem exclusive_run (hs : Exclusive s) (steps : List Step) : Exclusive (s.run steps) := by
  induction steps generalizing s with
  | nil => exact hs
  | cons step steps ih => exact ih (exclusive_step hs step)

theorem exclusive_of_fresh (hs : s.Fresh) : Exclusive s :=
  { ids := fun other app hother => (hs.ids other app hother).1
    ordered := by
      rw [hs.written]
      exact List.Pairwise.nil
    last := by
      rw [hs.written]
      exact fun entry hentry => absurd hentry List.not_mem_nil
    own := fun other app lease hother hlease hholder =>
      absurd hholder (hs.lease other app lease hother hlease) }

theorem silent_of_older (hs : Exclusive s) {app : DaemonApp} (happ : s.daemon id = some app)
    {entry : DaemonId × CcbdLease} (hentry : entry ∈ s.files.written)
    (holder : app.startup_generation.getD 0 < entry.2.generation)
    (hresult : Result { files := s.files, app := app } home) :
    home.files.lease = s.files.lease ∧ home.files.written = s.files.written := by
  cases hresult with
  | stays hstays => exact ⟨hstays.lease, hstays.written⟩
  | claims generation hclaims => exact ⟨hclaims.lease, hclaims.written⟩
  | writes new hwrites =>
    exfalso
    obtain ⟨lease, hlease, hbelow, _⟩ := hs.last entry hentry
    rcases hwrites.admits with ⟨old, hold, hmine, _⟩ | ⟨hclaim, habove⟩
    · rw [hs.ids id app happ] at hmine
      obtain ⟨claimed, hclaimed, hlower⟩ := hs.own id app old happ hold hmine
      have hsame : lease = old := Option.some.inj (hlease.symm.trans hold)
      rw [hclaimed, Option.getD_some] at holder
      subst hsame
      omega
    · have hlower := habove lease hlease
      have hclaim' : app.startup_generation = some new.generation := hclaim
      rw [hclaim', Option.getD_some] at holder
      omega

/-- **The lease is exclusive after every run of keepers and daemons**, whatever the environment
answers and wherever processes stop. -/
theorem lease_exclusive (hfresh : s.Fresh) (steps : List Step) : (s.run steps).LeaseExclusive := by
  have hs := exclusive_run (exclusive_of_fresh hfresh) steps
  have hincreasing : (s.run steps).files.written.Pairwise
      fun x y => x.1 ≠ y.1 → x.2.generation < y.2.generation := hs.ordered.imp And.right
  constructor
  · have hdifferent : (s.run steps).files.written.Pairwise
        fun x y => x.2.generation = y.2.generation → x.1 = y.1 := by
      refine hincreasing.imp fun {x y} h hequal => ?_
      by_contra hne
      have hlower := h hne
      omega
    have hback := hdifferent.imp (S := flip fun x y : DaemonId × CcbdLease =>
      x.2.generation = y.2.generation → x.1 = y.1) fun h hequal => (h hequal.symm).symm
    intro x hx y hy _ _
    exact hdifferent.forall_of_forall_of_flip (fun _ _ _ => rfl) hback hx hy
  · exact hincreasing
  · intro step id app hactor happ entry hentry _ holder
    obtain ⟨_, _, home, later, _, htakes, hstep⟩ := step_daemon hactor happ
    rw [hstep]
    exact silent_of_older hs happ hentry holder (result_of_takes htakes)

/-! A daemon without a fence mounts and falls silent; its keeper spawns another, which takes the
lease over; and the first one's heartbeat finds itself replaced. -/

def exampleAnswers (now : ℤ) : Answers :=
  { inspected_at := now
    now := now
    pid_exists := fun _ => true
    connectable := fun _ => false
    listens := true
    heartbeat_write_interval := 5
    startup_id := 7
    namespace_epoch := some 1 }

def exampleDaemon (id : DaemonId) (fence : Option ExpectedStartupFence) : DaemonApp :=
  { project_id := [112]
    pid := 100 + id
    daemon_instance_id := id
    keeper_pid := some 50
    config_signature := [99]
    socket_path := [115]
    expected_startup_fence := fence
    startup_generation := none
    lease := none }

def exampleKeeper : ProjectKeeper := { project_id := [112], pid := 50, socket_path := [115] }

def exampleSystem : System :=
  { files := { lease := none, lifecycle := none, written := [] }
    daemon := fun id =>
      if id = 1 then some (exampleDaemon 1 none)
      else if id = 2 then some (exampleDaemon 2 (some { startup_id := 7, generation := 2 }))
      else none }

/-- The first daemon mounts, and the second takes over. -/
def exampleTakeover : List Step :=
  [.daemon 1 .claim_starting (exampleAnswers 0),
    .daemon 1 .publish_mounted (exampleAnswers 1),
    .daemon 1 .runtime_bootstrap_complete (exampleAnswers 2),
    .daemon 1 (.heartbeat none) (exampleAnswers 10),
    .keeper exampleKeeper (.spawn_daemon [99] 60) (exampleAnswers 90),
    .daemon 2 .claim_starting (exampleAnswers 91),
    .daemon 2 .publish_mounted (exampleAnswers 92)]

theorem exampleSystem_fresh : exampleSystem.Fresh := by
  refine { ids := fun other app hother => ?_, written := rfl, lease := ?_ }
  · by_cases h1 : other = 1
    · subst h1
      cases hother
      exact ⟨rfl, rfl⟩
    by_cases h2 : other = 2
    · subst h2
      cases hother
      exact ⟨rfl, rfl⟩
    · simp [exampleSystem, h1, h2] at hother
  · intro other app lease _ hlease
    cases hlease

theorem lease_exclusive_takeover :
    (exampleSystem.run exampleTakeover).files.written.map
        (fun entry => (entry.1, entry.2.generation)) = [(1, 1), (1, 1), (2, 2)] ∧
      (exampleSystem.run exampleTakeover).LeaseExclusive :=
  ⟨by decide, lease_exclusive exampleSystem_fresh exampleTakeover⟩

end ClaudeCodeBridge.Analysis.Ownership
