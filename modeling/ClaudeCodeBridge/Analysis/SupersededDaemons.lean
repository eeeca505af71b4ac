import ClaudeCodeBridge.Analysis.LifecycleOwnership

/-!
# Daemons that were superseded

Of the writers of the lifecycle three do not test that it is theirs: a stop is written over any
lifecycle; so is the epoch of a namespace, as long as the lease is of the lifecycle's generation;
and so is the release of a daemon that was started without a fence, as long as the lease is its
own.  All others are silent in a daemon that was superseded.

The ladder: each region of a daemon leaves its own lease in its mind (`ends_region`); with what
`LifecycleOwnership` says of the files this holds in every run (`owned_step`); a daemon that
was superseded owns no lifecycle of its generation and knows none of its transaction
(`Passed.not_owner`, `Passed.not_expected`), so each of its regions is silent
(`silent_step`); and so it is in every run in which no daemon oversteps
(`superseded_silent`).
-/

set_option autoImplicit false

namespace ClaudeCodeBridge.Analysis.Ownership

open Program
open Model.Ownership
open Prog

variable {h : Home} {answers : Answers}

theorem ends_lifecycle {α : Type} {call : DaemonCall α} (hcall : call.Each OnlyLifecycle)
    (hknown : Remembers h) : Ends (fun _ => Remembers) Remembers call h := by
  refine Ends.of_each (fun _ f hf s hs => ?_) hcall hknown
  obtain ⟨lifecycle, hsame⟩ := hf s
  rw [hsame]
  exact hs

variable {lease : CcbdLease}

theorem remembers_of_same (hlease : h.files.lease = some lease)
    (hmind : h.app.lease.map CcbdLease.generation = some lease.generation)
    (hpid : lease.daemon_instance_id = some h.app.daemon_instance_id →
      lease.ccbd_pid = h.app.pid) : Remembers h := by
  intro current hcurrent hholder
  have hsame : current = lease := Option.some.inj (hcurrent.symm.trans hlease)
  subst hsame
  exact ⟨hpid hholder, hmind⟩

variable {app : DaemonApp}

theorem pid_of_expected {u : Unit}
    (hholder : assert_expected_holder app lease = .ok u) : lease.ccbd_pid = app.pid := by
  simp only [assert_expected_holder, bind_ok, refuseIf_ok, not_not] at hholder
  obtain ⟨_, hpid, _⟩ := hholder
  exact hpid

theorem ends_claim_starting (hknown : Remembers h) :
    Ends (fun _ => Remembers) Remembers (claim_starting answers) h := by
  refine Ends.bind (Ends.mono (ends_lifecycle each_startup_generation_of hknown) fun claim h' hknown' => ?_)
  exact ends_ofExcept_bind hknown' fun _ _ => hknown'

theorem ends_publish_mounted (hknown : Remembers h) :
    Ends (fun _ => Remembers) Remembers (publish_mounted_after_bootstrap_probe answers) h := by
  refine ends_read_bind (ends_ofExcept_bind hknown fun _ _ => ends_read_bind ?_)
  refine ends_ofExcept_bind hknown fun _ _ => ends_read_bind ?_
  refine ends_ofExcept_bind hknown fun _ _ => ends_ofExcept_bind hknown fun lifecycle _ => ?_
  exact remembers_of_same rfl rfl fun _ => rfl

theorem ends_refresh_heartbeat (hknown : Remembers h) :
    Ends (fun lease h' => h'.files.lease = some lease ∧ h'.app = h.app ∧
        (lease.daemon_instance_id = some h.app.daemon_instance_id → lease.ccbd_pid = h.app.pid))
      Remembers (refresh_heartbeat answers) h := by
  refine ends_read_bind (ends_read_bind (ends_ofExcept_bind hknown fun lease hlease => ?_))
  rw [valueOr_ok] at hlease
  refine Ends.ite (fun _ => ?_) fun _ => ends_ofExcept_bind hknown fun _ hchecked => ?_
  · exact ⟨hlease, rfl, fun hholder => (hknown lease hlease hholder).1⟩
  have hpid := pid_of_expected hchecked
  refine Ends.ite (fun _ => ?_) fun _ => ⟨hlease, rfl, fun _ => hpid⟩
  exact ⟨rfl, rfl, fun _ => hpid⟩

theorem ends_heartbeat (hknown : Remembers h) (failures : Option Text) :
    Ends (fun _ => Remembers) Remembers (heartbeat answers failures) h := by
  refine ends_read_bind (ends_read_bind (Ends.ite (fun _ => hknown) fun _ => ?_))
  refine ends_read_bind (ends_ofExcept_bind hknown fun _ _ => ?_)
  refine Ends.bind (Ends.mono (ends_refresh_heartbeat hknown) fun lease h' hread => ?_)
  obtain ⟨hlease, happ, hpid⟩ := hread
  have hafter : Remembers { h' with app := { h'.app with lease := some lease } } := by
    refine remembers_of_same hlease rfl ?_
    rw [happ]
    exact hpid
  exact Ends.bind (ends_lifecycle (each_record_heartbeat_failures failures) hafter)

theorem ends_update_lease_signature (hknown : Remembers h) (config_signature : Text)
    (expected_generation : ℕ) : Ends (fun _ => Remembers) Remembers
      (update_current_lease_config_signature answers config_signature expected_generation) h := by
  refine ends_read_bind (ends_read_bind (ends_ofExcept_bind hknown fun lease hlease => ?_))
  rw [valueOr_ok] at hlease
  refine ends_ofExcept_bind hknown fun _ _ => ends_ofExcept_bind hknown fun _ hchecked => ?_
  refine ends_ofExcept_bind hknown fun _ _ => ends_ofExcept_bind hknown fun _ _ => ?_
  have hmind := (hknown lease hlease (holder_of_expected hchecked)).2
  exact remembers_of_same rfl hmind fun _ => pid_of_expected hchecked

/-- A daemon that releases its lease, or does not hold one, has the lease in mind. -/
def Released (h : Home) (lease : Option CcbdLease) : Prop :=
  Remembers { h with app := { h.app with lease := lease } }

theorem ends_mark_current_daemon_unmounted (hknown : Remembers h) :
    Ends (fun lease h' => Released h' lease) Remembers
      (mark_current_daemon_unmounted answers) h := by
  refine ends_read_bind (ends_read_bind ?_)
  cases hlease : h.files.lease with
  | none =>
    intro current hcurrent
    have hnone := hlease.symm.trans hcurrent
    cases hnone
  | some lease =>
    cases hchecked : assert_expected_holder h.app lease with
    | error e =>
      simp only [hchecked]
      intro current hcurrent hholder
      have hsame : lease = current := Option.some.inj (hlease.symm.trans hcurrent)
      subst hsame
      -- the lease of another, since a daemon's own lease has its pid
      have hpid := (hknown lease hlease hholder).1
      have hok : assert_expected_holder h.app lease = .ok () := by
        simp only [assert_expected_holder, bind_ok, refuseIf_ok, not_not]
        exact ⟨(), hpid, hholder⟩
      rw [hok] at hchecked
      cases hchecked
    | ok u =>
      simp only [hchecked]
      exact remembers_of_same rfl rfl fun _ => pid_of_expected hchecked

theorem ends_release_backend_ownership (hknown : Remembers h) (desired_state : DesiredState) :
    Ends (fun _ => Remembers) Remembers (release_backend_ownership answers desired_state) h := by
  refine ends_read_bind ?_
  refine Ends.bind (Ends.mono (ends_mark_current_daemon_unmounted hknown) fun lease h' hmind => ?_)
  refine ends_read_bind (ends_read_bind (Ends.ite (fun _ => ?_) fun _ => hmind))
  refine Ends.bind (ends_read_bind (ends_read_bind (Ends.ite (fun _ => hmind) fun _ => ?_)))
  exact Ends.ite (fun _ => hmind) fun _ => hmind

theorem ends_region (region : DaemonRegion) (hknown : Remembers h) :
    Ends (fun _ => Remembers) Remembers (region.call answers) h := by
  cases region with
  | claim_starting => exact ends_claim_starting hknown
  | update_startup_progress stage =>
    exact ends_lifecycle (each_update_startup_progress stage) hknown
  | publish_mounted => exact ends_publish_mounted hknown
  | runtime_bootstrap_complete => exact ends_lifecycle each_mark_runtime_bootstrap_complete hknown
  | mark_failed failure_reason =>
    exact ends_lifecycle (each_mark_lifecycle_failed failure_reason) hknown
  | mark_stopping shutdown_intent =>
    exact ends_lifecycle (each_mark_lifecycle_stopping shutdown_intent) hknown
  | heartbeat failures => exact ends_heartbeat hknown failures
  | release_backend_ownership desired_state =>
    exact ends_release_backend_ownership hknown desired_state
  | update_lease_signature config_signature expected_generation =>
    exact ends_update_lease_signature hknown config_signature expected_generation
  | update_lifecycle_signature config_signature expected_generation =>
    exact ends_lifecycle
      (each_update_lifecycle_signature config_signature expected_generation) hknown
  | sync_namespace_epoch epoch =>
    exact ends_lifecycle (each_sync_lifecycle_namespace_epoch epoch) hknown

variable {s : System} {id : DaemonId}

def aliveIn (s : System) (id : DaemonId) : Prop := (s.daemon id).isSome

/-- What holds at any time: every daemon may rely on its start, knows its own lease, and has
written no lease above its generation. -/
structure Owned (s : System) : Prop where
  exclusive : Exclusive s
  standing : StandsAll (aliveIn s) s.daemon s.files
  known : ∀ id app, s.daemon id = some app → Remembers { files := s.files, app := app }
  written : ∀ id app lease, s.daemon id = some app → (id, lease) ∈ s.files.written →
    ∃ generation, app.startup_generation = some generation ∧ lease.generation ≤ generation

theorem Owned.holder_pos (hs : Owned s) {other : DaemonId}
    (hlease : s.files.lease = some lease) (hholder : lease.daemon_instance_id = some other)
    (halive : aliveIn s other) : 0 < lease.generation := by
  obtain ⟨app, happ⟩ := Option.isSome_iff_exists.mp halive
  obtain ⟨claimed, hclaim, _⟩ := hs.exclusive.own other app lease happ hlease hholder
  exact (hs.standing other app claimed happ hclaim).holder lease other hlease hholder halive

theorem Owned.stands (hs : Owned s) (happ : s.daemon id = some app) :
    Stands (aliveIn s) s.daemon id { files := s.files, app := app } :=
  { others := fun other app' generation _ hother hclaim =>
      hs.standing other app' generation hother hclaim
    self := fun generation hclaim => hs.standing id app generation happ hclaim }

theorem keeps_of_owned (hs : Owned s) (happ : s.daemon id = some app)
    (region : DaemonRegion) (answers : Answers) : Keeps (aliveIn s) s.daemon id
      (region.call answers) { files := s.files, app := app } := by
  have hid : app.daemon_instance_id = id := hs.exclusive.ids id app happ
  refine keeps_region region (hs.stands happ) (hs.known id app happ) ?_ ?_
  · show aliveIn s app.daemon_instance_id
    rw [hid]
    exact Option.isSome_iff_exists.mpr ⟨app, happ⟩
  · intro lease other hlease hholder halive
    exact hs.holder_pos hlease hholder halive

variable {home : Home}

theorem written_below (hs : Owned s) (happ : s.daemon id = some app)
    (hresult : Result { files := s.files, app := app } home)
    (hwritten : (id, lease) ∈ home.files.written) :
    ∃ generation, home.app.startup_generation = some generation ∧
      lease.generation ≤ generation := by
  have hid : app.daemon_instance_id = id := hs.exclusive.ids id app happ
  cases hresult with
  | stays hstays =>
    rw [hstays.written] at hwritten
    rw [hstays.claim]
    exact hs.written id app lease happ hwritten
  | claims generation hclaims =>
    rw [hclaims.written] at hwritten
    obtain ⟨current, hcurrent, hbelow, _⟩ := hs.exclusive.last _ hwritten
    exact ⟨generation, hclaims.claim, le_trans hbelow (hclaims.above current hcurrent)⟩
  | writes new hwrites =>
    rw [hwrites.written, List.mem_append, List.mem_singleton, Prod.mk.injEq] at hwritten
    rw [hwrites.claim]
    rcases hwritten with hbefore | ⟨_, rfl⟩
    · exact hs.written id app lease happ hbefore
    · rcases hwrites.admits with ⟨old, hold, hmine, hsame⟩ | ⟨hclaim, _⟩
      · rw [hid] at hmine
        obtain ⟨claimed, hclaimed, hbelow⟩ := hs.exclusive.own id app old happ hold hmine
        exact ⟨claimed, hclaimed, by omega⟩
      · exact ⟨_, hclaim, le_refl _⟩

theorem written_by_others (hs : Owned s) (happ : s.daemon id = some app)
    (hresult : Result { files := s.files, app := app } home) {other : DaemonId}
    (hne : other ≠ id) (hwritten : (other, lease) ∈ home.files.written) :
    (other, lease) ∈ s.files.written := by
  have hid : app.daemon_instance_id = id := hs.exclusive.ids id app happ
  cases hresult with
  | stays hstays =>
    rw [hstays.written] at hwritten
    exact hwritten
  | claims generation hclaims =>
    rw [hclaims.written] at hwritten
    exact hwritten
  | writes new hwrites =>
    rw [hwrites.written, List.mem_append, List.mem_singleton, Prod.mk.injEq] at hwritten
    rcases hwritten with hbefore | ⟨hother, _⟩
    · exact hbefore
    · exact absurd (hother.trans hid) hne

theorem stands_kept {alive : DaemonId → Prop} {others : DaemonId → Option DaemonApp}
    (hs : Stands alive others id home) {later : Option DaemonApp}
    (hlater : ∀ app, later = some app → app = home.app) :
    StandsAll alive (Function.update others id later) home.files := by
  intro other app generation hother hclaim
  by_cases hsame : other = id
  · subst hsame
    rw [Function.update_self] at hother
    have happ := hlater app hother
    subst happ
    exact hs.self generation hclaim
  · rw [Function.update_of_ne hsame] at hother
    exact hs.others other app generation hsame hother hclaim

/-- A daemon that takes a region keeps what holds of all daemons. -/
theorem owned_daemon (hs : Owned s) {step : Step} (hactor : step.actor = some id)
    (happ : s.daemon id = some app) : Owned (s.step step) := by
  have hexclusive := exclusive_step hs.exclusive step
  obtain ⟨region, answers, home, later, _, htakes, hstep⟩ := step_daemon hactor happ
  rw [hstep] at hexclusive ⊢
  have hresult := result_of_takes htakes
  have hkeeps := keeps_of_owned hs happ region answers
  have hstands := htakes.of_along (hs.stands happ) hkeeps
  have hid : app.daemon_instance_id = id := hs.exclusive.ids id app happ
  refine { exclusive := hexclusive, standing := ?_, known := ?_, written := ?_ }
  · intro other app' generation hother hclaim
    refine standing_fewer (stands_kept hstands htakes.later other app' generation hother hclaim) ?_
    intro other halive
    by_cases hsame : other = id
    · rw [hsame]
      exact Option.isSome_iff_exists.mpr ⟨app, happ⟩
    · have hkept : (Function.update s.daemon id later other).isSome := halive
      rw [Function.update_of_ne hsame] at hkept
      exact hkept
  · intro other app' hnow
    have hother : Function.update s.daemon id later other = some app' := hnow
    by_cases hsame : other = id
    · subst hsame
      rw [Function.update_self] at hother
      cases htakes with
      | ends =>
        rw [← Option.some.inj hother]
        exact (ends_region region (hs.known other app happ)).run
      | stops accesses => cases hother
    · rw [Function.update_of_ne hsame] at hother
      intro lease hlease hholder
      have hother' : app'.daemon_instance_id = other := hs.exclusive.ids other app' hother
      have hholder' : lease.daemon_instance_id = some other := hholder.trans (congrArg some hother')
      refine hs.known other app' hother lease ?_ hholder
      cases hresult with
      | stays hstays => exact hstays.lease.symm.trans hlease
      | claims generation hclaims => exact hclaims.lease.symm.trans hlease
      | writes new hwrites =>
        have hequal : lease = new := Option.some.inj (hlease.symm.trans hwrites.lease)
        rw [hequal, hwrites.holder] at hholder'
        have hwriter : id = other := hid.symm.trans (Option.some.inj hholder')
        exact absurd hwriter.symm hsame
  · intro other app' lease hnow hwritten
    have hother : Function.update s.daemon id later other = some app' := hnow
    by_cases hsame : other = id
    · subst hsame
      rw [Function.update_self] at hother
      rw [htakes.later app' hother]
      exact written_below hs happ hresult hwritten
    · rw [Function.update_of_ne hsame] at hother
      exact hs.written other app' lease hother (written_by_others hs happ hresult hsame hwritten)

theorem keeps_outside {alive : DaemonId → Prop} {daemon : DaemonId → Option DaemonApp} {w : Files}
    {call : KeeperCall Unit} {draws : Option StartupId} (hs : StandsAll alive daemon w)
    (hcall : Outside call draws)
    (hdraws : ∀ startup_id, draws = some startup_id →
      ∀ other app fence, daemon other = some app → app.startup_generation ≠ none →
        app.expected_startup_fence = some fence → fence.startup_id ≠ startup_id) :
    KeepsAll alive daemon call w := by
  cases hcall with
  | keeper keeper region answers => exact keeps_keeper_region region hs hdraws
  | command context region answers => exact keeps_command_region region hs

theorem owned_outside (hs : Owned s) {step : Step} (hactor : step.actor = none)
    (hready : s.Ready step) : Owned (s.step step) := by
  have hexclusive := exclusive_step hs.exclusive step
  obtain ⟨call, files, hcall, hleaves, hstep⟩ := step_outside (s := s) hactor
  rw [hstep] at hexclusive ⊢
  obtain ⟨hwritten, hlease⟩ := holder_kept hcall hleaves
  have hkeeps := keeps_outside hs.standing hcall fun startup_id hdraws other app fence =>
    hready.draws startup_id other app fence hdraws
  refine { exclusive := hexclusive, standing := ?_, known := ?_, written := ?_ }
  · exact hleaves.of_along hs.standing hkeeps
  · intro other app hother lease hnow hholder
    obtain ⟨old, hold, hgeneration, hsame, hpid⟩ := held_back hlease hnow
    obtain ⟨hold', hmind⟩ := hs.known other app hother old hold (hsame.trans hholder)
    exact ⟨hpid.symm.trans hold', hmind.trans (congrArg some hgeneration)⟩
  · intro other app lease hother hentry
    exact hs.written other app lease hother (hwritten ▸ hentry)

theorem owned_step (hs : Owned s) {step : Step} (hready : s.Ready step) : Owned (s.step step) := by
  cases hactor : step.actor with
  | none => exact owned_outside hs hactor hready
  | some id =>
    cases happ : s.daemon id with
    | none =>
      rw [step_of_dead hactor happ]
      exact hs
    | some app => exact owned_daemon hs hactor happ

theorem owned_of_fresh (hs : s.Fresh) : Owned s := by
  refine { exclusive := exclusive_of_fresh hs, standing := ?_, known := ?_, written := ?_ }
  · intro other app generation hother hclaim
    rw [(hs.ids other app hother).2] at hclaim
    cases hclaim
  · intro other app hother lease hlease hholder
    have hid := (hs.ids other app hother).1
    exact absurd (hholder.trans (congrArg some hid)) (hs.lease other app lease hother hlease)
  · intro other app lease _ hwritten
    rw [hs.written] at hwritten
    cases hwritten

variable {alive : DaemonId → Prop} {generation : ℕ} {lifecycle : CcbdLifecycle}

/-- A daemon whose lifecycle has passed to another. -/
structure Passed (alive : DaemonId → Prop) (h : Home) (generation : ℕ)
    (lifecycle : CcbdLifecycle) : Prop where
  standing : Standing alive h.files h.app generation
  claim : h.app.startup_generation = some generation
  found : h.files.lifecycle = some lifecycle
  passed : generation < lifecycle.generation ∨
    ∃ other, other ≠ h.app.daemon_instance_id ∧ alive other ∧
      lifecycle.owner_daemon_instance_id = some other

theorem Passed.not_owner (hp : Passed alive h generation lifecycle) {current : CcbdLifecycle}
    (hfound : h.files.lifecycle = some current)
    (howner : current.owner_daemon_instance_id = some h.app.daemon_instance_id) :
    generation < current.generation := by
  have hsame : lifecycle = current := Option.some.inj (hp.found.symm.trans hfound)
  subst hsame
  rcases hp.passed with hlower | ⟨other, hne, _, hother⟩
  · exact hlower
  · exact absurd (Option.some.inj (hother.symm.trans howner)) hne

variable {fence : ExpectedStartupFence}

theorem Passed.not_expected (hp : Passed alive h generation lifecycle)
    (hfence : h.app.expected_startup_fence = some fence)
    (hid : lifecycle.startup_id = some fence.startup_id) :
    lifecycle.generation ≠ fence.generation := by
  intro hgeneration
  have hclaimed := hp.standing.claimed fence hfence
  have hmine := hp.standing.transaction fence lifecycle hfence hp.found hid hgeneration
  rcases hp.passed with hlower | ⟨other, hne, hother, howner⟩
  · omega
  · exact hne (hmine.owner other howner hother)

theorem Passed.generation_getD (hp : Passed alive h generation lifecycle) :
    h.app.startup_generation.getD 0 = generation := by
  rw [hp.claim, Option.getD_some]

/-- Every stop of a region leaves the lifecycle as it is. -/
abbrev LeavesLifecycle {α : Type} (call : DaemonCall α) (lifecycle : CcbdLifecycle) (h : Home) :
    Prop :=
  Along (fun _ _ => True) (fun h' => h'.files.lifecycle = some lifecycle) call
    (fun _ h' => h'.files.lifecycle = some lifecycle) h

section

variable (hp : Passed alive h generation lifecycle)

include hp

theorem silent_update_startup_progress
    (stage : StartupStage) : LeavesLifecycle (update_startup_progress stage) lifecycle h := by
  refine along_read_bind hp.found (along_read_bind hp.found ?_)
  refine along_ofExcept_bind fun current hok => ?_
  exfalso
  cases hfence : h.app.expected_startup_fence with
  | some fence =>
    simp only [hfence] at hok
    obtain ⟨hfound, hexpected⟩ := expectedStartup_of hok
    have hsame : lifecycle = current := Option.some.inj (hp.found.symm.trans hfound)
    subst hsame
    exact hp.not_expected hfence hexpected.startup_id hexpected.same_generation
  | none =>
    simp only [hfence, bind_ok] at hok
    obtain ⟨_, _, hok⟩ := hok
    obtain ⟨hfound, hstarting⟩ := startingOwner_of hok
    have hlower := hp.not_owner hfound hstarting.owner
    have hequal := hstarting.same_generation.trans hp.generation_getD
    omega

theorem silent_publish_mounted :
    LeavesLifecycle (publish_mounted_after_bootstrap_probe answers) lifecycle h := by
  refine along_read_bind hp.found (along_ofExcept_bind fun _ _ => along_read_bind hp.found ?_)
  refine along_ofExcept_bind fun _ _ => along_read_bind hp.found ?_
  refine along_ofExcept_bind fun _ _ => along_ofExcept_bind fun current hok => ?_
  exfalso
  obtain ⟨hfound, hstarting⟩ := startingOwner_of hok
  have hlower := hp.not_owner hfound hstarting.owner
  have hequal := hstarting.same_generation.trans hp.generation_getD
  omega

theorem Passed.not_authority {lease : Option CcbdLease} {current : CcbdLifecycle} :
    validate_current_startup_authority h.app h.files.lifecycle lease generation ≠ .ok current := by
  intro hok
  obtain ⟨hfound, hauthority⟩ := startupAuthority_of hok
  have hlower := hp.not_owner hfound hauthority.owner
  have hequal := hauthority.same_generation
  omega

theorem silent_runtime_bootstrap_complete :
    LeavesLifecycle (mark_runtime_bootstrap_complete answers) lifecycle h := by
  refine along_read_bind hp.found (along_ofExcept_bind fun _ _ => ?_)
  refine along_read_bind hp.found (along_read_bind hp.found ?_)
  refine along_ofExcept_bind fun current hok => ?_
  rw [hp.generation_getD] at hok
  exact absurd hok hp.not_authority

theorem silent_heartbeat (failures : Option Text) :
    LeavesLifecycle (heartbeat answers failures) lifecycle h := by
  refine along_read_bind hp.found (along_read_bind hp.found (Along.ite (fun _ => hp.found) ?_))
  intro _
  refine along_read_bind hp.found (along_ofExcept_bind fun _ hok => ?_)
  rw [hp.generation_getD, if_pos hp.standing.positive] at hok
  simp only [bind_ok] at hok
  obtain ⟨current, hok, _⟩ := hok
  exact absurd hok hp.not_authority

end

theorem matches_iff :
    matches_expected_startup_transaction app fence (some lifecycle) = true ↔
      lifecycle.project_id = app.project_id ∧ lifecycle.startup_id = some fence.startup_id ∧
        lifecycle.generation = fence.generation := by
  simp only [matches_expected_startup_transaction, Option.any_some, Bool.and_eq_true,
    decide_eq_true_eq, and_assoc]

theorem Passed.not_matches (hp : Passed alive h generation lifecycle)
    (hfence : h.app.expected_startup_fence = some fence) :
    matches_expected_startup_transaction h.app fence (some lifecycle) = false := by
  rw [Bool.eq_false_iff]
  intro hmatches
  obtain ⟨_, hid, hgeneration⟩ := matches_iff.mp hmatches
  exact hp.not_expected hfence hid hgeneration

theorem lease_is_app_generation_iff {mount_state : MountState} :
    lease_is_app_generation app (some lease) generation mount_state = true ↔
      lease.mount_state = mount_state ∧ lease.project_id = app.project_id ∧
        lease.generation = generation ∧ lease.ccbd_pid = app.pid ∧
        lease.daemon_instance_id = some app.daemon_instance_id ∧
        lease.socket_path = app.socket_path := by
  simp only [lease_is_app_generation, Option.any_some, Bool.and_eq_true, decide_eq_true_eq,
    and_assoc]

theorem is_owner_iff : is_owner app lifecycle = true ↔
    lifecycle.owner_pid = some app.pid ∧
      lifecycle.owner_daemon_instance_id = some app.daemon_instance_id := by
  simp only [is_owner, Bool.and_eq_true, decide_eq_true_eq]

theorem silent_mark_lifecycle_failed (hp : Passed alive h generation lifecycle)
    (failure_reason : Text) :
    LeavesLifecycle (mark_lifecycle_failed failure_reason) lifecycle h := by
  refine along_read_bind hp.found (along_read_bind hp.found ?_)
  rw [hp.found]
  refine along_read_bind hp.found (Along.ite (fun hallowed => ?_) fun _ => hp.found)
  exfalso
  cases hfence : h.app.expected_startup_fence with
  | some fence =>
    simp only [hfence, fenced_failure_write_allowed, hp.not_matches hfence,
      Bool.false_and] at hallowed
    cases hallowed
  | none =>
    simp only [hfence, legacy_failure_write_allowed, hp.generation_getD, Bool.and_eq_true,
      Bool.or_eq_true, decide_eq_true_eq, is_owner_iff] at hallowed
    obtain ⟨⟨_, hequal⟩, hmine⟩ := hallowed
    rcases hp.passed with hlower | ⟨other, hne, _, howner⟩
    · omega
    rcases hmine with ⟨_, _, hself⟩ | ⟨hunmounted, hlease⟩
    · exact hne (Option.some.inj (howner.symm.trans hself))
    · obtain ⟨lease, hfile, hholder⟩ :=
        hp.standing.unmounted lifecycle other hp.found hunmounted howner
      rw [hfile, lease_is_app_generation_iff] at hlease
      exact hne (Option.some.inj (hholder.symm.trans hlease.2.2.2.2.1))

theorem silent_update_lease_signature (hfound : h.files.lifecycle = some lifecycle)
    (config_signature : Text) (expected_generation : ℕ) : LeavesLifecycle
      (update_current_lease_config_signature answers config_signature expected_generation)
      lifecycle h := by
  refine along_read_bind hfound (along_read_bind hfound (along_ofExcept_bind fun lease _ => ?_))
  refine along_ofExcept_bind fun _ _ => along_ofExcept_bind fun _ _ => ?_
  exact along_ofExcept_bind fun _ _ => along_ofExcept_bind fun _ _ => fun _ => ⟨hfound, hfound⟩

theorem silent_update_lifecycle_signature (hp : Passed alive h generation lifecycle)
    (config_signature : Text) {expected_generation : ℕ}
    (hexpected : expected_generation ≤ generation) :
    LeavesLifecycle
      (update_mounted_lifecycle_config_signature answers config_signature expected_generation)
      lifecycle h := by
  refine along_read_bind hp.found (along_read_bind hp.found (along_ofExcept_bind ?_))
  intro current hok
  exfalso
  simp only [assert_mounted_lifecycle_signature_handoff, bind_ok, valueOr_ok, refuseIf_ok, pure_ok,
    not_not] at hok
  obtain ⟨found, hfound, _, _, _, hequal, _, _, _, howner, _⟩ := hok
  have hlower := hp.not_owner hfound howner
  omega

theorem silent_sync_lifecycle_namespace_epoch (hfound : h.files.lifecycle = some lifecycle)
    {epoch : ℕ} (hdue : epoch_is_due lifecycle h.files.lease epoch = false) :
    LeavesLifecycle (sync_lifecycle_namespace_epoch epoch) lifecycle h := by
  refine along_read_bind hfound ?_
  rw [hfound]
  refine along_read_bind hfound (Along.ite (fun hgoes => ?_) fun _ => hfound)
  rw [hdue] at hgoes
  cases hgoes

theorem silent_mark_current_daemon_unmounted (hfound : h.files.lifecycle = some lifecycle) :
    Along (fun _ _ => True) (fun h' => h'.files.lifecycle = some lifecycle)
      (mark_current_daemon_unmounted answers)
      (fun released h' => h'.files.lifecycle = some lifecycle ∧ h'.app = h.app ∧
        ∀ lease, released = some lease → ∃ old, h.files.lease = some old ∧
          lease = { old with
            mount_state := .unmounted
            last_heartbeat_at := answers.now }) h := by
  refine along_read_bind hfound (along_read_bind hfound ?_)
  cases hlease : h.files.lease with
  | none =>
    refine ⟨hfound, rfl, fun lease hnone => ?_⟩
    cases hnone
  | some lease =>
    cases hchecked : assert_expected_holder h.app lease with
    | error e =>
      simp only [hchecked]
      refine ⟨hfound, rfl, fun lease hnone => ?_⟩
      cases hnone
    | ok u =>
      simp only [hchecked]
      refine Along.bind fun _ => ⟨hfound, hfound, rfl, fun updated hupdated => ?_⟩
      exact ⟨lease, rfl, (Option.some.inj hupdated).symm⟩

theorem own_of_released {old : CcbdLease} (hclaim : app.startup_generation = some generation)
    (hpositive : 0 < generation) (h : is_released_app_lease app (some { old with
      mount_state := .unmounted
      last_heartbeat_at := answers.now }) = true) :
    lease_is_app_generation app (some old) generation old.mount_state = true := by
  have hgeneration : (if app.startup_generation.getD 0 = 0 then old.generation
      else app.startup_generation.getD 0) = generation := by
    rw [hclaim, Option.getD_some, if_neg hpositive.ne']
  unfold is_released_app_lease at h
  simp only [Option.elim_some, hgeneration, lease_is_app_generation_iff] at h
  exact lease_is_app_generation_iff.mpr ⟨rfl, h.2⟩

theorem silent_release_backend_ownership (hp : Passed alive h generation lifecycle)
    (desired_state : DesiredState)
    (hlease : h.app.expected_startup_fence = none → lifecycle.phase ≠ .failed →
      ∀ lease, h.files.lease = some lease →
        lease_is_app_generation h.app (some lease) generation lease.mount_state = false) :
    LeavesLifecycle (release_backend_ownership answers desired_state) lifecycle h := by
  refine along_read_bind hp.found ?_
  refine Along.bind (Along.mono (silent_mark_current_daemon_unmounted hp.found) ?_)
  rintro released h' ⟨hfound, happ, hold⟩
  refine along_read_bind hfound (along_read_bind hfound (Along.ite (fun hgoes => ?_) ?_))
  · refine Along.bind (along_read_bind hfound (along_read_bind hfound ?_))
    rw [hfound, happ]
    cases hfence : h.app.expected_startup_fence with
    | some fence =>
      refine Along.ite (fun _ => fun _ => ⟨hfound, hfound⟩) fun hmatches => ?_
      rw [Option.any_some, hp.not_matches hfence] at hmatches
      exact absurd rfl hmatches
    | none =>
      refine Along.ite Bool.noConfusion fun _ => ?_
      refine Along.ite (fun _ => fun _ => ⟨hfound, hfound⟩) fun hphase => ?_
      exfalso
      rw [Bool.or_eq_true, Bool.and_eq_true, Bool.and_eq_true] at hgoes
      rcases hgoes with ⟨hreleased, _⟩ | ⟨_, hcan⟩
      · cases hsome : released with
        | none =>
          rw [hsome] at hreleased
          cases hreleased
        | some lease =>
          obtain ⟨old, hfile, hsame⟩ := hold lease hsome
          rw [hsome, hsame] at hreleased
          have hown := own_of_released hp.claim hp.standing.positive hreleased
          rw [hlease hfence hphase old hfile] at hown
          cases hown
      · rw [hfound] at hcan
        simp only [can_release_lifecycle_without_lease, hp.generation_getD, hfence, Option.any_some,
          Bool.and_eq_true, decide_eq_true_eq, Option.isSome_none, Bool.false_and, Bool.false_or,
          is_owner_iff] at hcan
        have hlower := hp.not_owner hp.found hcan.2.2.2
        omega
  · exact fun _ => fun _ => ⟨hfound, hfound⟩

theorem released_of_not_oversteps {step : Step} (hactor : step.actor = some id)
    (hsuperseded : s.Superseded id) (happ : s.daemon id = some app) {desired_state : DesiredState}
    (hregion : step.region = some (.release_backend_ownership desired_state))
    (hovers : ¬ s.Oversteps step) (hclaim : app.startup_generation = some generation)
    (hfound : s.files.lifecycle = some lifecycle) :
    app.expected_startup_fence = none → lifecycle.phase ≠ .failed →
      ∀ lease, s.files.lease = some lease →
        lease_is_app_generation app (some lease) generation lease.mount_state = false := by
  intro hfence hphase lease hlease
  rw [Bool.eq_false_iff]
  intro hown
  refine hovers ⟨id, app, hactor, hsuperseded, happ, Or.inr (Or.inr ⟨⟨_, hregion⟩, hfence, ?_, ?_⟩)⟩
  · refine ⟨lease, hlease, ?_⟩
    rw [hclaim, Option.getD_some]
    exact hown
  · exact ⟨lifecycle, hfound, hphase⟩

/-- **A superseded daemon that does not overstep leaves the lifecycle as it is.** -/
theorem silent_step (hs : Owned s) {step : Step} (hready : s.Ready step)
    (hovers : ¬ s.Oversteps step) : s.Silent step := by
  intro id hactor hsuperseded hstart
  have hwitness := hsuperseded
  obtain ⟨app, generation, lifecycle, happ, hclaim, hfound, hpassed⟩ := hwitness
  have hid : app.daemon_instance_id = id := hs.exclusive.ids id app happ
  have hp : Passed (aliveIn s) { files := s.files, app := app } generation lifecycle :=
    { standing := hs.standing id app generation happ hclaim
      claim := hclaim
      found := hfound
      passed := by
        rw [hid]
        exact hpassed }
  obtain ⟨region, answers, home, later, hregion, htakes, hstep⟩ := step_daemon hactor happ
  rw [hstep, hfound]
  refine htakes.of_along (I := fun h => h.files.lifecycle = some lifecycle) hfound ?_
  cases region with
  | claim_starting => exact absurd hregion hstart
  | update_startup_progress stage => exact silent_update_startup_progress hp stage
  | publish_mounted => exact silent_publish_mounted hp
  | runtime_bootstrap_complete => exact silent_runtime_bootstrap_complete hp
  | mark_failed failure_reason => exact silent_mark_lifecycle_failed hp failure_reason
  | mark_stopping shutdown_intent =>
    exact absurd ⟨id, app, hactor, hsuperseded, happ, Or.inl ⟨_, hregion⟩⟩ hovers
  | heartbeat failures => exact silent_heartbeat hp failures
  | release_backend_ownership desired_state =>
    exact silent_release_backend_ownership hp desired_state
      (released_of_not_oversteps hactor hsuperseded happ hregion hovers hclaim hfound)
  | update_lease_signature config_signature expected_generation =>
    exact silent_update_lease_signature hfound config_signature expected_generation
  | update_lifecycle_signature config_signature expected_generation =>
    refine silent_update_lifecycle_signature hp config_signature ?_
    obtain ⟨lease, hwritten, hsame⟩ := hready.hands_on id _ _ hactor hregion
    obtain ⟨claimed, hclaimed, hbelow⟩ := hs.written id app lease happ hwritten
    have hequal : generation = claimed := Option.some.inj (hclaim.symm.trans hclaimed)
    omega
  | sync_namespace_epoch epoch =>
    refine silent_sync_lifecycle_namespace_epoch hfound (Bool.eq_false_iff.mpr fun hdue => ?_)
    exact hovers ⟨id, app, hactor, hsuperseded, happ,
      Or.inr (Or.inl ⟨epoch, lifecycle, hregion, hfound, hdue⟩)⟩

theorem silent_run (hs : Owned s) {steps : List Step}
    (hruns : s.Runs (fun s step => s.Ready step ∧ ¬ s.Oversteps step) steps) :
    s.Runs System.Silent steps := by
  induction steps generalizing s with
  | nil => trivial
  | cons step steps ih =>
    obtain ⟨⟨hready, hovers⟩, hrest⟩ := hruns
    exact ⟨silent_step hs hready hovers, ih (owned_step hs hready) hrest⟩

/-- **In a run in which no daemon oversteps, every superseded daemon is silent.** -/
theorem superseded_silent (hfresh : s.Fresh) (steps : List Step)
    (hruns : s.Runs (fun s step => s.Ready step ∧ ¬ s.Oversteps step) steps) :
    s.Runs System.Silent steps :=
  silent_run (owned_of_fresh hfresh) hruns

/-! The daemon that fell silent wakes up between the claim of its successor and its mount. -/

theorem ready_of {step : Step} (hdraws : step.draws = none)
    (hregion : ∀ config_signature expected_generation,
      step.region ≠ some (.update_lifecycle_signature config_signature expected_generation)) :
    s.Ready step := by
  refine { draws := ?_, hands_on := ?_ }
  · intro startup_id other app fence hsome
    rw [hdraws] at hsome
    cases hsome
  · intro other config_signature expected_generation _ hsome
    exact absurd hsome (hregion config_signature expected_generation)

theorem not_oversteps_of {step : Step}
    (hstop : ∀ shutdown_intent, step.region ≠ some (.mark_stopping shutdown_intent))
    (hepoch : ∀ epoch, step.region ≠ some (.sync_namespace_epoch epoch))
    (hrelease : ∀ desired_state, step.region ≠ some (.release_backend_ownership desired_state)) :
    ¬ s.Oversteps step := by
  rintro ⟨other, app, _, _, _, ⟨shutdown_intent, hregion⟩ | ⟨epoch, _, hregion, _⟩ |
    ⟨⟨desired_state, hregion⟩, _⟩⟩
  · exact hstop shutdown_intent hregion
  · exact hepoch epoch hregion
  · exact hrelease desired_state hregion

theorem daemon_kept {step : Step} (hactor : step.actor = some id) {other : DaemonId}
    (hne : other ≠ id) : (s.step step).daemon other = s.daemon other := by
  cases happ : s.daemon id with
  | none => rw [step_of_dead hactor happ]
  | some app =>
    obtain ⟨_, _, home, later, _, _, hstep⟩ := step_daemon hactor happ
    rw [hstep]
    exact Function.update_of_ne hne _ _

/-- The first daemon mounts, its keeper spawns another, and that claims the lifecycle. -/
def exampleMounted : List Step := exampleTakeover.take 4

def exampleClaimed : List Step := exampleTakeover.take 6

theorem exampleSpawn_ready : (exampleSystem.run exampleMounted).Ready
    (.keeper exampleKeeper (.spawn_daemon [99] 60) (exampleAnswers 90)) := by
  refine { draws := ?_, hands_on := fun _ _ _ hactor => by cases hactor }
  intro startup_id other app fence _ hother hstarted hfence
  exfalso
  by_cases hfirst : other = 1
  · subst hfirst
    have hunfenced : ((exampleSystem.run exampleMounted).daemon 1).map
        DaemonApp.expected_startup_fence = some none := by decide
    rw [hother, Option.map_some, hfence] at hunfenced
    cases hunfenced
  · have hkept : (exampleSystem.run exampleMounted).daemon other = exampleSystem.daemon other := by
      simp only [exampleMounted, exampleTakeover, List.take_succ_cons, List.take_zero, System.run,
        List.foldl_cons, List.foldl_nil]
      rw [daemon_kept rfl hfirst, daemon_kept rfl hfirst, daemon_kept rfl hfirst,
        daemon_kept rfl hfirst]
    exact hstarted (exampleSystem_fresh.ids other app (hkept.symm.trans hother)).2

theorem exampleClaimed_ready {steps : List Step}
    (hready : (exampleSystem.run exampleClaimed).Runs System.Ready steps) :
    exampleSystem.Runs System.Ready (exampleClaimed ++ steps) := by
  refine ⟨ready_of rfl ?_, ready_of rfl ?_, ready_of rfl ?_, ready_of rfl ?_, exampleSpawn_ready,
    ready_of rfl ?_, hready⟩
  all_goals exact fun _ _ h => by cases h

theorem superseded_of {steps : List Step}
    (hclaim : ((exampleSystem.run steps).daemon 1).bind DaemonApp.startup_generation = some 1)
    (hlifecycle : (exampleSystem.run steps).files.lifecycle.map CcbdLifecycle.generation =
      some 2) : (exampleSystem.run steps).Superseded 1 := by
  rw [Option.bind_eq_some_iff] at hclaim
  rw [Option.map_eq_some_iff] at hlifecycle
  obtain ⟨app, happ, hgeneration⟩ := hclaim
  obtain ⟨lifecycle, hfound, hsame⟩ := hlifecycle
  exact ⟨app, 1, lifecycle, happ, hgeneration, hfound, Or.inl (by omega)⟩

theorem runs_last {Good : System → Step → Prop} {steps : List Step} {step : Step}
    (hruns : s.Runs Good (steps ++ [step])) : Good (s.run steps) step := by
  induction steps generalizing s with
  | nil => exact hruns.1
  | cons first steps ih => exact ih hruns.2

theorem not_silent_of {steps : List Step} {step : Step} (hactor : step.actor = some 1)
    (hstart : step.region ≠ some .claim_starting)
    (hsuperseded : (exampleSystem.run steps).Superseded 1)
    (hchanged : ((exampleSystem.run steps).step step).files.lifecycle ≠
      (exampleSystem.run steps).files.lifecycle) :
    ¬ exampleSystem.Runs System.Silent (steps ++ [step]) := by
  intro hruns
  exact hchanged (runs_last hruns 1 hactor hsuperseded hstart)

/-- A superseded daemon writes the lifecycle of the one that starts: by a stop, by the release of
its lease, and by the epoch of its namespace. -/
theorem superseded_writes_lifecycle : exampleSystem.Fresh ∧
    (exampleSystem.Runs System.Ready
        (exampleClaimed ++ [.daemon 1 (.mark_stopping [107]) (exampleAnswers 92)]) ∧
      ¬ exampleSystem.Runs System.Silent
        (exampleClaimed ++ [.daemon 1 (.mark_stopping [107]) (exampleAnswers 92)])) ∧
    (exampleSystem.Runs System.Ready
        (exampleClaimed ++ [.daemon 1 (.release_backend_ownership .running) (exampleAnswers 92)]) ∧
      ¬ exampleSystem.Runs System.Silent
        (exampleClaimed ++
          [.daemon 1 (.release_backend_ownership .running) (exampleAnswers 92)])) ∧
    exampleSystem.Runs System.Ready
        (exampleTakeover ++ [.daemon 1 (.sync_namespace_epoch 2) (exampleAnswers 93)]) ∧
      ¬ exampleSystem.Runs System.Silent
        (exampleTakeover ++ [.daemon 1 (.sync_namespace_epoch 2) (exampleAnswers 93)]) := by
  have hclaimed : (exampleSystem.run exampleClaimed).Superseded 1 :=
    superseded_of (by decide) (by decide)
  have htaken : (exampleSystem.run exampleTakeover).Superseded 1 :=
    superseded_of (by decide) (by decide)
  refine ⟨exampleSystem_fresh, ⟨exampleClaimed_ready ⟨ready_of rfl ?_, trivial⟩, ?_⟩,
    ⟨exampleClaimed_ready ⟨ready_of rfl ?_, trivial⟩, ?_⟩,
    exampleClaimed_ready ⟨ready_of rfl ?_, ready_of rfl ?_, trivial⟩, ?_⟩
  · exact fun _ _ h => by cases h
  · exact not_silent_of rfl (fun h => by cases h) hclaimed (by decide)
  · exact fun _ _ h => by cases h
  · exact not_silent_of rfl (fun h => by cases h) hclaimed (by decide)
  · exact fun _ _ h => by cases h
  · exact fun _ _ h => by cases h
  · exact not_silent_of rfl (fun h => by cases h) htaken (by decide)

theorem superseded_silent_heartbeat : exampleSystem.Runs System.Silent
    (exampleClaimed ++ [.daemon 1 (.heartbeat none) (exampleAnswers 92)]) := by
  refine superseded_silent exampleSystem_fresh _ ?_
  refine ⟨⟨ready_of rfl ?_, not_oversteps_of ?_ ?_ ?_⟩, ⟨ready_of rfl ?_, not_oversteps_of ?_ ?_ ?_⟩,
    ⟨ready_of rfl ?_, not_oversteps_of ?_ ?_ ?_⟩, ⟨ready_of rfl ?_, not_oversteps_of ?_ ?_ ?_⟩,
    ⟨exampleSpawn_ready, not_oversteps_of ?_ ?_ ?_⟩, ⟨ready_of rfl ?_, not_oversteps_of ?_ ?_ ?_⟩,
    ⟨ready_of rfl ?_, not_oversteps_of ?_ ?_ ?_⟩, trivial⟩
  all_goals simp [Step.region]

end ClaudeCodeBridge.Analysis.Ownership
