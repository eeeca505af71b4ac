import ClaudeCodeBridge.Analysis.DaemonExclusivity

/-!
# Whose lifecycle it is

Every writer of the lifecycle replaces the whole record.  What its tests rest on is `Standing`:
of a daemon that has started with a fence, no other daemon that is alive owns the lifecycle of
its transaction, a lifecycle of it that is starting is its own, and so is the lease of its
generation.

The ladder: what each write does to `Standing` (`standing_lease`, `standing_mounted`,
`standing_follows`, `standing_claimed`, `standing_spawned`); which lifecycles follow the one
before (`follows_of_same`, `follows_of_holder`, `follows_of_inspection`); each region of a
daemon keeps it wherever it stops (`keeps_region`), and so does each region of a keeper
(`keeps_keeper_region`) and of a command (`keeps_command_region`).
-/

set_option autoImplicit false

namespace ClaudeCodeBridge.Analysis.Ownership

open Program
open Model.Ownership
open Prog

variable {alive : DaemonId → Prop} {files files' : Files} {app : DaemonApp} {generation : ℕ}

/-- What a daemon that has started with a fence knows of a lifecycle of its transaction. -/
structure Transaction (alive : DaemonId → Prop) (files : Files) (id : DaemonId)
    (lifecycle : CcbdLifecycle) : Prop where
  owner : ∀ other, lifecycle.owner_daemon_instance_id = some other → alive other → other = id
  starting : lifecycle.phase = .starting → lifecycle.owner_daemon_instance_id = some id
  lease : ∀ lease, files.lease = some lease → lease.generation = lifecycle.generation →
    lease.daemon_instance_id = some id

/-- What holds of the files for a daemon that has started with the generation. -/
structure Standing (alive : DaemonId → Prop) (files : Files) (app : DaemonApp)
    (generation : ℕ) : Prop where
  positive : 0 < generation
  found : files.lifecycle ≠ none
  claimed : ∀ fence, app.expected_startup_fence = some fence → fence.generation = generation
  transaction : ∀ fence lifecycle, app.expected_startup_fence = some fence →
    files.lifecycle = some lifecycle → lifecycle.startup_id = some fence.startup_id →
      lifecycle.generation = fence.generation →
        Transaction alive files app.daemon_instance_id lifecycle
  unmounted : ∀ lifecycle other, files.lifecycle = some lifecycle →
    lifecycle.phase = .unmounted → lifecycle.owner_daemon_instance_id = some other →
      ∃ lease, files.lease = some lease ∧ lease.daemon_instance_id = some other
  holder : ∀ lease other, files.lease = some lease → lease.daemon_instance_id = some other →
    alive other → 0 < lease.generation

theorem standing_lease (hs : Standing alive files app generation)
    (hlease : files'.lease.map held = files.lease.map held)
    (hlifecycle : files'.lifecycle = files.lifecycle) : Standing alive files' app generation := by
  refine { positive := hs.positive, found := hlifecycle ▸ hs.found, claimed := hs.claimed,
           transaction := ?_, unmounted := ?_, holder := ?_ }
  · intro fence lifecycle hfence hfound hid hgeneration
    have hbefore := hs.transaction fence lifecycle hfence (hlifecycle ▸ hfound) hid hgeneration
    refine { owner := hbefore.owner, starting := hbefore.starting, lease := ?_ }
    intro lease hnow hsame
    obtain ⟨old, hold, hequal, hholder, _⟩ := held_back hlease hnow
    rw [← hholder]
    exact hbefore.lease old hold (hequal.trans hsame)
  · intro lifecycle other hfound hphase howner
    obtain ⟨old, hold, hholder⟩ := hs.unmounted lifecycle other (hlifecycle ▸ hfound) hphase howner
    obtain ⟨lease, hnow, _, hsame, _⟩ := held_back hlease.symm hold
    exact ⟨lease, hnow, hsame.trans hholder⟩
  · intro lease other hnow hholder hother
    obtain ⟨old, hold, hequal, hsame, _⟩ := held_back hlease hnow
    rw [← hequal]
    exact hs.holder old other hold (hsame.trans hholder) hother

variable {lifecycle : CcbdLifecycle}

theorem standing_mounted (hs : Standing alive files app generation) {lease : CcbdLease}
    (hlease : files'.lease = some lease)
    (hlifecycle : files'.lifecycle = files.lifecycle) (hfound : files.lifecycle = some lifecycle)
    (hphase : lifecycle.phase = .starting) (hpositive : 0 < lease.generation)
    (howner : lifecycle.owner_daemon_instance_id = lease.daemon_instance_id) :
    Standing alive files' app generation := by
  refine { positive := hs.positive, found := hlifecycle ▸ hs.found, claimed := hs.claimed,
           transaction := ?_, unmounted := ?_, holder := ?_ }
  · intro fence current hfence hcurrent hid hgeneration
    have hnow : files.lifecycle = some current := hlifecycle ▸ hcurrent
    have hsame : current = lifecycle := Option.some.inj (hnow.symm.trans hfound)
    subst hsame
    have hbefore := hs.transaction fence current hfence hnow hid hgeneration
    refine { owner := hbefore.owner, starting := hbefore.starting, lease := ?_ }
    intro other hother _
    have hequal : other = lease := Option.some.inj (hother.symm.trans hlease)
    rw [hequal, ← howner]
    exact hbefore.starting hphase
  · intro current other hcurrent hunmounted _
    have hnow : files.lifecycle = some current := hlifecycle ▸ hcurrent
    have hsame : current = lifecycle := Option.some.inj (hnow.symm.trans hfound)
    rw [hsame, hphase] at hunmounted
    cases hunmounted
  · intro other _ hother _ _
    have hequal : other = lease := Option.some.inj (hother.symm.trans hlease)
    rw [hequal]
    exact hpositive

/-- A lifecycle of the transaction of the one before, with the same owner or none, or with the
holder of the lease; or a lifecycle of no transaction. -/
structure Follows (files : Files) (new : CcbdLifecycle) : Prop where
  startup : ∀ startup_id, new.startup_id = some startup_id → ∃ old, files.lifecycle = some old ∧
    old.startup_id = some startup_id ∧ old.generation = new.generation ∧
    (new.phase = .starting → old.phase = .starting ∧
      new.owner_daemon_instance_id = old.owner_daemon_instance_id) ∧
    ∀ other, new.owner_daemon_instance_id = some other →
      old.owner_daemon_instance_id = some other ∨ ∃ lease, files.lease = some lease ∧
        lease.daemon_instance_id = some other ∧
        (lease.generation = 0 ∨ lease.generation = old.generation)
  unmounted : new.phase = .unmounted → ∀ other, new.owner_daemon_instance_id = some other →
    (∃ old, files.lifecycle = some old ∧ old.phase = .unmounted ∧
      old.owner_daemon_instance_id = some other) ∨
    ∃ lease, files.lease = some lease ∧ lease.daemon_instance_id = some other

/-- A new lifecycle beside the lease that is there. -/
theorem standing_lifecycle (hs : Standing alive files app generation) {new : CcbdLifecycle}
    (hlease : files'.lease = files.lease) (hlifecycle : files'.lifecycle = some new)
    (htransaction : ∀ fence, app.expected_startup_fence = some fence →
      new.startup_id = some fence.startup_id → new.generation = fence.generation →
        Transaction alive files app.daemon_instance_id new)
    (hunmounted : new.phase = .unmounted → ∀ other, new.owner_daemon_instance_id = some other →
      ∃ lease, files.lease = some lease ∧ lease.daemon_instance_id = some other) :
    Standing alive files' app generation := by
  have hsame : ∀ {current}, files'.lifecycle = some current → current = new := fun hcurrent =>
    Option.some.inj (hcurrent.symm.trans hlifecycle)
  refine { positive := hs.positive, found := by rw [hlifecycle]; exact Option.some_ne_none _,
           claimed := hs.claimed, transaction := ?_, unmounted := ?_, holder := hlease ▸ hs.holder }
  · intro fence current hfence hcurrent hid hgeneration
    rw [hsame hcurrent] at hid hgeneration ⊢
    have hnew := htransaction fence hfence hid hgeneration
    exact ⟨hnew.owner, hnew.starting, hlease ▸ hnew.lease⟩
  · intro current other hcurrent hphase howner
    rw [hsame hcurrent] at hphase howner
    rw [hlease]
    exact hunmounted hphase other howner

theorem standing_follows (hs : Standing alive files app generation) {new : CcbdLifecycle}
    (hlease : files'.lease = files.lease) (hlifecycle : files'.lifecycle = some new)
    (hfollows : Follows files new) : Standing alive files' app generation := by
  refine standing_lifecycle hs hlease hlifecycle ?_ ?_
  · intro fence hfence hid hgeneration
    obtain ⟨old, hold, holdId, hequal, hstarting, howner⟩ := hfollows.startup _ hid
    have hbefore := hs.transaction fence old hfence hold holdId (hequal.trans hgeneration)
    refine { owner := ?_, starting := ?_, lease := ?_ }
    · intro other hother halive
      rcases howner other hother with hold' | ⟨lease, hnow, hholder, hzero | hown⟩
      · exact hbefore.owner other hold' halive
      · have hpositive := hs.holder lease other hnow hholder halive
        omega
      · have hmine := hbefore.lease lease hnow hown
        exact Option.some.inj (hholder.symm.trans hmine)
    · intro hphase
      obtain ⟨holdPhase, hkept⟩ := hstarting hphase
      rw [hkept]
      exact hbefore.starting holdPhase
    · exact fun lease hnow hown => hbefore.lease lease hnow (hown.trans hequal.symm)
  · intro hphase other howner
    rcases hfollows.unmounted hphase other howner with ⟨old, hold, holdPhase, holdOwner⟩ | hheld
    · exact hs.unmounted old other hold holdPhase holdOwner
    · exact hheld

theorem standing_spawned (hs : Standing alive files app generation) {new : CcbdLifecycle}
    (hlease : files'.lease = files.lease) (hlifecycle : files'.lifecycle = some new)
    (hnew : ∀ fence, app.expected_startup_fence = some fence →
      new.startup_id ≠ some fence.startup_id)
    (hphase : new.phase ≠ .unmounted) : Standing alive files' app generation := by
  refine standing_lifecycle hs hlease hlifecycle ?_ fun hunmounted => absurd hunmounted hphase
  exact fun fence hfence hid _ => absurd hid (hnew fence hfence)

/-- What a daemon has checked before it claims a lifecycle. -/
structure Claimed (files : Files) (id : DaemonId) (new : CcbdLifecycle) : Prop where
  phase : new.phase = .starting
  owner : new.owner_daemon_instance_id = some id
  startup : ∀ startup_id, new.startup_id = some startup_id → ∃ old, files.lifecycle = some old ∧
    old.startup_id = some startup_id ∧ old.generation = new.generation ∧
    (old.owner_daemon_instance_id = some id ∨
      old.owner_daemon_instance_id = none ∧ old.phase = .starting)
  lease : ∀ startup_id, new.startup_id = some startup_id → ∀ lease, files.lease = some lease →
    lease.generation = new.generation → lease.daemon_instance_id = some id

variable {id : DaemonId}

/-- A claim is refused to all but the owner of the transaction. -/
theorem standing_claimed (hs : Standing alive files app generation) (halive : alive id)
    {new : CcbdLifecycle} (hlease : files'.lease = files.lease)
    (hlifecycle : files'.lifecycle = some new) (hclaimed : Claimed files id new) :
    Standing alive files' app generation := by
  refine standing_lifecycle hs hlease hlifecycle ?_ fun hunmounted => by
    rw [hclaimed.phase] at hunmounted
    cases hunmounted
  intro fence hfence hid hgeneration
  obtain ⟨old, hold, holdId, hequal, howner⟩ := hclaimed.startup _ hid
  have hbefore := hs.transaction fence old hfence hold holdId (hequal.trans hgeneration)
  have hmine : id = app.daemon_instance_id := by
    rcases howner with hself | ⟨hnobody, hstarting⟩
    · exact hbefore.owner id hself halive
    · have hsome := hbefore.starting hstarting
      rw [hnobody] at hsome
      cases hsome
  refine { owner := ?_, starting := ?_, lease := ?_ }
  · intro other hother _
    have hnow := Option.some.inj (hother.symm.trans hclaimed.owner)
    exact hnow.trans hmine
  · intro _
    rw [hclaimed.owner, hmine]
  · exact fun lease hnow hown => hbefore.lease lease hnow (hown.trans hequal.symm)

theorem standing_of_claimed (hpositive : 0 < generation) {new : CcbdLifecycle}
    (hlifecycle : files'.lifecycle = some new) (hlease : files'.lease = files.lease)
    (hclaimed : Claimed files app.daemon_instance_id new)
    (hfence : ∀ fence, app.expected_startup_fence = some fence → fence.generation = generation)
    (hholder : ∀ lease other, files.lease = some lease → lease.daemon_instance_id = some other →
      alive other → 0 < lease.generation) : Standing alive files' app generation := by
  refine { positive := hpositive, found := by rw [hlifecycle]; exact Option.some_ne_none _,
           claimed := hfence, transaction := ?_, unmounted := ?_, holder := hlease ▸ hholder }
  · intro fence current _ hcurrent hid _
    have hsame : current = new := Option.some.inj (hcurrent.symm.trans hlifecycle)
    subst hsame
    refine { owner := ?_, starting := fun _ => hclaimed.owner, lease := ?_ }
    · intro other hother _
      exact Option.some.inj (hother.symm.trans hclaimed.owner)
    · intro lease hnow hown
      exact hclaimed.lease _ hid lease (hlease ▸ hnow) hown
  · intro current other hcurrent hunmounted _
    have hsame : current = new := Option.some.inj (hcurrent.symm.trans hlifecycle)
    rw [hsame, hclaimed.phase] at hunmounted
    cases hunmounted

theorem standing_memory (hs : Standing alive files app generation) {app' : DaemonApp}
    (hfence : app'.expected_startup_fence = app.expected_startup_fence)
    (hid : app'.daemon_instance_id = app.daemon_instance_id) :
    Standing alive files app' generation :=
  { positive := hs.positive
    found := hs.found
    claimed := fun fence hsome => hs.claimed fence (hfence.symm.trans hsome)
    transaction := fun fence lifecycle hsome hfound => by
      rw [hid]
      exact hs.transaction fence lifecycle (hfence.symm.trans hsome) hfound
    unmounted := hs.unmounted
    holder := hs.holder }

theorem standing_fewer (hs : Standing alive files app generation) {alive' : DaemonId → Prop}
    (hfewer : ∀ other, alive' other → alive other) : Standing alive' files app generation :=
  { positive := hs.positive
    found := hs.found
    claimed := hs.claimed
    transaction := fun fence lifecycle hfence hfound hid hgeneration =>
      have hbefore := hs.transaction fence lifecycle hfence hfound hid hgeneration
      { owner := fun other howner hother => hbefore.owner other howner (hfewer other hother)
        starting := hbefore.starting
        lease := hbefore.lease }
    unmounted := hs.unmounted
    holder := fun lease other hlease hholder hother =>
      hs.holder lease other hlease hholder (hfewer other hother) }

theorem follows_of_none {new : CcbdLifecycle} (hid : new.startup_id = none)
    (hphase : new.phase = .unmounted → new.owner_daemon_instance_id = none) :
    Follows files new := by
  refine { startup := ?_, unmounted := ?_ }
  · intro startup_id hsome
    rw [hid] at hsome
    cases hsome
  · intro hunmounted other howner
    rw [hphase hunmounted] at howner
    cases howner

/-- A lifecycle follows where its owner stays or leaves, and it does not start again. -/
theorem follows_of_same {old new : CcbdLifecycle} (hold : files.lifecycle = some old)
    (hid : new.startup_id = old.startup_id) (hgeneration : new.generation = old.generation)
    (howner : new.owner_daemon_instance_id = old.owner_daemon_instance_id ∧ new.phase = old.phase ∨
      new.owner_daemon_instance_id = old.owner_daemon_instance_id ∧ new.phase ≠ .starting ∧
        new.phase ≠ .unmounted ∨
      new.owner_daemon_instance_id = none ∧ new.phase ≠ .starting) : Follows files new := by
  refine { startup := ?_, unmounted := ?_ }
  · intro startup_id hsome
    refine ⟨old, hold, hid.symm.trans hsome, hgeneration.symm, ?_, ?_⟩
    · intro hstarting
      rcases howner with ⟨hsame, hphase⟩ | ⟨_, hphase, _⟩ | ⟨_, hphase⟩
      · exact ⟨hphase.symm.trans hstarting, hsame⟩
      · exact absurd hstarting hphase
      · exact absurd hstarting hphase
    · intro other hother
      rcases howner with ⟨hsame, _⟩ | ⟨hsame, _⟩ | ⟨hnone, _⟩
      · exact Or.inl (hsame.symm.trans hother)
      · exact Or.inl (hsame.symm.trans hother)
      · rw [hnone] at hother
        cases hother
  · intro hunmounted other hother
    rcases howner with ⟨hsame, hphase⟩ | ⟨_, _, hphase⟩ | ⟨hnone, _⟩
    · exact Or.inl ⟨old, hold, hphase.symm.trans hunmounted, hsame.symm.trans hother⟩
    · exact absurd hunmounted hphase
    · rw [hnone] at hother
      cases hother

theorem follows_of_holder {old new : CcbdLifecycle} {lease : CcbdLease}
    (hold : files.lifecycle = some old) (hlease : files.lease = some lease)
    (hid : new.startup_id = old.startup_id) (hgeneration : new.generation = old.generation)
    (hsame : lease.generation = 0 ∨ lease.generation = old.generation)
    (howner : new.owner_daemon_instance_id = lease.daemon_instance_id)
    (hphase : new.phase = .mounted) : Follows files new := by
  refine { startup := ?_, unmounted := ?_ }
  · intro startup_id hsome
    refine ⟨old, hold, hid.symm.trans hsome, hgeneration.symm, ?_, ?_⟩
    · intro hstarting
      rw [hphase] at hstarting
      cases hstarting
    · intro other hother
      exact Or.inr ⟨lease, hlease, howner.symm.trans hother, hsame⟩
  · intro hunmounted
    rw [hphase] at hunmounted
    cases hunmounted

variable {u : Unit}

theorem validate_checks_ok {rejected : String} {checks : List (Bool × String)} :
    validate_checks rejected checks = .ok u ↔ ∀ check ∈ checks, check.1 = true := by
  unfold validate_checks
  cases hfind : checks.find? fun check => !check.1 with
  | none => simpa using hfind
  | some check =>
    have hfailed := List.find?_some hfind
    simp only [Bool.not_eq_true'] at hfailed
    refine iff_of_false (fun hok => by cases hok) fun hall => ?_
    rw [hall check (List.mem_of_find?_eq_some hfind)] at hfailed
    cases hfailed

structure StartingOwner (app : DaemonApp) (lifecycle : CcbdLifecycle) (generation : ℕ) : Prop where
  desired_state : lifecycle.desired_state = .running
  phase : lifecycle.phase = .starting
  same_generation : lifecycle.generation = generation
  owner : lifecycle.owner_daemon_instance_id = some app.daemon_instance_id

variable {found : Option CcbdLifecycle}

theorem startingOwner_of (h : validate_starting_owner app found generation = .ok lifecycle) :
    found = some lifecycle ∧ StartingOwner app lifecycle generation := by
  simp only [validate_starting_owner, bind_ok, valueOr_ok, pure_ok, validate_checks_ok] at h
  obtain ⟨found', hfound, _, hchecks, hsame⟩ := h
  subst hsame
  simp at hchecks
  exact ⟨hfound, ⟨hchecks.1, hchecks.2.1, hchecks.2.2.1, hchecks.2.2.2.2.1⟩⟩

/-- The lifecycle of the transaction that a daemon was started for. -/
structure ExpectedStartup (app : DaemonApp) (fence : ExpectedStartupFence)
    (lifecycle : CcbdLifecycle) : Prop where
  project_id : lifecycle.project_id = app.project_id
  desired_state : lifecycle.desired_state = .running
  phase : lifecycle.phase = .starting
  startup_id : lifecycle.startup_id = some fence.startup_id
  same_generation : lifecycle.generation = fence.generation

theorem expectedStartup_of {fence : ExpectedStartupFence}
    (h : validate_expected_startup_lifecycle app fence found = .ok lifecycle) :
    found = some lifecycle ∧ ExpectedStartup app fence lifecycle := by
  simp only [validate_expected_startup_lifecycle, bind_ok, valueOr_ok, pure_ok,
    validate_checks_ok] at h
  obtain ⟨found', hfound, _, hchecks, hsame⟩ := h
  subst hsame
  simp at hchecks
  exact ⟨hfound, ⟨hchecks.1, hchecks.2.1, hchecks.2.2.1, hchecks.2.2.2.1, hchecks.2.2.2.2.1⟩⟩

structure StartupAuthority (app : DaemonApp) (lifecycle : CcbdLifecycle)
    (lease : Option CcbdLease) (generation : ℕ) : Prop where
  startup_id : ∀ fence, app.expected_startup_fence = some fence →
    lifecycle.startup_id = some fence.startup_id
  desired_state : lifecycle.desired_state = .running
  same_generation : lifecycle.generation = generation
  owner : lifecycle.owner_daemon_instance_id = some app.daemon_instance_id
  lease : ∃ current, lease = some current ∧ current.generation = generation ∧
    current.daemon_instance_id = some app.daemon_instance_id ∧ current.mount_state = .mounted

theorem startupAuthority_of {lease : Option CcbdLease}
    (h : validate_current_startup_authority app found lease generation = .ok lifecycle) :
    found = some lifecycle ∧ StartupAuthority app lifecycle lease generation := by
  simp only [validate_current_startup_authority, validate_lease_holder, bind_ok, valueOr_ok,
    pure_ok, refuseIf_ok, validate_checks_ok] at h
  obtain ⟨_, hfence, found', hfound, _, hchecks, _, ⟨current, hlease, hheld⟩, hsame⟩ := h
  subst hsame
  simp at hchecks hheld
  refine ⟨hfound, ⟨?_, hchecks.2.1, hchecks.2.2.2.1, hchecks.2.2.2.2.2.1, ?_⟩⟩
  · intro fence hsome
    simp only [hsome, hfound, Option.any_some, Option.bind_some, decide_eq_true_eq, not_not,
      ne_eq] at hfence
    exact hfence
  · exact ⟨current, hlease, hheld.2.1, hheld.2.2.2.1, hheld.2.2.2.2.2⟩

variable {others : DaemonId → Option DaemonApp} {h : Home} {answers : Answers}

/-- What holds of all daemons while one of them works. -/
structure Stands (alive : DaemonId → Prop) (others : DaemonId → Option DaemonApp)
    (id : DaemonId) (h : Home) : Prop where
  others : ∀ other app generation, other ≠ id → others other = some app →
    app.startup_generation = some generation → Standing alive h.files app generation
  self : ∀ generation, h.app.startup_generation = some generation →
    Standing alive h.files h.app generation

theorem Stands.write (hs : Stands alive others id h) (files : Files)
    (hstep : ∀ app generation, Standing alive h.files app generation →
      Standing alive files app generation) :
    Stands alive others id { h with files := files } :=
  { others := fun other app generation hne hother hclaim =>
      hstep app generation (hs.others other app generation hne hother hclaim)
    self := fun generation hclaim => hstep h.app generation (hs.self generation hclaim) }

theorem Stands.memory (hs : Stands alive others id h) (lease : Option CcbdLease) :
    Stands alive others id { h with app := { h.app with lease := lease } } :=
  { others := hs.others
    self := fun generation hclaim => standing_memory (hs.self generation hclaim) rfl rfl }

/-- Every stop of a region keeps what holds of all daemons, and so does its end. -/
abbrev Keeps {α : Type} (alive : DaemonId → Prop) (others : DaemonId → Option DaemonApp)
    (id : DaemonId) (call : DaemonCall α) (h : Home) : Prop :=
  Along (fun _ _ => True) (Stands alive others id) call (fun _ => Stands alive others id) h

section

variable (hs : Stands alive others id h)

include hs

theorem keeps_save_lifecycle {new : CcbdLifecycle}
    (hfollows : Follows h.files new) : Keeps alive others id (save_lifecycle new) h := by
  have hafter : Stands alive others id
      { h with files := { h.files with lifecycle := some new } } :=
    hs.write _ fun app generation hstanding => standing_follows hstanding rfl rfl hfollows
  exact fun _ => ⟨hafter, hafter⟩

theorem keeps_set_lease (lease : Option CcbdLease) : Keeps alive others id (set_lease lease) h :=
  fun _ => ⟨hs.memory lease, hs.memory lease⟩

theorem stands_save_lease {old : CcbdLease} (new : CcbdLease)
    (hold : h.files.lease = some old) (hheld : held new = held old) :
    Stands alive others id { h with files := { h.files with
      lease := some new
      written := h.files.written ++ [(h.app.daemon_instance_id, new)] } } := by
  refine hs.write _ fun app generation hstanding => standing_lease hstanding ?_ rfl
  rw [hold]
  exact congrArg some hheld

theorem keeps_update_startup_progress (stage : StartupStage) :
    Keeps alive others id (update_startup_progress stage) h := by
  refine along_reads_bind hs (along_ofExcept_bind fun lifecycle hok => ?_)
  have hfound : h.files.lifecycle = some lifecycle := by
    cases hfence : h.app.expected_startup_fence with
    | some fence =>
      simp only [hfence] at hok
      exact (expectedStartup_of hok).1
    | none =>
      simp only [hfence, bind_ok] at hok
      obtain ⟨_, _, hok⟩ := hok
      exact (startingOwner_of hok).1
  exact keeps_save_lifecycle hs (follows_of_same hfound rfl rfl (Or.inl ⟨rfl, rfl⟩))

theorem keeps_mark_lifecycle_failed (failure_reason : Text) :
    Keeps alive others id (mark_lifecycle_failed failure_reason) h := by
  refine along_reads_bind hs ?_
  cases hfound : h.files.lifecycle with
  | none => exact hs
  | some lifecycle =>
    refine along_read_bind hs (Along.ite (fun _ => ?_) fun _ => hs)
    refine keeps_save_lifecycle hs (follows_of_same hfound rfl rfl (Or.inr (Or.inr ⟨rfl, ?_⟩)))
    exact Phase.noConfusion

theorem keeps_mark_lifecycle_stopping (shutdown_intent : Text) :
    Keeps alive others id (mark_lifecycle_stopping shutdown_intent) h := by
  refine along_reads_bind hs (keeps_save_lifecycle hs ?_)
  cases hfound : h.files.lifecycle with
  | none => exact follows_of_none rfl Phase.noConfusion
  | some lifecycle =>
    refine follows_of_same hfound rfl rfl (Or.inr (Or.inl ⟨rfl, ?_, ?_⟩))
    · exact Phase.noConfusion
    · exact Phase.noConfusion

theorem keeps_mark_lifecycle_unmounted (desired_state : DesiredState) :
    Keeps alive others id (mark_lifecycle_unmounted desired_state) h := by
  refine along_reads_bind hs (Along.ite (fun _ => hs) fun _ => ?_)
  refine Along.ite (fun _ => hs) fun _ => keeps_save_lifecycle hs ?_
  cases hfound : h.files.lifecycle with
  | none => exact follows_of_none rfl fun _ => rfl
  | some lifecycle =>
    refine follows_of_same hfound rfl rfl (Or.inr (Or.inr ⟨rfl, ?_⟩))
    exact Phase.noConfusion

theorem keeps_record_heartbeat_failures
    (failures : Option Text) : Keeps alive others id (record_heartbeat_failures failures) h := by
  refine along_read_bind hs ?_
  cases hfound : h.files.lifecycle with
  | none => exact hs
  | some lifecycle =>
    refine Along.ite (fun _ => ?_) fun _ => hs
    exact keeps_save_lifecycle hs (follows_of_same hfound rfl rfl (Or.inl ⟨rfl, rfl⟩))

end

def Remembers (h : Home) : Prop :=
  ∀ lease, h.files.lease = some lease →
    lease.daemon_instance_id = some h.app.daemon_instance_id →
      lease.ccbd_pid = h.app.pid ∧ h.app.lease.map CcbdLease.generation = some lease.generation

section

variable (hs : Stands alive others id h)

include hs

theorem keeps_runtime_bootstrap_complete (hknown : Remembers h) :
    Keeps alive others id (mark_runtime_bootstrap_complete answers) h := by
  refine along_read_bind hs (along_ofExcept_bind fun _ hpositive => ?_)
  refine along_reads_bind hs (along_ofExcept_bind fun lifecycle hok => ?_)
  obtain ⟨hfound, hauthority⟩ := startupAuthority_of hok
  obtain ⟨lease, hlease, hequal, hholder, _⟩ := hauthority.lease
  rw [refuseIf_ok] at hpositive
  -- the daemon has the lease in mind that it published, with the generation of its start
  have hgeneration : (mounted_lifecycle answers h.app lifecycle).generation = lifecycle.generation := by
    have hmind := (hknown lease hlease hholder).2
    rw [Option.map_eq_some_iff] at hmind
    obtain ⟨known, hsome, hsame⟩ := hmind
    show positive_or (h.app.lease.elim 0 CcbdLease.generation) lifecycle.generation = _
    rw [hsome, Option.elim_some, hsame, hequal, hauthority.same_generation, positive_or,
      if_neg hpositive]
  refine keeps_save_lifecycle hs (follows_of_same hfound rfl hgeneration (Or.inr (Or.inl ?_)))
  exact ⟨hauthority.owner.symm, Phase.noConfusion,
    Phase.noConfusion⟩

theorem keeps_publish_mounted :
    Keeps alive others id (publish_mounted_after_bootstrap_probe answers) h := by
  refine along_read_bind hs (along_ofExcept_bind fun _ hpositive => along_read_bind hs ?_)
  refine along_ofExcept_bind fun _ _ => along_read_bind hs ?_
  refine along_ofExcept_bind fun _ _ => along_ofExcept_bind fun lifecycle hok => ?_
  obtain ⟨hfound, hstarting⟩ := startingOwner_of hok
  rw [refuseIf_ok] at hpositive
  have hmounted : Stands alive others id { h with files := { h.files with
      lease := some (mounted_lease answers h.app (h.app.startup_generation.getD 0))
      written := h.files.written ++ [(h.app.daemon_instance_id,
        mounted_lease answers h.app (h.app.startup_generation.getD 0))] } } := by
    refine hs.write _ fun app generation hstanding => ?_
    exact standing_mounted hstanding rfl rfl hfound hstarting.phase (Nat.pos_of_ne_zero hpositive)
      hstarting.owner
  refine Along.bind fun _ => ⟨hmounted, ?_⟩
  refine Along.bind (Along.mono (keeps_save_lifecycle hmounted ?_) fun _ h' hs' =>
    keeps_set_lease hs' _)
  refine follows_of_same hfound rfl hstarting.same_generation.symm (Or.inl ?_)
  exact ⟨hstarting.owner.symm, hstarting.phase.symm⟩

theorem keeps_refresh_heartbeat : Keeps alive others id (refresh_heartbeat answers) h := by
  refine along_reads_bind hs (along_ofExcept_bind fun lease hlease => ?_)
  rw [valueOr_ok] at hlease
  refine Along.ite (fun _ => hs) fun _ => along_ofExcept_bind fun _ _ => ?_
  refine Along.ite (fun _ => Along.bind fun _ => ?_) fun _ => hs
  have hafter := stands_save_lease hs { lease with last_heartbeat_at := answers.now } hlease rfl
  exact ⟨hafter, hafter⟩

theorem keeps_heartbeat (failures : Option Text) :
    Keeps alive others id (heartbeat answers failures) h := by
  refine along_reads_bind hs (Along.ite (fun _ => hs) fun _ => ?_)
  refine along_read_bind hs (along_ofExcept_bind fun _ _ => ?_)
  refine Along.bind (Along.mono (keeps_refresh_heartbeat hs) fun lease h' hs' => ?_)
  refine Along.bind (Along.mono (keeps_set_lease hs' _) fun _ h'' hs'' => ?_)
  exact keeps_record_heartbeat_failures hs'' failures

theorem keeps_update_lease_signature (config_signature : Text)
    (expected_generation : ℕ) : Keeps alive others id
      (update_current_lease_config_signature answers config_signature expected_generation) h := by
  refine along_reads_bind hs (along_ofExcept_bind fun lease hlease => ?_)
  rw [valueOr_ok] at hlease
  refine along_ofExcept_bind fun _ _ => along_ofExcept_bind fun _ _ => ?_
  refine along_ofExcept_bind fun _ _ => along_ofExcept_bind fun _ _ => fun _ => ?_
  have hafter := stands_save_lease hs { lease with
    config_signature := some config_signature
    last_heartbeat_at := answers.now } hlease rfl
  exact ⟨hafter, hafter⟩

theorem keeps_update_lifecycle_signature
    (config_signature : Text) (expected_generation : ℕ) : Keeps alive others id
      (update_mounted_lifecycle_config_signature answers config_signature expected_generation)
      h := by
  refine along_reads_bind hs (along_ofExcept_bind fun lifecycle hok => ?_)
  refine along_ofExcept_bind fun _ _ => ?_
  simp only [assert_mounted_lifecycle_signature_handoff, bind_ok, valueOr_ok, refuseIf_ok, pure_ok,
    not_not] at hok
  obtain ⟨found, hfound, _, _, _, _, _, _, _, howner, hsame⟩ := hok
  subst hsame
  exact keeps_save_lifecycle hs
    (follows_of_same hfound rfl rfl (Or.inl ⟨howner.symm, rfl⟩))

theorem keeps_sync_lifecycle_namespace_epoch (epoch : ℕ) :
    Keeps alive others id (sync_lifecycle_namespace_epoch epoch) h := by
  refine along_read_bind hs ?_
  cases hfound : h.files.lifecycle with
  | none => exact hs
  | some lifecycle =>
    refine along_read_bind hs (Along.ite (fun _ => ?_) fun _ => hs)
    exact keeps_save_lifecycle hs (follows_of_same hfound rfl rfl (Or.inl ⟨rfl, rfl⟩))

theorem keeps_mark_current_daemon_unmounted :
    Keeps alive others id (mark_current_daemon_unmounted answers) h := by
  refine along_reads_bind hs ?_
  cases hlease : h.files.lease with
  | none => exact hs
  | some lease =>
    cases hholder : assert_expected_holder h.app lease with
    | error e =>
      simp only [hholder]
      exact hs
    | ok u =>
      simp only [hholder]
      have hafter := stands_save_lease hs { lease with
        mount_state := .unmounted
        last_heartbeat_at := answers.now } hlease rfl
      exact Along.bind fun _ => ⟨hafter, hafter⟩

theorem keeps_release_backend_ownership (desired_state : DesiredState) :
    Keeps alive others id (release_backend_ownership answers desired_state) h := by
  refine along_read_bind hs ?_
  refine Along.bind (Along.mono (keeps_mark_current_daemon_unmounted hs) fun lease h' hs' => ?_)
  refine along_read_bind hs' (along_read_bind hs' ?_)
  refine Along.ite (fun _ => ?_) fun _ => keeps_set_lease hs' _
  refine Along.bind (Along.mono (keeps_mark_lifecycle_unmounted hs' desired_state) ?_)
  exact fun _ h'' hs'' => keeps_set_lease hs'' _

end

theorem legacy_startup_generation_pos (lifecycle : CcbdLifecycle) (verified : ℕ) :
    0 < legacy_startup_generation lifecycle verified := by
  unfold legacy_startup_generation
  split
  · rename_i hstarting
    exact lt_of_lt_of_le hstarting.2 (Nat.le_max_right _ _)
  · split
    · omega
    · omega

/-- A lifecycle that a daemon may claim for its fence has no owner and starts, or it is its
own already. -/
theorem available_of (h : validate_starting_owner_available app lifecycle none = .ok u) :
    lifecycle.owner_pid = none ∧ lifecycle.owner_daemon_instance_id = none ∨
      lifecycle.owner_daemon_instance_id = some app.daemon_instance_id := by
  unfold validate_starting_owner_available at h
  by_cases hnobody : lifecycle.owner_pid = none ∧ lifecycle.owner_daemon_instance_id = none
  · exact Or.inl hnobody
  rw [if_neg hnobody] at h
  by_cases hself : lifecycle.owner_pid = some app.pid
      ∧ lifecycle.owner_daemon_instance_id = some app.daemon_instance_id
  · exact Or.inr hself.2
  · rw [if_neg hself] at h
    cases h

theorem reset_crashed_owner (answers : Answers) (lifecycle : CcbdLifecycle) :
    (reset_crashed answers lifecycle).owner_daemon_instance_id =
        lifecycle.owner_daemon_instance_id ∧
      (reset_crashed answers lifecycle).owner_pid = lifecycle.owner_pid ∧
      (reset_crashed answers lifecycle).startup_id = lifecycle.startup_id ∧
      (reset_crashed answers lifecycle).generation = lifecycle.generation := by
  unfold reset_crashed
  split
  · exact ⟨rfl, rfl, rfl, rfl⟩
  · exact ⟨rfl, rfl, rfl, rfl⟩

theorem reset_crashed_of_nobody (h : lifecycle.owner_pid = none) :
    reset_crashed answers lifecycle = lifecycle := by
  unfold reset_crashed
  rw [h]
  exact if_neg fun hcrashed => Bool.noConfusion hcrashed.2

/-- What a daemon has checked once it has a generation to start with. -/
structure MayClaim (files : Files) (app : DaemonApp) (lifecycle : CcbdLifecycle)
    (generation : ℕ) : Prop where
  positive : 0 < generation
  fence : ∀ fence, app.expected_startup_fence = some fence → fence.generation = generation
  claimed : Claimed files app.daemon_instance_id (starting_owner_claim app lifecycle generation)

theorem mayClaim_of_fence {fence : ExpectedStartupFence} {v : Unit}
    (hfence : app.expected_startup_fence = some fence)
    (hexpected : validate_expected_startup_lifecycle app fence
      (files.lifecycle.map (reset_crashed answers)) = .ok lifecycle)
    (havailable : validate_starting_owner_available app lifecycle none = .ok u)
    (hallowed : assert_expected_claim_allowed answers app fence.generation files.lease = .ok v) :
    MayClaim files app lifecycle fence.generation := by
  obtain ⟨hmap, hstartup⟩ := expectedStartup_of hexpected
  rw [Option.map_eq_some_iff] at hmap
  obtain ⟨old, hold, hreset⟩ := hmap
  obtain ⟨howner, hpid, hid, hgeneration⟩ := reset_crashed_owner answers old
  rw [hreset] at howner hpid hid hgeneration
  have hnewId : (starting_owner_claim app lifecycle fence.generation).startup_id =
      some fence.startup_id := by
    simp only [starting_owner_claim, hfence, Option.map_some]
  refine { positive := (claimed_of_expected hallowed).1, fence := ?_, claimed := ?_ }
  · intro other hother
    rw [Option.some.inj (hother.symm.trans hfence)]
  refine { phase := rfl, owner := rfl, startup := ?_, lease := ?_ }
  · intro startup_id hsome
    refine ⟨old, hold, ?_, hgeneration.symm.trans hstartup.same_generation, ?_⟩
    · rw [← hid, hstartup.startup_id, ← hnewId]
      exact hsome
    · rcases available_of havailable with ⟨hnobody, hnone⟩ | hself
      · refine Or.inr ⟨howner.symm.trans hnone, ?_⟩
        have hsame : lifecycle = old := by
          rw [← hreset]
          exact reset_crashed_of_nobody (hpid.symm.trans hnobody)
        rw [← hsame]
        exact hstartup.phase
      · exact Or.inl (howner.symm.trans hself)
  · intro _ _ lease hlease hequal
    rcases (claimed_of_expected hallowed).2 lease hlease with ⟨hmine, _⟩ | hbelow
    · exact hmine
    · have hsame : lease.generation = fence.generation := hequal
      omega

theorem mayClaim_of_legacy (hfence : app.expected_startup_fence = none)
    (lifecycle : CcbdLifecycle) (verified : ℕ) :
    MayClaim files app lifecycle (legacy_startup_generation lifecycle verified) := by
  have hnone : (starting_owner_claim app lifecycle
      (legacy_startup_generation lifecycle verified)).startup_id = none := by
    simp only [starting_owner_claim, hfence, Option.map_none]
  refine { positive := legacy_startup_generation_pos _ _, fence := ?_, claimed := ?_ }
  · intro fence hsome
    rw [hfence] at hsome
    cases hsome
  refine { phase := rfl, owner := rfl, startup := ?_, lease := ?_ }
  · intro startup_id hsome
    rw [hnone] at hsome
    cases hsome
  · intro startup_id hsome
    rw [hnone] at hsome
    cases hsome

theorem keeps_startup_generation_of (hs : Stands alive others id h) :
    Along (fun _ _ => True) (Stands alive others id) (startup_generation_of answers)
      (fun claim h' => h' = h ∧ MayClaim h.files h.app claim.1 claim.2) h := by
  refine along_read_bind hs ?_
  cases hfence : h.app.expected_startup_fence with
  | none =>
    simp only
    refine along_read_bind hs (along_ofExcept_bind fun _ _ => along_read_bind hs ?_)
    refine along_ofExcept_bind fun verified _ => along_ofExcept_bind fun _ _ => ?_
    exact ⟨rfl, mayClaim_of_legacy hfence _ verified⟩
  | some fence =>
    simp only
    refine along_read_bind hs (along_ofExcept_bind fun lifecycle hexpected => ?_)
    refine along_ofExcept_bind fun _ havailable => along_read_bind hs ?_
    refine along_ofExcept_bind fun _ hallowed => ?_
    exact ⟨rfl, mayClaim_of_fence hfence hexpected havailable hallowed⟩

theorem keeps_claim_starting (hs : Stands alive others id h)
    (halive : alive h.app.daemon_instance_id)
    (hholder : ∀ lease other, h.files.lease = some lease →
      lease.daemon_instance_id = some other → alive other → 0 < lease.generation) :
    Keeps alive others id (claim_starting answers) h := by
  refine Along.bind (Along.mono (keeps_startup_generation_of hs) fun claim h' hclaim => ?_)
  obtain ⟨rfl, hmay⟩ := hclaim
  refine along_ofExcept_bind fun _ _ => along_read_bind hs ?_
  have hsaved : Stands alive others id { h' with files := { h'.files with
      lifecycle := some (starting_owner_claim h'.app claim.1 claim.2) } } := by
    refine hs.write _ fun app generation hstanding => ?_
    exact standing_claimed hstanding halive rfl rfl hmay.claimed
  refine Along.bind fun _ => ⟨hsaved, ?_⟩
  have hstarted : Stands alive others id { h' with
      files := { h'.files with
        lifecycle := some (starting_owner_claim h'.app claim.1 claim.2) }
      app := { h'.app with startup_generation := some claim.2 } } := by
    refine { others := hsaved.others, self := fun generation hgeneration => ?_ }
    have hsame : claim.2 = generation := Option.some.inj hgeneration
    subst hsame
    refine @standing_memory alive _ h'.app claim.2 ?_ _ rfl rfl
    refine standing_of_claimed hmay.positive rfl ?_ hmay.claimed hmay.fence hholder
    rfl
  exact fun _ => ⟨hstarted, hstarted⟩

theorem keeps_region (region : DaemonRegion) (hs : Stands alive others id h)
    (hknown : Remembers h) (halive : alive h.app.daemon_instance_id)
    (hholder : ∀ lease other, h.files.lease = some lease →
      lease.daemon_instance_id = some other → alive other → 0 < lease.generation) :
    Keeps alive others id (region.call answers) h := by
  cases region with
  | claim_starting => exact keeps_claim_starting hs halive hholder
  | update_startup_progress stage => exact keeps_update_startup_progress hs stage
  | publish_mounted => exact keeps_publish_mounted hs
  | runtime_bootstrap_complete => exact keeps_runtime_bootstrap_complete hs hknown
  | mark_failed failure_reason => exact keeps_mark_lifecycle_failed hs failure_reason
  | mark_stopping shutdown_intent => exact keeps_mark_lifecycle_stopping hs shutdown_intent
  | heartbeat failures => exact keeps_heartbeat hs failures
  | release_backend_ownership desired_state =>
    exact keeps_release_backend_ownership hs desired_state
  | update_lease_signature config_signature expected_generation =>
    exact keeps_update_lease_signature hs config_signature expected_generation
  | update_lifecycle_signature config_signature expected_generation =>
    exact keeps_update_lifecycle_signature hs config_signature expected_generation
  | sync_namespace_epoch epoch => exact keeps_sync_lifecycle_namespace_epoch hs epoch

variable {daemon : DaemonId → Option DaemonApp} {w : Files}

/-- What holds of all daemons while none of them works. -/
def StandsAll (alive : DaemonId → Prop) (daemon : DaemonId → Option DaemonApp)
    (files : Files) : Prop :=
  ∀ other app generation, daemon other = some app → app.startup_generation = some generation →
    Standing alive files app generation

abbrev KeepsAll {α : Type} (alive : DaemonId → Prop) (daemon : DaemonId → Option DaemonApp)
    (call : KeeperCall α) (w : Files) : Prop :=
  Along (fun _ _ => True) (StandsAll alive daemon) call (fun _ => StandsAll alive daemon) w

theorem stands_save_lifecycle_file (hs : StandsAll alive daemon w) {new : CcbdLifecycle}
    (hfollows : Follows w new) : StandsAll alive daemon { w with lifecycle := some new } :=
  fun other app generation hother hclaim =>
    standing_follows (hs other app generation hother hclaim) rfl rfl hfollows

theorem keeps_save_lifecycle_file (hs : StandsAll alive daemon w) {new : CcbdLifecycle}
    (hfollows : Follows w new) : KeepsAll alive daemon (save_lifecycle_file new) w :=
  fun _ => ⟨stands_save_lifecycle_file hs hfollows, stands_save_lifecycle_file hs hfollows⟩

theorem follows_of_inspection {new : CcbdLifecycle} (hid : new.startup_id = none)
    (howner : new.phase = .unmounted → new.owner_daemon_instance_id = none ∨
      ∃ lease, w.lease = some lease ∧
        new.owner_daemon_instance_id = lease.daemon_instance_id) : Follows w new := by
  refine { startup := ?_, unmounted := ?_ }
  · intro startup_id hsome
    rw [hid] at hsome
    cases hsome
  · intro hunmounted other hother
    rcases howner hunmounted with hnone | ⟨lease, hlease, hsame⟩
    · rw [hnone] at hother
      cases hother
    · exact Or.inr ⟨lease, hlease, hsame.symm.trans hother⟩

theorem inspect_lease (answers : Answers) (lease : Option CcbdLease) :
    (Model.Ownership.inspect answers lease).lease = lease := by
  cases lease with
  | none => rfl
  | some lease =>
    simp only [Model.Ownership.inspect]
    split
    · rfl
    · split
      · rfl
      · rfl

theorem lifecycle_from_inspection_owner (project_id : Text) (config_signature : Option Text)
    (keeper_pid : Option ℕ) (inspection : LeaseInspection) :
    (lifecycle_from_inspection project_id config_signature keeper_pid inspection).startup_id =
        none ∧
      (lifecycle_from_inspection project_id config_signature keeper_pid
        inspection).owner_daemon_instance_id =
          inspection.lease.bind CcbdLease.daemon_instance_id := by
  unfold lifecycle_from_inspection
  cases inspection.lease with
  | none | some lease => exact ⟨rfl, rfl⟩

theorem owner_of_inspection {new : CcbdLifecycle}
    (howner : new.owner_daemon_instance_id = w.lease.bind CcbdLease.daemon_instance_id) :
    new.owner_daemon_instance_id = none ∨ ∃ lease, w.lease = some lease ∧
      new.owner_daemon_instance_id = lease.daemon_instance_id := by
  cases hlease : w.lease with
  | none =>
    rw [hlease] at howner
    exact Or.inl howner
  | some lease =>
    rw [hlease] at howner
    exact Or.inr ⟨lease, rfl, howner⟩

variable {keeper : ProjectKeeper}

section

variable (hs : StandsAll alive daemon w)

include hs

theorem keeps_spawn_daemon
    (hdraws : ∀ other app fence, daemon other = some app → app.startup_generation ≠ none →
      app.expected_startup_fence = some fence → fence.startup_id ≠ answers.startup_id)
    (config_signature : Text) (start_timeout : ℤ) :
    KeepsAll alive daemon (spawn_daemon answers keeper config_signature start_timeout) w := by
  refine along_reads_bind hs (Along.ite (fun _ => hs) fun _ => ?_)
  refine Along.bind (along_write fun _ => ?_)
  refine and_self_iff.mpr fun other app generation hother hclaim => ?_
  refine standing_spawned (hs other app generation hother hclaim) rfl rfl ?_
    Phase.noConfusion
  intro fence hfence hsame
  have hstarted : app.startup_generation ≠ none := by
    rw [hclaim]
    exact Option.some_ne_none _
  exact hdraws other app fence hother hstarted hfence (Option.some.inj hsame).symm

theorem keeps_record_daemon_start_success (starting : CcbdLifecycle) (config_signature : Text) :
    KeepsAll alive daemon (record_daemon_start_success keeper starting config_signature) w := by
  refine along_read_bind hs ?_
  cases hfound : w.lifecycle with
  | none => exact hs
  | some current =>
    refine along_read_bind hs (Along.ite (fun _ => hs) fun hgoes => ?_)
    simp only [not_or, Bool.not_eq_false, not_not, same_startup_transaction, Bool.and_eq_true,
      decide_eq_true_eq, List.mem_cons, List.not_mem_nil, or_false] at hgoes
    obtain ⟨⟨⟨⟨_, hequal⟩, _⟩, _⟩, _, _, hgeneration⟩ := hgoes
    have hkept : positive_or (w.lease.elim 0 CcbdLease.generation) starting.generation =
        current.generation := by
      unfold positive_or
      split
      · exact hequal.symm
      · omega
    refine keeps_save_lifecycle_file hs ?_
    cases hlease : w.lease with
    | none =>
      rw [hlease] at hkept
      refine follows_of_same hfound rfl hkept (Or.inr (Or.inr ⟨rfl, ?_⟩))
      exact Phase.noConfusion
    | some lease =>
      rw [hlease] at hkept hgeneration
      refine follows_of_holder hfound hlease rfl hkept ?_ rfl rfl
      rw [Option.elim_some] at hgeneration
      omega

theorem keeps_record_daemon_start_failure
    (starting : Option CcbdLifecycle) (desired_state : DesiredState) (failure_reason : Text) :
    KeepsAll alive daemon
      (record_daemon_start_failure starting desired_state failure_reason) w := by
  refine along_read_bind hs ?_
  cases hfound : w.lifecycle with
  | none => exact hs
  | some current =>
    refine Along.ite (fun _ => ?_) fun _ => hs
    refine keeps_save_lifecycle_file hs (follows_of_same hfound rfl rfl (Or.inr (Or.inr ⟨rfl, ?_⟩)))
    exact Phase.noConfusion

theorem keeps_record_connectable_mounted (observed : Option CcbdLease) :
    KeepsAll alive daemon (record_connectable_mounted answers keeper observed) w := by
  refine along_reads_bind hs ?_
  cases hfound : w.lifecycle with
  | none => exact hs
  | some lifecycle =>
    cases hlease : w.lease with
    | none => exact hs
    | some lease =>
      refine Along.ite (fun _ => hs) fun _ => keeps_save_lifecycle_file hs ?_
      by_cases hsame : lifecycle.generation = lease.generation
      · refine follows_of_holder hfound hlease ?_ ?_ (Or.inr hsame.symm) rfl rfl
        · exact if_neg (not_not_intro hsame)
        · show positive_or lease.generation lifecycle.generation = lifecycle.generation
          unfold positive_or
          split
          · rfl
          · exact hsame.symm
      · exact follows_of_none (if_pos hsame) Phase.noConfusion

theorem keeps_record_connectable_restart (observed : Option CcbdLease) :
    KeepsAll alive daemon (record_connectable_restart observed) w := by
  refine along_read_bind hs ?_
  cases hfound : w.lifecycle with
  | none => exact hs
  | some lifecycle =>
    refine along_read_bind hs (Along.ite (fun _ => hs) fun _ => ?_)
    refine keeps_save_lifecycle_file hs
      (follows_of_same hfound rfl rfl (Or.inr (Or.inl ⟨rfl, ?_, ?_⟩)))
    · exact Phase.noConfusion
    · exact Phase.noConfusion

theorem keeps_record_connectable_observation_failure
    (observed : Option CcbdLease) (failure_reason : Text) :
    KeepsAll alive daemon
      (record_connectable_observation_failure answers keeper observed failure_reason) w := by
  refine along_read_bind hs ?_
  cases hfound : w.lifecycle with
  | none => exact hs
  | some current =>
    refine along_read_bind hs (Along.ite (fun _ => hs) fun _ => ?_)
    have hfailed : Follows w { current with
        phase := .failed
        desired_state := .running
        last_failure_reason := some failure_reason } := by
      refine follows_of_same hfound rfl rfl (Or.inr (Or.inl ⟨rfl, ?_, ?_⟩))
      · exact Phase.noConfusion
      · exact Phase.noConfusion
    rw [inspect_lease]
    cases hlease : w.lease with
    | none => exact Along.ite (fun _ => hs) fun _ => keeps_save_lifecycle_file hs hfailed
    | some lease =>
      refine Along.ite (fun _ => ?_) fun _ => Along.ite (fun _ => hs) fun hsame => ?_
      · exact Along.ite (fun _ => hs) fun _ => keeps_save_lifecycle_file hs hfailed
      · refine keeps_save_lifecycle_file hs
          (follows_of_holder hfound hlease rfl rfl (Or.inr ?_) rfl rfl)
        exact (not_not.mp hsame).symm

end

/-- The lifecycle of a project is the one on file, or one of no transaction. -/
structure Reconciled (before w : Files) (result : Option CcbdLifecycle × Bool) : Prop where
  lifecycle : w.lifecycle = before.lifecycle
  kept : result.2 = false → result.1 = w.lifecycle ∧ w.lease = before.lease
  anew : result.2 = true → ∃ new, result.1 = some new ∧ new.startup_id = none ∧
    (new.owner_daemon_instance_id = none ∨ ∃ lease, w.lease = some lease ∧
      new.owner_daemon_instance_id = lease.daemon_instance_id)

variable {context : CommandContext}

section

variable (hs : StandsAll alive daemon w)

include hs

theorem keeps_reconcile (project_id socket_path : Text)
    (config_signature : Option Text) (keeper_pid : Option ℕ) :
    Along (fun _ _ => True) (StandsAll alive daemon)
      (reconcile_runtime_project_identity answers project_id socket_path config_signature
        keeper_pid w.lifecycle (Model.Ownership.inspect answers w.lease))
      (fun result w' => StandsAll alive daemon w' ∧ Reconciled w w' result) w := by
  unfold reconcile_runtime_project_identity
  refine Along.ite (fun _ => ?_) fun _ => ?_
  · refine along_pure ⟨hs, ⟨rfl, fun _ => ⟨rfl, rfl⟩, fun h => ?_⟩⟩
    cases h
  have hrelocated : ∀ (w' : Files) (new : CcbdLifecycle), StandsAll alive daemon w' →
      w'.lifecycle = w.lifecycle → new.startup_id = none → new.owner_daemon_instance_id = none →
        StandsAll alive daemon w' ∧ Reconciled w w' (some new, true) := by
    intro w' new hs' hsame hid howner
    refine ⟨hs', ⟨hsame, Bool.noConfusion, fun _ => ?_⟩⟩
    exact ⟨new, rfl, hid, Or.inl howner⟩
  have hinspected := inspect_lease answers w.lease
  rw [hinspected]
  cases hlease : w.lease with
  | none => exact along_pure (hrelocated w _ hs rfl rfl rfl)
  | some lease =>
    rw [hlease] at hinspected
    refine Along.ite (fun _ => ?_) fun _ => ?_
    · refine along_pure ⟨hs, ⟨rfl, Bool.noConfusion, fun _ => ?_⟩⟩
      obtain ⟨hid, howner⟩ := lifecycle_from_inspection_owner project_id config_signature
        keeper_pid (Model.Ownership.inspect answers (some lease))
      rw [hinspected] at howner
      exact ⟨_, rfl, hid, Or.inr ⟨lease, hlease, howner⟩⟩
    refine Along.ite (fun _ => along_pure (hrelocated w _ hs rfl rfl rfl)) fun _ => ?_
    refine along_ofExcept_bind fun _ _ => Along.bind (along_write fun _ => ?_)
    have hafter : StandsAll alive daemon { w with lease := w.lease.map fun lease => { lease with
        mount_state := .unmounted
        last_heartbeat_at := answers.now } } := by
      intro other app generation hother hclaim
      refine standing_lease (hs other app generation hother hclaim) ?_ rfl
      rw [Option.map_map]
      rfl
    exact ⟨hafter, along_pure (hrelocated _ _ hafter rfl rfl rfl)⟩

theorem keeps_ensure_project_lifecycle (config_signature : Option Text) :
    KeepsAll alive daemon (ensure_project_lifecycle answers keeper config_signature) w := by
  refine along_reads_bind hs ?_
  refine Along.bind (Along.mono (keeps_reconcile hs _ _ _ _) fun result w' hresult => ?_)
  obtain ⟨hs', hreconciled⟩ := hresult
  obtain ⟨lifecycle, reconciled⟩ := result
  cases reconciled with
  | true =>
    obtain ⟨new, hnew, hid, howner⟩ := hreconciled.anew rfl
    simp only at hnew
    subst hnew
    exact keeps_save_lifecycle_file hs' (follows_of_inspection hid fun _ => howner)
  | false =>
    obtain ⟨hkept, hlease⟩ := hreconciled.kept rfl
    simp only at hkept
    cases lifecycle with
    | none =>
      obtain ⟨hid, howner⟩ := lifecycle_from_inspection_owner keeper.project_id config_signature
        (some keeper.pid) (Model.Ownership.inspect answers w.lease)
      rw [inspect_lease] at howner
      refine keeps_save_lifecycle_file hs'
        (follows_of_inspection hid fun _ => owner_of_inspection ?_)
      rw [hlease]
      exact howner
    | some lifecycle =>
      refine Along.ite (fun h => by cases h) fun _ => Along.ite (fun _ => hs') fun _ => ?_
      exact keeps_save_lifecycle_file hs' (follows_of_same hkept.symm rfl rfl (Or.inl ⟨rfl, rfl⟩))

theorem keeps_record_running_intent :
    KeepsAll alive daemon (record_running_intent answers context) w := by
  refine along_reads_bind hs ?_
  refine Along.bind (Along.mono (keeps_reconcile hs _ _ _ _) fun result w' hresult => ?_)
  obtain ⟨hs', hreconciled⟩ := hresult
  refine along_read_bind hs' (Along.ite (fun _ => hs') fun _ => ?_)
  refine keeps_save_lifecycle_file hs' ?_
  cases hsome : result.1 with
  | none =>
    obtain ⟨hid, howner⟩ := lifecycle_from_inspection_owner context.project_id none none
      (Model.Ownership.inspect answers w'.lease)
    rw [inspect_lease] at howner
    exact follows_of_inspection hid fun _ => owner_of_inspection howner
  | some lifecycle =>
    cases hanew : result.2 with
    | true =>
      obtain ⟨new, hnew, hid, howner⟩ := hreconciled.anew hanew
      have hsame : new = lifecycle := Option.some.inj (hnew.symm.trans hsome)
      subst hsame
      exact follows_of_inspection hid fun _ => howner
    | false =>
      have hkept := (hreconciled.kept hanew).1
      rw [hsome] at hkept
      exact follows_of_same hkept.symm rfl rfl (Or.inl ⟨rfl, rfl⟩)

theorem keeps_record_shutdown_intent (config_signature : Option Text) (reason : Text) :
    KeepsAll alive daemon (record_shutdown_intent answers context config_signature reason) w := by
  refine along_reads_bind hs (keeps_save_lifecycle_file hs ?_)
  cases hfound : w.lifecycle with
  | none =>
    obtain ⟨hid, howner⟩ := lifecycle_from_inspection_owner context.project_id config_signature
      none (Model.Ownership.inspect answers w.lease)
    rw [inspect_lease] at howner
    exact follows_of_inspection hid fun _ => owner_of_inspection howner
  | some current =>
    refine follows_of_same hfound rfl rfl ?_
    by_cases hunmounted : current.phase = .unmounted
    · refine Or.inl ⟨rfl, ?_⟩
      rw [Option.getD_some, if_pos hunmounted, hunmounted]
    · refine Or.inr (Or.inl ⟨rfl, ?_⟩)
      rw [Option.getD_some, if_neg hunmounted]
      exact ⟨Phase.noConfusion, Phase.noConfusion⟩

theorem keeps_finalize_shutdown_lifecycle (config_signature : Option Text) (intent : Bool) :
    KeepsAll alive daemon
      (finalize_shutdown_lifecycle answers context config_signature intent) w := by
  refine along_read_bind hs (Along.ite (fun _ => hs) fun _ => along_read_bind hs ?_)
  refine keeps_save_lifecycle_file hs ?_
  cases hfound : w.lifecycle with
  | none =>
    obtain ⟨hid, _⟩ := lifecycle_from_inspection_owner context.project_id config_signature
      none (Model.Ownership.inspect answers w.lease)
    exact follows_of_none hid fun _ => rfl
  | some current =>
    refine follows_of_same hfound rfl rfl (Or.inr (Or.inr ⟨rfl, ?_⟩))
    exact Phase.noConfusion

end

theorem keeps_keeper_region (region : KeeperRegion) (hs : StandsAll alive daemon w)
    (hdraws : ∀ startup_id, region.draws answers = some startup_id →
      ∀ other app fence, daemon other = some app → app.startup_generation ≠ none →
        app.expected_startup_fence = some fence → fence.startup_id ≠ startup_id) :
    KeepsAll alive daemon (region.call answers keeper) w := by
  cases region with
  | spawn_daemon config_signature start_timeout =>
    refine Along.bind (Along.mono ?_ fun _ _ hs' => hs')
    exact keeps_spawn_daemon hs (hdraws _ rfl) config_signature start_timeout
  | record_daemon_start_success starting config_signature =>
    exact keeps_record_daemon_start_success hs starting config_signature
  | record_daemon_start_failure starting desired_state failure_reason =>
    exact keeps_record_daemon_start_failure hs starting desired_state failure_reason
  | ensure_project_lifecycle config_signature =>
    exact keeps_ensure_project_lifecycle hs config_signature
  | record_connectable_mounted observed => exact keeps_record_connectable_mounted hs observed
  | record_connectable_restart observed => exact keeps_record_connectable_restart hs observed
  | record_connectable_observation_failure observed failure_reason =>
    exact keeps_record_connectable_observation_failure hs observed failure_reason

theorem keeps_command_region (region : CommandRegion)
    (hs : StandsAll alive daemon w) : KeepsAll alive daemon (region.call answers context) w := by
  cases region with
  | record_running_intent => exact keeps_record_running_intent hs
  | record_shutdown_intent config_signature reason =>
    exact keeps_record_shutdown_intent hs config_signature reason
  | finalize_shutdown_lifecycle config_signature intent =>
    exact keeps_finalize_shutdown_lifecycle hs config_signature intent

end ClaudeCodeBridge.Analysis.Ownership
