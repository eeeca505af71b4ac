import ClaudeCodeBridge.Model.DaemonLeases

/-!
# Keepers, commands and runs

A keeper watches the daemon of a project: it spawns one where the lease allows it, records
what became of the start, and sets a lifecycle right that is not what a reachable daemon
says.  The commands `ccb start` and `ccb kill` write what the user wants into the lifecycle.
All of it happens in regions as those of the daemon; `System.step` takes the regions of
keepers, commands and daemons in any order.
-/

set_option autoImplicit false

namespace ClaudeCodeBridge.Model.Ownership

open Program
open Prog

structure ProjectKeeper where
  project_id : Text
  pid : ℕ
  socket_path : Text
  deriving DecidableEq

/-- A region of a keeper. -/
abbrev KeeperCall (α : Type) := Prog PlaceName Files CcbdError α

variable (answers : Answers) (keeper : ProjectKeeper)

def lease_file : KeeperCall (Option CcbdLease) := read .lease Files.lease

def lifecycle_file : KeeperCall (Option CcbdLifecycle) := read .lifecycle Files.lifecycle

def save_lifecycle_file (lifecycle : CcbdLifecycle) : KeeperCall Unit :=
  write .lifecycle fun w => { w with lifecycle := some lifecycle }

def lifecycle_from_inspection (project_id : Text) (config_signature : Option Text)
    (keeper_pid : Option ℕ) (inspection : LeaseInspection) : CcbdLifecycle :=
  match inspection.lease with
  | none =>
    { project_id := project_id
      desired_state := .stopped
      phase := .unmounted
      generation := 0
      startup_id := none
      startup_stage := none
      startup_deadline_at := none
      keeper_pid := keeper_pid
      owner_pid := none
      owner_daemon_instance_id := none
      config_signature := config_signature
      socket_path := none
      namespace_epoch := none
      last_failure_reason := none
      shutdown_intent := none }
  | some lease =>
    let mounted := lease.mount_state ≠ .unmounted
    { project_id := project_id
      desired_state := if mounted then .running else .stopped
      phase := if mounted then (if inspection.socket_connectable then .mounted else .failed)
        else .unmounted
      generation := lease.generation
      startup_id := none
      startup_stage := none
      startup_deadline_at := none
      keeper_pid := keeper_pid.or lease.keeper_pid
      owner_pid := some lease.ccbd_pid
      owner_daemon_instance_id := lease.daemon_instance_id
      config_signature := lease.config_signature.or config_signature
      socket_path := some lease.socket_path
      namespace_epoch := none
      last_failure_reason := none
      shutdown_intent := none }

/-- The first region of `_spawn_daemon`: the lifecycle of the start that it asks for. -/
def spawn_daemon (config_signature : Text) (start_timeout : ℤ) :
    KeeperCall (Option CcbdLifecycle) := do
  let lease ← lease_file
  let inspection := inspect answers lease
  let found ← lifecycle_file
  let lifecycle := found.getD
    (lifecycle_from_inspection keeper.project_id none (some keeper.pid) inspection)
  if lifecycle.desired_state ≠ .running ∨ inspection.takeover_allowed = false then return none
  else do
    let starting := { lifecycle with
      phase := .starting
      desired_state := .running
      generation := max lifecycle.generation (inspection.lease.elim 0 CcbdLease.generation) + 1
      startup_id := some answers.startup_id
      startup_stage := some .spawn_requested
      startup_deadline_at := some (answers.now + start_timeout)
      keeper_pid := some keeper.pid
      owner_pid := none
      owner_daemon_instance_id := none
      config_signature := some config_signature
      socket_path := some keeper.socket_path
      last_failure_reason := none
      shutdown_intent := none }
    save_lifecycle_file starting
    return some starting

def same_startup_transaction (current expected : CcbdLifecycle) : Bool :=
  current.project_id = expected.project_id && current.generation = expected.generation
    && current.startup_id = expected.startup_id && current.startup_id.isSome

def record_daemon_start_success (starting : CcbdLifecycle) (config_signature : Text) :
    KeeperCall Unit := do
  match ← lifecycle_file with
  | none => return ()
  | some current => do
    let lease ← lease_file
    let lease_generation := lease.elim 0 CcbdLease.generation
    if same_startup_transaction current starting = false ∨ current.desired_state ≠ .running
        ∨ current.phase ≠ .starting ∨ lease_generation ∉ [0, starting.generation] then return ()
    else
      save_lifecycle_file { current with
        phase := .mounted
        generation := positive_or lease_generation starting.generation
        owner_pid := lease.map CcbdLease.ccbd_pid
        owner_daemon_instance_id := lease.bind CcbdLease.daemon_instance_id
        config_signature := some ((lease.bind CcbdLease.config_signature).getD config_signature)
        socket_path := some (lease.elim keeper.socket_path CcbdLease.socket_path)
        startup_stage := some .mounted
        startup_deadline_at := none
        last_failure_reason := none
        shutdown_intent := none }

def record_daemon_start_failure (starting : Option CcbdLifecycle) (desired_state : DesiredState)
    (failure_reason : Text) : KeeperCall Unit := do
  match ← lifecycle_file with
  | none => return ()
  | some current =>
    let allowed : Bool := match starting with
      | none => current.desired_state = .running && current.phase ∈ [Phase.unmounted, .failed]
      | some starting => same_startup_transaction current starting
          && current.desired_state = .running && current.phase = .starting
    if allowed then
      save_lifecycle_file { current with
        phase := .failed
        desired_state := desired_state
        owner_pid := none
        owner_daemon_instance_id := none
        startup_stage := some .spawn_failed
        startup_deadline_at := none
        last_failure_reason := some failure_reason }
    else return ()

/-- `reconcile_runtime_project_identity`: the lifecycle of the project, and whether it is made
anew of one of another project. -/
def reconcile_runtime_project_identity (project_id socket_path : Text)
    (config_signature : Option Text) (keeper_pid : Option ℕ) (lifecycle : Option CcbdLifecycle)
    (inspection : LeaseInspection) : KeeperCall (Option CcbdLifecycle × Bool) :=
  let generation := max (lifecycle.elim 0 CcbdLifecycle.generation)
    (inspection.lease.elim 0 CcbdLease.generation)
  let relocated : CcbdLifecycle :=
    { project_id := project_id
      desired_state := lifecycle.elim .stopped CcbdLifecycle.desired_state
      phase := .unmounted
      generation := generation
      startup_id := none
      startup_stage := none
      startup_deadline_at := none
      keeper_pid := keeper_pid
      owner_pid := none
      owner_daemon_instance_id := none
      config_signature := config_signature
      socket_path := some socket_path
      namespace_epoch := none
      last_failure_reason := none
      shutdown_intent := none }
  if lifecycle.all (fun lifecycle => lifecycle.project_id = project_id)
      && inspection.lease.all (fun lease => lease.project_id = project_id) then
    return (lifecycle, false)
  else
    match inspection.lease with
    | none => return (some relocated, true)
    | some lease =>
      if lease.project_id = project_id then
        let rebuilt := lifecycle_from_inspection project_id config_signature keeper_pid inspection
        return (some { rebuilt with
          generation := generation
          socket_path := some socket_path }, true)
      else if lease.mount_state = .unmounted then return (some relocated, true)
      else do
        ofExcept (refuseIf (inspection.takeover_allowed = false) (.ownership_conflict
          "cannot relocate project runtime while foreign authority is active"))
        write .lease fun w => { w with lease := w.lease.map fun lease => { lease with
          mount_state := .unmounted
          last_heartbeat_at := answers.now } }
        return (some relocated, true)

/-- The region of `ensure_project_lifecycle`. -/
def ensure_project_lifecycle (config_signature : Option Text) : KeeperCall Unit := do
  let found ← lifecycle_file
  let inspection := inspect answers (← lease_file)
  let (lifecycle, reconciled) ← reconcile_runtime_project_identity answers keeper.project_id
    keeper.socket_path config_signature (some keeper.pid) found inspection
  match lifecycle with
  | none => save_lifecycle_file (lifecycle_from_inspection keeper.project_id config_signature
      (some keeper.pid) inspection)
  | some lifecycle =>
    if reconciled then save_lifecycle_file lifecycle
    else if lifecycle.keeper_pid = some keeper.pid then return ()
    else save_lifecycle_file { lifecycle with keeper_pid := some keeper.pid }

def same_observed_lease (current observed : Option CcbdLease) : Bool :=
  match current, observed with
  | none, none => true
  | some current, some observed =>
    current.project_id = observed.project_id && current.ccbd_pid = observed.ccbd_pid
      && current.generation = observed.generation
      && current.daemon_instance_id = observed.daemon_instance_id
      && current.socket_path = observed.socket_path
      && current.mount_state = observed.mount_state
  | _, _ => false

def startup_promotion_owned_by_child (lifecycle : CcbdLifecycle) (lease : CcbdLease) : Bool :=
  lifecycle.phase = .starting
    && lifecycle.startup_stage ∈ [some .spawn_requested, some .socket_listening,
      some .publishing_mounted, some .runtime_bootstrap]
    && lease.mount_state = .mounted
    && lifecycle.project_id = lease.project_id && lifecycle.generation = lease.generation
    && lifecycle.owner_pid.getD 0 = lease.ccbd_pid
    && lifecycle.owner_daemon_instance_id = lease.daemon_instance_id
    && lifecycle.socket_path = some lease.socket_path

/-- A lifecycle with `_mounted_lifecycle_kwargs`. -/
def with_mounted_kwargs (lifecycle : CcbdLifecycle) (lease : CcbdLease) : CcbdLifecycle :=
  { lifecycle with
    desired_state := .running
    generation := positive_or lease.generation lifecycle.generation
    keeper_pid := some keeper.pid
    owner_pid := some lease.ccbd_pid
    owner_daemon_instance_id := lease.daemon_instance_id
    config_signature := lease.config_signature.or lifecycle.config_signature
    socket_path := some lease.socket_path
    namespace_epoch := answers.namespace_epoch.or lifecycle.namespace_epoch }

def mounted_lifecycle_is_current (lifecycle : CcbdLifecycle) (lease : CcbdLease) : Bool :=
  lifecycle.phase = .mounted && lifecycle.last_failure_reason.isNone
    && lifecycle.shutdown_intent.isNone && with_mounted_kwargs answers keeper lifecycle lease = lifecycle

def record_connectable_mounted (observed : Option CcbdLease) : KeeperCall Unit := do
  let found ← lifecycle_file
  let current_lease ← lease_file
  match found, current_lease with
  | some lifecycle, some lease =>
    if lifecycle.desired_state ≠ .running ∨ startup_promotion_owned_by_child lifecycle lease = true
        ∨ same_observed_lease (some lease) observed = false ∨ lease.mount_state ≠ .mounted
        ∨ mounted_lifecycle_is_current answers keeper lifecycle lease = true then return ()
    else
      save_lifecycle_file { with_mounted_kwargs answers keeper lifecycle lease with
        phase := .mounted
        startup_id := if lifecycle.generation ≠ lease.generation then none else lifecycle.startup_id
        startup_stage := some .mounted
        startup_deadline_at := none
        last_failure_reason := none
        shutdown_intent := none }
  | _, _ => return ()

def record_connectable_observation_failure (observed : Option CcbdLease)
    (failure_reason : Text) : KeeperCall Unit := do
  match ← lifecycle_file with
  | none => return ()
  | some current => do
    let inspection := inspect answers (← lease_file)
    if current.desired_state ≠ .running
        ∨ same_observed_lease inspection.lease observed = false then return ()
    else
      let failed := { current with
        phase := .failed
        desired_state := .running
        last_failure_reason := some failure_reason }
      match inspection.lease with
      | none => if current.phase = .starting then return () else save_lifecycle_file failed
      | some lease =>
        if inspection.socket_connectable = false then
          if current.phase = .starting then return () else save_lifecycle_file failed
        else if current.generation ≠ lease.generation then return ()
        else
          save_lifecycle_file { with_mounted_kwargs answers keeper current lease with
            phase := .mounted
            generation := current.generation
            last_failure_reason := some failure_reason
            shutdown_intent := none }

def record_connectable_restart (observed : Option CcbdLease) : KeeperCall Unit := do
  match ← lifecycle_file with
  | none => return ()
  | some lifecycle => do
    let current_lease ← lease_file
    if lifecycle.desired_state ≠ .running
        ∨ same_observed_lease current_lease observed = false then return ()
    else
      save_lifecycle_file { lifecycle with
        phase := .stopping
        desired_state := .running
        last_failure_reason := none }

/-- What a command of the user knows of its project. -/
structure CommandContext where
  project_id : Text
  socket_path : Text
  deriving DecidableEq

variable (context : CommandContext)

def record_running_intent : KeeperCall Unit := do
  let found ← lifecycle_file
  let lease ← lease_file
  let (lifecycle, reconciled) ← reconcile_runtime_project_identity answers context.project_id
    context.socket_path none none found (inspect answers lease)
  let inspection := inspect answers (← lease_file)
  let current := lifecycle.getD
    (lifecycle_from_inspection context.project_id none none inspection)
  if lifecycle.isSome && !reconciled && current.desired_state = .running then return ()
  else
    save_lifecycle_file { current with
      desired_state := .running
      socket_path := some context.socket_path
      last_failure_reason := none
      shutdown_intent := none }

def record_shutdown_intent (config_signature : Option Text) (reason : Text) : KeeperCall Unit := do
  let found ← lifecycle_file
  let inspection := inspect answers (← lease_file)
  let current := found.getD
    (lifecycle_from_inspection context.project_id config_signature none inspection)
  save_lifecycle_file { current with
    phase := if current.phase = .unmounted then .unmounted else .stopping
    desired_state := .stopped
    shutdown_intent := some reason
    last_failure_reason := none }

/-- `finalize_shutdown_lifecycle`; `intent` says that the intent of a shutdown of this project
is on file. -/
def finalize_shutdown_lifecycle (config_signature : Option Text) (intent : Bool) :
    KeeperCall Unit := do
  let found ← lifecycle_file
  if !intent || found.any (fun current => current.desired_state ≠ .stopped) then return ()
  else do
    let inspection := inspect answers (← lease_file)
    let current := found.getD
      (lifecycle_from_inspection context.project_id config_signature none inspection)
    save_lifecycle_file { current with
      phase := .unmounted
      desired_state := .stopped
      owner_pid := none
      owner_daemon_instance_id := none
      socket_path := some context.socket_path
      startup_stage := none
      startup_deadline_at := none
      last_failure_reason := none }

/-- A region of a daemon: of its `start`, or of what it does once it is mounted. -/
inductive DaemonRegion where
  | claim_starting
  | update_startup_progress (stage : StartupStage)
  | publish_mounted
  | runtime_bootstrap_complete
  | mark_failed (failure_reason : Text)
  | mark_stopping (shutdown_intent : Text)
  | heartbeat (failures : Option Text)
  | release_backend_ownership (desired_state : DesiredState)
  | update_lease_signature (config_signature : Text) (expected_generation : ℕ)
  | update_lifecycle_signature (config_signature : Text) (expected_generation : ℕ)
  | sync_namespace_epoch (epoch : ℕ)

def DaemonRegion.call : DaemonRegion → DaemonCall Unit
  | .claim_starting => Ownership.claim_starting answers
  | .update_startup_progress stage => Ownership.update_startup_progress stage
  | .publish_mounted => publish_mounted_after_bootstrap_probe answers
  | .runtime_bootstrap_complete => mark_runtime_bootstrap_complete answers
  | .mark_failed failure_reason => mark_lifecycle_failed failure_reason
  | .mark_stopping shutdown_intent => mark_lifecycle_stopping shutdown_intent
  | .heartbeat failures => Ownership.heartbeat answers failures
  | .release_backend_ownership desired_state =>
    Ownership.release_backend_ownership answers desired_state
  | .update_lease_signature config_signature expected_generation =>
    update_current_lease_config_signature answers config_signature expected_generation
  | .update_lifecycle_signature config_signature expected_generation =>
    update_mounted_lifecycle_config_signature answers config_signature expected_generation
  | .sync_namespace_epoch epoch => sync_lifecycle_namespace_epoch epoch

inductive KeeperRegion where
  | spawn_daemon (config_signature : Text) (start_timeout : ℤ)
  | record_daemon_start_success (starting : CcbdLifecycle) (config_signature : Text)
  | record_daemon_start_failure (starting : Option CcbdLifecycle) (desired_state : DesiredState)
      (failure_reason : Text)
  | ensure_project_lifecycle (config_signature : Option Text)
  | record_connectable_mounted (observed : Option CcbdLease)
  | record_connectable_restart (observed : Option CcbdLease)
  | record_connectable_observation_failure (observed : Option CcbdLease) (failure_reason : Text)

def KeeperRegion.call : KeeperRegion → KeeperCall Unit
  | .spawn_daemon config_signature start_timeout => do
    let _ ← Ownership.spawn_daemon answers keeper config_signature start_timeout
    return ()
  | .record_daemon_start_success starting config_signature =>
    Ownership.record_daemon_start_success keeper starting config_signature
  | .record_daemon_start_failure starting desired_state failure_reason =>
    Ownership.record_daemon_start_failure starting desired_state failure_reason
  | .ensure_project_lifecycle config_signature =>
    Ownership.ensure_project_lifecycle answers keeper config_signature
  | .record_connectable_mounted observed =>
    Ownership.record_connectable_mounted answers keeper observed
  | .record_connectable_restart observed => Ownership.record_connectable_restart observed
  | .record_connectable_observation_failure observed failure_reason =>
    Ownership.record_connectable_observation_failure answers keeper observed failure_reason

inductive CommandRegion where
  | record_running_intent
  | record_shutdown_intent (config_signature : Option Text) (reason : Text)
  | finalize_shutdown_lifecycle (config_signature : Option Text) (intent : Bool)

def CommandRegion.call : CommandRegion → KeeperCall Unit
  | .record_running_intent => Ownership.record_running_intent answers context
  | .record_shutdown_intent config_signature reason =>
    Ownership.record_shutdown_intent answers context config_signature reason
  | .finalize_shutdown_lifecycle config_signature intent =>
    Ownership.finalize_shutdown_lifecycle answers context config_signature intent

/-- The files and the daemons; one that has died is none.  A daemon is here before it starts,
with the fence that its keeper has given it, or none. -/
structure System where
  files : Files
  daemon : DaemonId → Option DaemonApp

/-- What happens: a region of a daemon, a keeper or a command, from its beginning to its end or,
where the process stops in it, up to one of its accesses. -/
inductive Step where
  | daemon (id : DaemonId) (region : DaemonRegion) (answers : Answers)
  | daemon_stops (id : DaemonId) (region : DaemonRegion) (answers : Answers) (accesses : ℕ)
  | keeper (keeper : ProjectKeeper) (region : KeeperRegion) (answers : Answers)
  | keeper_stops (keeper : ProjectKeeper) (region : KeeperRegion) (answers : Answers)
      (accesses : ℕ)
  | command (context : CommandContext) (region : CommandRegion) (answers : Answers)
  | command_stops (context : CommandContext) (region : CommandRegion) (answers : Answers)
      (accesses : ℕ)

def System.step (s : System) : Step → System
  | .daemon id region answers =>
    match s.daemon id with
    | none => s
    | some app =>
      let home := ((region.call answers).run { files := s.files, app := app }).2
      { files := home.files
        daemon := Function.update s.daemon id (some home.app) }
  | .daemon_stops id region answers accesses =>
    match s.daemon id with
    | none => s
    | some app =>
      let home := stopAfter accesses (region.call answers) { files := s.files, app := app }
      { files := home.files
        daemon := Function.update s.daemon id none }
  | .keeper keeper region answers =>
    { s with files := ((region.call answers keeper).run s.files).2 }
  | .keeper_stops keeper region answers accesses =>
    { s with files := stopAfter accesses (region.call answers keeper) s.files }
  | .command context region answers =>
    { s with files := ((region.call answers context).run s.files).2 }
  | .command_stops context region answers accesses =>
    { s with files := stopAfter accesses (region.call answers context) s.files }

def System.run (s : System) (steps : List Step) : System := steps.foldl System.step s

def Step.actor : Step → Option DaemonId
  | .daemon id _ _ => some id
  | .daemon_stops id _ _ _ => some id
  | .keeper _ _ _ => none
  | .keeper_stops _ _ _ _ => none
  | .command _ _ _ => none
  | .command_stops _ _ _ _ => none

def Step.region : Step → Option DaemonRegion
  | .daemon _ region _ => some region
  | .daemon_stops _ region _ _ => some region
  | .keeper _ _ _ => none
  | .keeper_stops _ _ _ _ => none
  | .command _ _ _ => none
  | .command_stops _ _ _ _ => none

/-- The `startup_id` that a keeper draws. -/
def KeeperRegion.draws : KeeperRegion → Option StartupId
  | .spawn_daemon _ _ => some answers.startup_id
  | _ => none

def Step.draws : Step → Option StartupId
  | .keeper _ region answers => region.draws answers
  | .keeper_stops _ region answers _ => region.draws answers
  | _ => none

/-- Every step of a run is good where it is taken. -/
def System.Runs (Good : System → Step → Prop) : System → List Step → Prop
  | _, [] => True
  | s, step :: steps => Good s step ∧ System.Runs Good (s.step step) steps

/-- No daemon has started, and the lease that is there is none of theirs. -/
structure System.Fresh (s : System) : Prop where
  ids : ∀ id app, s.daemon id = some app →
    app.daemon_instance_id = id ∧ app.startup_generation = none
  written : s.files.written = []
  lease : ∀ id app lease, s.daemon id = some app → s.files.lease = some lease →
    lease.daemon_instance_id ≠ some id

/-- The lease has one holder at a time: no two instances have written it mounted with the same
generation, each instance that takes it over has a generation above all before, and once an
instance of a newer generation has mounted, no step of an older one changes it. -/
structure System.LeaseExclusive (s : System) : Prop where
  one_holder : ∀ x ∈ s.files.written, ∀ y ∈ s.files.written, x.2.mount_state = .mounted →
    y.2.mount_state = .mounted → x.2.generation = y.2.generation → x.1 = y.1
  increasing : s.files.written.Pairwise fun x y => x.1 ≠ y.1 → x.2.generation < y.2.generation
  older_silent : ∀ step id app, step.actor = some id → s.daemon id = some app →
    ∀ x ∈ s.files.written, x.2.mount_state = .mounted →
      app.startup_generation.getD 0 < x.2.generation →
      (s.step step).files.lease = s.files.lease ∧ (s.step step).files.written = s.files.written

/-- A daemon has started, and the lifecycle has passed to a greater generation or to another
daemon that is alive. -/
def System.Superseded (s : System) (id : DaemonId) : Prop :=
  ∃ app generation lifecycle, s.daemon id = some app ∧ app.startup_generation = some generation ∧
    s.files.lifecycle = some lifecycle ∧
    (generation < lifecycle.generation ∨
      ∃ other, other ≠ id ∧ (s.daemon other).isSome ∧
        lifecycle.owner_daemon_instance_id = some other)

/-- What a step may rely on: a keeper draws a `startup_id` that no daemon has started with, and
a daemon hands a signature on to the lifecycle after it has written it to its lease, with the
same generation. -/
structure System.Ready (s : System) (step : Step) : Prop where
  draws : ∀ startup_id id app fence, step.draws = some startup_id → s.daemon id = some app →
    app.startup_generation ≠ none → app.expected_startup_fence = some fence →
      fence.startup_id ≠ startup_id
  hands_on : ∀ id config_signature expected_generation, step.actor = some id →
    step.region = some (.update_lifecycle_signature config_signature expected_generation) →
      ∃ lease, (id, lease) ∈ s.files.written ∧ lease.generation = expected_generation

/-- A superseded daemon leaves the lifecycle as it is, unless it starts again. -/
def System.Silent (s : System) (step : Step) : Prop :=
  ∀ id, step.actor = some id → s.Superseded id → step.region ≠ some .claim_starting →
    (s.step step).files.lifecycle = s.files.lifecycle

/-- A superseded daemon stops the project; or it publishes the epoch of a namespace, which the
lifecycle takes; or, where it was started without a fence, it releases a lease that is still its
own, and the lifecycle has not failed. -/
def System.Oversteps (s : System) (step : Step) : Prop :=
  ∃ id app, step.actor = some id ∧ s.Superseded id ∧ s.daemon id = some app ∧
    ((∃ shutdown_intent, step.region = some (.mark_stopping shutdown_intent)) ∨
      (∃ epoch lifecycle, step.region = some (.sync_namespace_epoch epoch) ∧
        s.files.lifecycle = some lifecycle ∧ epoch_is_due lifecycle s.files.lease epoch = true) ∨
      (∃ desired_state, step.region = some (.release_backend_ownership desired_state)) ∧
        app.expected_startup_fence = none ∧
        (∃ lease, s.files.lease = some lease ∧ lease_is_app_generation app (some lease)
          (app.startup_generation.getD 0) lease.mount_state = true) ∧
        ∃ lifecycle, s.files.lifecycle = some lifecycle ∧ lifecycle.phase ≠ .failed)

/-- The files of a project that only its keepers' daemons have mounted: a lease of the project
has a lifecycle of the project, and a lifecycle that is stopped is not mounted. -/
structure Files.OfProject (project_id : Text) (files : Files) : Prop where
  lifecycle : ∀ lease lifecycle, files.lease = some lease → files.lifecycle = some lifecycle →
    lease.project_id = project_id → lifecycle.project_id = project_id
  stopped : ∀ lifecycle, files.lifecycle = some lifecycle →
    lifecycle.desired_state = .stopped → lifecycle.phase ≠ .mounted

/-- The daemons are those that keepers of the project have started. -/
structure System.OfProject (project_id : Text) (s : System) : Prop where
  files : s.files.OfProject project_id
  daemons : ∀ id app, s.daemon id = some app →
    app.project_id = project_id ∧ app.expected_startup_fence ≠ none

/-- The step is a start that the user asks for. -/
def Step.IsStart : Step → Prop
  | .command _ .record_running_intent _ => True
  | .command_stops _ .record_running_intent _ _ => True
  | _ => False

def Step.OfProject (project_id : Text) : Step → Prop
  | .daemon _ _ _ => True
  | .daemon_stops _ _ _ _ => True
  | .keeper keeper _ _ => keeper.project_id = project_id
  | .keeper_stops keeper _ _ _ => keeper.project_id = project_id
  | .command context _ _ => context.project_id = project_id
  | .command_stops context _ _ _ => context.project_id = project_id

/-- The user wants the project stopped. -/
def System.Stopped (s : System) : Prop :=
  ∃ lifecycle, s.files.lifecycle = some lifecycle ∧ lifecycle.desired_state = .stopped

/-- No lease is mounted but one that was, by the same instance with the same generation. -/
def System.MountsNothing (before after : System) : Prop :=
  ∀ lease, after.files.lease = some lease → lease.mount_state = .mounted →
    ∃ old, before.files.lease = some old ∧ old.mount_state = .mounted ∧
      old.daemon_instance_id = lease.daemon_instance_id ∧ old.generation = lease.generation

end ClaudeCodeBridge.Model.Ownership
