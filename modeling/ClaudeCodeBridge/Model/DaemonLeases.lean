import ClaudeCodeBridge.Program.Outcomes
import ClaudeCodeBridge.Program.Stops
import ClaudeCodeBridge.Program.JsonText

/-!
# The lease and the lifecycle of the daemon

A project has one daemon, `ccbd`.  Two files say which: the lease, with the holder, its
generation and its last heartbeat, and the lifecycle, with the phase that the daemon is in
and the transaction that starts it.  A daemon claims the start, binds its socket, publishes
the mounted lease, keeps it alive, and releases it.

What happens under `startup.lock` is one region: a program over the two files and the memory
of the daemon.  A region is not interrupted by another, but its process may stop between two
writes.  Whether a process is alive and a socket answers is an answer of the environment,
and so is the time.
-/

set_option autoImplicit false

namespace ClaudeCodeBridge.Model.Ownership

open Program

/-- A `daemon_instance_id`: one for each instance. -/
abbrev DaemonId := ℕ

/-- A `startup_id`. -/
abbrev StartupId := ℕ

/-- `OwnershipConflictError`, `StartupFenceError` and any other `RuntimeError`. -/
inductive CcbdError where
  | ownership_conflict (text : String)
  | startup_fence (text : String)
  | runtime (text : String)
  deriving DecidableEq

inductive MountState where
  | mounted
  | unmounted
  deriving DecidableEq

/-- A `ccbd_lease`. -/
structure CcbdLease where
  project_id : Text
  ccbd_pid : ℕ
  socket_path : Text
  last_heartbeat_at : ℤ
  mount_state : MountState
  generation : ℕ
  config_signature : Option Text
  keeper_pid : Option ℕ
  daemon_instance_id : Option DaemonId
  deriving DecidableEq

inductive DesiredState where
  | running
  | stopped
  deriving DecidableEq

inductive Phase where
  | unmounted
  | starting
  | mounted
  | stopping
  | failed
  deriving DecidableEq

inductive StartupStage where
  | spawn_requested
  | socket_listening
  | publishing_mounted
  | runtime_bootstrap
  | mounted
  | failed
  | spawn_failed
  deriving DecidableEq

/-- A `ccbd_lifecycle`. -/
structure CcbdLifecycle where
  project_id : Text
  desired_state : DesiredState
  phase : Phase
  generation : ℕ
  startup_id : Option StartupId
  startup_stage : Option StartupStage
  startup_deadline_at : Option ℤ
  keeper_pid : Option ℕ
  owner_pid : Option ℕ
  owner_daemon_instance_id : Option DaemonId
  config_signature : Option Text
  socket_path : Option Text
  namespace_epoch : Option ℕ
  last_failure_reason : Option Text
  shutdown_intent : Option Text
  deriving DecidableEq

/-- The files, and every lease that was written to them with the instance that wrote it. -/
structure Files where
  lease : Option CcbdLease
  lifecycle : Option CcbdLifecycle
  written : List (DaemonId × CcbdLease)
  deriving DecidableEq

/-- What a region learns of the environment. -/
structure Answers where
  /-- The clock as a heartbeat is judged, and as a record is written. -/
  inspected_at : ℤ
  now : ℤ
  pid_exists : ℕ → Bool
  connectable : Text → Bool
  /-- `socket_server.listen` binds the socket. -/
  listens : Bool
  heartbeat_write_interval : ℤ
  /-- `uuid.uuid4().hex`. -/
  startup_id : StartupId
  /-- The epoch of the project's namespace, if it has one. -/
  namespace_epoch : Option ℕ

def heartbeat_grace_seconds : ℤ := 15

structure LeaseInspection where
  lease : Option CcbdLease
  pid_alive : Bool
  socket_connectable : Bool
  heartbeat_fresh : Bool
  takeover_allowed : Bool
  reason : String
  deriving DecidableEq

variable (answers : Answers)

def heartbeat_is_fresh (lease : CcbdLease) : Bool :=
  answers.inspected_at - lease.last_heartbeat_at ≤ heartbeat_grace_seconds

def mounted_socket_connectable (lease : CcbdLease) : Bool :=
  lease.mount_state = .mounted && answers.connectable lease.socket_path

def inspection_reason (takeover_allowed pid_alive heartbeat_fresh socket_connectable : Bool) :
    String :=
  let parts := (if pid_alive then [] else ["pid_missing"])
    ++ (if heartbeat_fresh then [] else ["heartbeat_stale"])
    ++ (if socket_connectable then [] else ["socket_unreachable"])
  if parts.isEmpty then (if takeover_allowed then "stale" else "degraded")
  else String.intercalate "," parts

def inspect (lease : Option CcbdLease) : LeaseInspection :=
  match lease with
  | none =>
    { lease := none
      pid_alive := false
      socket_connectable := false
      heartbeat_fresh := false
      takeover_allowed := true
      reason := "lease_missing" }
  | some lease =>
    let pid_alive := answers.pid_exists lease.ccbd_pid
    let heartbeat_fresh := heartbeat_is_fresh answers lease
    let socket_connectable := mounted_socket_connectable answers lease
    let inspected (takeover_allowed : Bool) (reason : String) : LeaseInspection :=
      { lease := some lease
        pid_alive := pid_alive
        socket_connectable := socket_connectable
        heartbeat_fresh := heartbeat_fresh
        takeover_allowed := takeover_allowed
        reason := reason }
    if lease.mount_state = .unmounted then inspected true "lease_unmounted"
    else if pid_alive && heartbeat_fresh && socket_connectable then inspected false "healthy"
    else
      let takeover_allowed := !pid_alive || (pid_alive && !heartbeat_fresh && !socket_connectable)
      inspected takeover_allowed
        (inspection_reason takeover_allowed pid_alive heartbeat_fresh socket_connectable)

/-- An `ExpectedStartupFence`. -/
structure ExpectedStartupFence where
  startup_id : StartupId
  generation : ℕ
  deriving DecidableEq

/-- The memory of a daemon. -/
structure DaemonApp where
  project_id : Text
  pid : ℕ
  daemon_instance_id : DaemonId
  keeper_pid : Option ℕ
  config_signature : Text
  socket_path : Text
  expected_startup_fence : Option ExpectedStartupFence
  startup_generation : Option ℕ
  lease : Option CcbdLease
  deriving DecidableEq

variable (app : DaemonApp)

def same_holder (lease : CcbdLease) : Bool :=
  lease.ccbd_pid = app.pid && lease.socket_path = app.socket_path

def verify_or_takeover (lease : Option CcbdLease) : Except CcbdError ℕ :=
  match lease with
  | none => .ok 1
  | some current =>
    if current.project_id ≠ app.project_id ∧ current.mount_state = .unmounted then
      .ok (current.generation + 1)
    else do
      refuseIf (current.project_id ≠ app.project_id)
        (.ownership_conflict "lease project_id mismatch")
      if same_holder app current then return current.generation
      else
        let inspection := inspect answers (some current)
        if inspection.takeover_allowed then return current.generation + 1
        else
          let pid := current.ccbd_pid
          let generation := current.generation
          let reason := inspection.reason
          .error (.ownership_conflict
            s!"ccbd lease is held by pid={pid} generation={generation}: {reason}")

def assert_expected_claim_allowed (generation : ℕ) (lease : Option CcbdLease) :
    Except CcbdError Unit := do
  refuseIf (generation = 0) (.ownership_conflict "expected ccbd generation must be positive")
  match lease with
  | none => return ()
  | some current =>
    if current.project_id = app.project_id ∧ current.generation = generation
        ∧ same_holder app current = true
        ∧ current.daemon_instance_id = some app.daemon_instance_id then
      return ()
    else if current.project_id ≠ app.project_id then
      refuseIf (¬ (current.mount_state = .unmounted ∧ current.generation < generation))
        (.ownership_conflict "ccbd lease project_id mismatch for expected claim")
    else do
      refuseIf (generation ≤ current.generation)
        (.ownership_conflict "ccbd expected generation is already held or superseded")
      refuseIf ((inspect answers (some current)).takeover_allowed = false)
        (.ownership_conflict "ccbd predecessor lease does not allow expected claim")

/-- `for valid, reason in checks: if not valid: raise`. -/
def validate_checks (rejected : String) (checks : List (Bool × String)) : Except CcbdError Unit :=
  match checks.find? fun check => !check.1 with
  | none => .ok ()
  | some check => .error (.startup_fence (rejected ++ check.2))

def validate_expected_startup_lifecycle (fence : ExpectedStartupFence)
    (lifecycle : Option CcbdLifecycle) : Except CcbdError CcbdLifecycle := do
  let lifecycle ← valueOr lifecycle (.startup_fence "expected startup lifecycle is missing")
  validate_checks "expected startup lifecycle rejected: "
    [(lifecycle.project_id = app.project_id, "project_id mismatch"),
      (lifecycle.desired_state = .running, "desired_state is not running"),
      (lifecycle.phase = .starting, "phase is not starting"),
      (lifecycle.startup_id = some fence.startup_id, "startup_id mismatch"),
      (lifecycle.generation = fence.generation, "generation mismatch"),
      (lifecycle.config_signature.getD [] = app.config_signature, "config_signature mismatch"),
      (lifecycle.socket_path = some app.socket_path, "socket_path mismatch")]
  return lifecycle

/-- What a region of a daemon works on: the files and its own memory. -/
structure Home where
  files : Files
  app : DaemonApp

inductive PlaceName where
  | lease
  | lifecycle
  | memory

/-- A region of a daemon. -/
abbrev DaemonCall (α : Type) := Prog PlaceName Home CcbdError α

open Prog

def load_lease : DaemonCall (Option CcbdLease) := read .lease fun h => h.files.lease

def load_lifecycle : DaemonCall (Option CcbdLifecycle) := read .lifecycle fun h => h.files.lifecycle

def this_app : DaemonCall DaemonApp := read .memory Home.app

def save_lease (lease : CcbdLease) : DaemonCall Unit :=
  write .lease fun h => { h with files := { h.files with
    lease := some lease
    written := h.files.written ++ [(h.app.daemon_instance_id, lease)] } }

def save_lifecycle (lifecycle : CcbdLifecycle) : DaemonCall Unit :=
  write .lifecycle fun h => { h with files := { h.files with lifecycle := some lifecycle } }

/-- `app.lease = lease`. -/
def set_lease (lease : Option CcbdLease) : DaemonCall Unit :=
  write .memory fun h => { h with app := { h.app with lease := lease } }

/-- `app.startup_generation = generation`. -/
def set_startup_generation (generation : ℕ) : DaemonCall Unit :=
  write .memory fun h => { h with app := { h.app with startup_generation := some generation } }

def current_lifecycle (lifecycle : Option CcbdLifecycle) : CcbdLifecycle :=
  lifecycle.getD
    { project_id := app.project_id
      desired_state := .running
      phase := .unmounted
      generation := app.lease.elim 0 CcbdLease.generation
      startup_id := none
      startup_stage := none
      startup_deadline_at := none
      keeper_pid := app.keeper_pid
      owner_pid := none
      owner_daemon_instance_id := none
      config_signature := some app.config_signature
      socket_path := some app.socket_path
      namespace_epoch := none
      last_failure_reason := none
      shutdown_intent := none }

def validate_legacy_startup_transaction (lifecycle : CcbdLifecycle) : Except CcbdError Unit := do
  refuseIf (lifecycle.phase = .starting ∧ lifecycle.startup_id ≠ none)
    (.startup_fence "keeper-owned startup requires an expected startup fence")
  refuseIf (lifecycle.phase = .stopping)
    (.startup_fence "cannot start ccbd while lifecycle is stopping")

def legacy_startup_generation (lifecycle : CcbdLifecycle) (verified_generation : ℕ) : ℕ :=
  if lifecycle.phase = .starting ∧ 0 < lifecycle.generation then
    max verified_generation lifecycle.generation
  else if verified_generation ≤ lifecycle.generation then lifecycle.generation + 1
  else verified_generation

def validate_starting_owner_available (lifecycle : CcbdLifecycle)
    (verified_generation : Option ℕ) : Except CcbdError Unit :=
  if lifecycle.owner_pid = none ∧ lifecycle.owner_daemon_instance_id = none then .ok ()
  else if lifecycle.owner_pid = some app.pid
      ∧ lifecycle.owner_daemon_instance_id = some app.daemon_instance_id then .ok ()
  else if verified_generation.any fun verified => lifecycle.generation < verified then .ok ()
  else .error (.startup_fence "startup lifecycle is already claimed by another child")

/-- A mounted lifecycle whose owner has died counts as one that starts. -/
def reset_crashed (lifecycle : CcbdLifecycle) : CcbdLifecycle :=
  if lifecycle.phase = .mounted ∧ lifecycle.owner_pid.any fun pid => !answers.pid_exists pid then
    { lifecycle with phase := .starting }
  else lifecycle

/-- The lifecycle that a daemon may claim and the generation that it starts with. -/
def startup_generation_of : DaemonCall (CcbdLifecycle × ℕ) := do
  let app ← this_app
  match app.expected_startup_fence with
  | none => do
    let lifecycle := current_lifecycle app (← load_lifecycle)
    ofExcept (validate_legacy_startup_transaction lifecycle)
    let lease ← load_lease
    let verified_generation ← ofExcept (verify_or_takeover answers app lease)
    ofExcept (validate_starting_owner_available app lifecycle (some verified_generation))
    return (lifecycle, legacy_startup_generation lifecycle verified_generation)
  | some fence => do
    let lifecycle := (← load_lifecycle).map (reset_crashed answers)
    let lifecycle ← ofExcept (validate_expected_startup_lifecycle app fence lifecycle)
    ofExcept (validate_starting_owner_available app lifecycle none)
    let lease ← load_lease
    ofExcept (assert_expected_claim_allowed answers app fence.generation lease)
    return (lifecycle, fence.generation)

/-- `_save_starting_owner_claim`. -/
def starting_owner_claim (lifecycle : CcbdLifecycle) (generation : ℕ) : CcbdLifecycle :=
  { lifecycle with
    phase := .starting
    desired_state := .running
    generation := generation
    keeper_pid := app.keeper_pid
    owner_pid := some app.pid
    owner_daemon_instance_id := some app.daemon_instance_id
    config_signature := some app.config_signature
    socket_path := some app.socket_path
    startup_id := app.expected_startup_fence.map ExpectedStartupFence.startup_id
    startup_stage := some .socket_listening
    startup_deadline_at := app.expected_startup_fence.bind fun _ => lifecycle.startup_deadline_at
    last_failure_reason := none
    shutdown_intent := none }

/-- The first region of `start`. -/
def claim_starting : DaemonCall Unit := do
  let (lifecycle, generation) ← startup_generation_of answers
  ofExcept (refuseIf (answers.listens = false) (.runtime "ccbd socket cannot be bound"))
  let app ← this_app
  save_lifecycle (starting_owner_claim app lifecycle generation)
  set_startup_generation generation

def validate_starting_owner (lifecycle : Option CcbdLifecycle) (generation : ℕ) :
    Except CcbdError CcbdLifecycle := do
  let lifecycle ← valueOr lifecycle
    (.startup_fence "starting owner claim rejected: lifecycle is missing")
  validate_checks "starting owner claim rejected: "
    [(lifecycle.desired_state = .running, "desired_state is not running"),
      (lifecycle.phase = .starting, "phase is not starting"),
      (lifecycle.generation = generation, "generation mismatch"),
      (lifecycle.owner_pid = some app.pid, "owner_pid mismatch"),
      (lifecycle.owner_daemon_instance_id = some app.daemon_instance_id,
        "owner daemon_instance_id mismatch"),
      (lifecycle.socket_path = some app.socket_path, "socket_path mismatch")]
  return lifecycle

def update_startup_progress (stage : StartupStage) : DaemonCall Unit := do
  let app ← this_app
  let found ← load_lifecycle
  let lifecycle ← ofExcept (match app.expected_startup_fence with
    | some fence => validate_expected_startup_lifecycle app fence found
    | none => do
      refuseIf (app.startup_generation.getD 0 = 0)
        (.startup_fence "legacy startup generation is missing during progress update")
      validate_starting_owner app found (app.startup_generation.getD 0))
  save_lifecycle { lifecycle with startup_stage := some stage }

/-- The lease of `mark_mounted`. -/
def mounted_lease (generation : ℕ) : CcbdLease :=
  { project_id := app.project_id
    ccbd_pid := app.pid
    socket_path := app.socket_path
    last_heartbeat_at := answers.now
    mount_state := .mounted
    generation := generation
    config_signature := some app.config_signature
    keeper_pid := app.keeper_pid
    daemon_instance_id := some app.daemon_instance_id }

/-- `_save_lifecycle_runtime_bootstrap`. -/
def runtime_bootstrap_lifecycle (lifecycle : CcbdLifecycle) (generation : ℕ) : CcbdLifecycle :=
  { lifecycle with
    phase := .starting
    desired_state := .running
    generation := generation
    keeper_pid := app.keeper_pid
    owner_pid := some app.pid
    owner_daemon_instance_id := some app.daemon_instance_id
    config_signature := some app.config_signature
    socket_path := some app.socket_path
    namespace_epoch := answers.namespace_epoch
    startup_stage := some .runtime_bootstrap
    last_failure_reason := none
    shutdown_intent := none }

def publish_mounted_after_bootstrap_probe : DaemonCall Unit := do
  let app ← this_app
  let generation := app.startup_generation.getD 0
  ofExcept (refuseIf (generation = 0)
    (.startup_fence "startup generation is missing before mounted publish"))
  let found ← load_lifecycle
  ofExcept (match app.expected_startup_fence with
    | some fence => do
      let _ ← validate_expected_startup_lifecycle app fence found
      return ()
    | none => return ())
  let lease ← load_lease
  ofExcept (assert_expected_claim_allowed answers app generation lease)
  let lifecycle ← ofExcept (validate_starting_owner app found generation)
  let new_lease := mounted_lease answers app generation
  save_lease new_lease
  save_lifecycle (runtime_bootstrap_lifecycle answers app lifecycle generation)
  set_lease (some new_lease)

def validate_lease_holder (lease : Option CcbdLease) (generation : ℕ) : Except CcbdError Unit := do
  let lease ← valueOr lease (.startup_fence "expected startup lease is missing")
  validate_checks "expected startup lease rejected: "
    [(lease.project_id = app.project_id, "project_id mismatch"),
      (lease.generation = generation, "generation mismatch"),
      (lease.ccbd_pid = app.pid, "pid mismatch"),
      (lease.daemon_instance_id = some app.daemon_instance_id, "daemon_instance_id mismatch"),
      (lease.socket_path = app.socket_path, "socket_path mismatch"),
      (lease.mount_state = .mounted, "mount_state is not mounted")]

/-- The phases and stages of a daemon that has published its lease. -/
def phase_is_current (lifecycle : CcbdLifecycle) : Bool :=
  (lifecycle.phase = .starting && lifecycle.startup_stage = some .runtime_bootstrap)
    || (lifecycle.phase = .mounted && lifecycle.startup_stage = some .mounted)

/-- `_validate_current_startup_authority_locked`. -/
def validate_current_startup_authority (lifecycle : Option CcbdLifecycle)
    (lease : Option CcbdLease) (generation : ℕ) : Except CcbdError CcbdLifecycle := do
  let startup_id := lifecycle.bind CcbdLifecycle.startup_id
  refuseIf (app.expected_startup_fence.any fun fence => startup_id ≠ some fence.startup_id)
    (.startup_fence "mounted startup authority rejected: startup_id mismatch")
  let lifecycle ← valueOr lifecycle
    (.startup_fence "current startup authority rejected: lifecycle is missing")
  validate_checks "current startup authority rejected: "
    [(lifecycle.project_id = app.project_id, "project_id mismatch"),
      (lifecycle.desired_state = .running, "desired_state is not running"),
      (phase_is_current lifecycle, "phase/stage is not current startup authority"),
      (lifecycle.generation = generation, "generation mismatch"),
      (lifecycle.owner_pid = some app.pid, "owner_pid mismatch"),
      (lifecycle.owner_daemon_instance_id = some app.daemon_instance_id,
        "owner daemon_instance_id mismatch"),
      (lifecycle.socket_path = some app.socket_path, "socket_path mismatch")]
  validate_lease_holder app lease generation
  return lifecycle

/-- `generation or fallback`. -/
def positive_or (generation fallback : ℕ) : ℕ := if generation = 0 then fallback else generation

/-- `_save_lifecycle_mounted`. -/
def mounted_lifecycle (lifecycle : CcbdLifecycle) : CcbdLifecycle :=
  { lifecycle with
    phase := .mounted
    desired_state := .running
    generation := positive_or (app.lease.elim 0 CcbdLease.generation) lifecycle.generation
    keeper_pid := app.keeper_pid
    owner_pid := some app.pid
    owner_daemon_instance_id := some app.daemon_instance_id
    config_signature := some app.config_signature
    socket_path := some app.socket_path
    namespace_epoch := answers.namespace_epoch
    startup_stage := some .mounted
    startup_deadline_at := none
    last_failure_reason := none
    shutdown_intent := none }

/-- The region of `_mark_runtime_bootstrap_complete`. -/
def mark_runtime_bootstrap_complete : DaemonCall Unit := do
  let app ← this_app
  ofExcept (refuseIf (app.startup_generation.getD 0 = 0)
    (.startup_fence "startup generation is missing before runtime bootstrap completion"))
  let found ← load_lifecycle
  let lease ← load_lease
  let lifecycle ← ofExcept (validate_current_startup_authority app found lease
    (app.startup_generation.getD 0))
  save_lifecycle (mounted_lifecycle answers app lifecycle)

def assert_expected_holder (lease : CcbdLease) : Except CcbdError Unit := do
  refuseIf (lease.ccbd_pid ≠ app.pid) (.runtime "ccbd lease holder changed: pid")
  refuseIf (lease.daemon_instance_id ≠ some app.daemon_instance_id)
    (.runtime "ccbd lease holder changed: daemon_instance_id")

def heartbeat_write_due (lease : CcbdLease) : Bool :=
  let elapsed := answers.now - lease.last_heartbeat_at
  answers.heartbeat_write_interval ≤ 0 || elapsed < 0
    || answers.heartbeat_write_interval ≤ elapsed

def refresh_heartbeat : DaemonCall CcbdLease := do
  let app ← this_app
  let found ← load_lease
  let lease ← ofExcept (valueOr found (.runtime "ccbd lease does not exist"))
  if lease.mount_state ≠ .mounted then return lease
  else do
    ofExcept (assert_expected_holder app lease)
    if heartbeat_write_due answers lease then do
      let updated := { lease with last_heartbeat_at := answers.now }
      save_lease updated
      return updated
    else return lease

/-- `_record_heartbeat_failures_locked`. -/
def record_heartbeat_failures (failures : Option Text) : DaemonCall Unit := do
  match ← load_lifecycle with
  | none => return ()
  | some lifecycle =>
    if lifecycle.phase ∈ [Phase.starting, .mounted] ∧ lifecycle.last_failure_reason ≠ failures then
      save_lifecycle { lifecycle with last_failure_reason := failures }
    else return ()

/-- The region of `heartbeat`. -/
def heartbeat (failures : Option Text) : DaemonCall Unit := do
  let app ← this_app
  let generation := app.startup_generation.getD 0
  let found ← load_lifecycle
  if 0 < generation ∧ found.any fun lifecycle => lifecycle.desired_state ≠ .running then
    return ()
  else do
    let lease ← load_lease
    ofExcept (if 0 < generation then do
        let _ ← validate_current_startup_authority app found lease generation
        return ()
      else return ())
    let refreshed ← refresh_heartbeat answers
    set_lease (some refreshed)
    record_heartbeat_failures failures

def update_current_lease_config_signature (config_signature : Text) (expected_generation : ℕ) :
    DaemonCall Unit := do
  let app ← this_app
  let found ← load_lease
  let lease ← ofExcept (valueOr found (.runtime "ccbd lease does not exist"))
  ofExcept (refuseIf (lease.mount_state ≠ .mounted) (.runtime "ccbd lease is not mounted"))
  ofExcept (assert_expected_holder app lease)
  ofExcept (refuseIf (lease.generation ≠ expected_generation)
    (.runtime "ccbd lease generation changed"))
  ofExcept (refuseIf (config_signature = []) (.runtime "config_signature cannot be empty"))
  save_lease { lease with
    config_signature := some config_signature
    last_heartbeat_at := answers.now }

def assert_mounted_lifecycle_signature_handoff (lifecycle : Option CcbdLifecycle)
    (expected_generation : ℕ) : Except CcbdError CcbdLifecycle := do
  let lifecycle ← valueOr lifecycle (.runtime "ccbd lifecycle does not exist")
  refuseIf (lifecycle.phase ≠ .mounted) (.runtime "ccbd lifecycle is not mounted")
  refuseIf (lifecycle.generation ≠ expected_generation)
    (.runtime "ccbd lifecycle generation changed")
  refuseIf (lifecycle.owner_pid.any fun pid => pid ≠ app.pid)
    (.runtime "ccbd lifecycle owner changed: pid")
  refuseIf (lifecycle.owner_daemon_instance_id ≠ some app.daemon_instance_id)
    (.runtime "ccbd lifecycle owner changed: daemon_instance_id")
  return lifecycle

def update_mounted_lifecycle_config_signature (config_signature : Text)
    (expected_generation : ℕ) : DaemonCall Unit := do
  let app ← this_app
  let found ← load_lifecycle
  let lifecycle ← ofExcept (assert_mounted_lifecycle_signature_handoff app found
    expected_generation)
  ofExcept (refuseIf (config_signature = []) (.runtime "config_signature cannot be empty"))
  save_lifecycle { lifecycle with
    desired_state := .running
    keeper_pid := app.keeper_pid
    owner_pid := some app.pid
    owner_daemon_instance_id := some app.daemon_instance_id
    config_signature := some config_signature
    socket_path := some app.socket_path
    namespace_epoch := answers.namespace_epoch.or lifecycle.namespace_epoch
    startup_stage := some .mounted
    startup_deadline_at := none
    last_failure_reason := none
    shutdown_intent := none }

def lease_is_app_generation (lease : Option CcbdLease) (generation : ℕ)
    (mount_state : MountState) : Bool :=
  lease.any fun lease =>
    lease.mount_state = mount_state && lease.project_id = app.project_id
      && lease.generation = generation && lease.ccbd_pid = app.pid
      && lease.daemon_instance_id = some app.daemon_instance_id
      && lease.socket_path = app.socket_path

def is_released_app_lease (lease : Option CcbdLease) : Bool :=
  let generation := app.startup_generation.getD 0
  let generation := if generation = 0 then lease.elim 0 CcbdLease.generation else generation
  lease_is_app_generation app lease generation .unmounted

def matches_expected_startup_transaction (fence : ExpectedStartupFence)
    (lifecycle : Option CcbdLifecycle) : Bool :=
  lifecycle.any fun lifecycle =>
    lifecycle.project_id = app.project_id && lifecycle.startup_id = some fence.startup_id
      && lifecycle.generation = fence.generation

def is_owner (lifecycle : CcbdLifecycle) : Bool :=
  lifecycle.owner_pid = some app.pid
    && lifecycle.owner_daemon_instance_id = some app.daemon_instance_id

/-- `_can_release_lifecycle_without_lease_locked`. -/
def can_release_lifecycle_without_lease (lease : Option CcbdLease)
    (lifecycle : Option CcbdLifecycle) : Bool :=
  lease.isNone && lifecycle.any fun lifecycle =>
    let generation := app.startup_generation.getD 0
    generation ≠ 0 && lifecycle.generation = generation
      && lifecycle.phase ∈ [Phase.starting, .mounted, .stopping]
      && lifecycle.socket_path = some app.socket_path
      && (app.expected_startup_fence.all fun fence =>
        matches_expected_startup_transaction app fence (some lifecycle))
      && ((app.expected_startup_fence.isSome && lifecycle.phase = .stopping
          && lifecycle.desired_state = .stopped)
        || is_owner app lifecycle)

/-- `_save_lifecycle_unmounted`. -/
def unmounted_lifecycle (lifecycle : CcbdLifecycle) (desired_state : DesiredState) :
    CcbdLifecycle :=
  { lifecycle with
    phase := .unmounted
    desired_state :=
      if lifecycle.desired_state = .stopped ∨ desired_state = .stopped then .stopped else .running
    owner_pid := none
    owner_daemon_instance_id := none
    socket_path := some app.socket_path
    namespace_epoch := none
    startup_stage := none
    startup_deadline_at := none
    last_failure_reason := none }

/-- `_mark_lifecycle_unmounted_locked`. -/
def mark_lifecycle_unmounted (desired_state : DesiredState) : DaemonCall Unit := do
  let app ← this_app
  let found ← load_lifecycle
  if app.expected_startup_fence.any fun fence =>
      !matches_expected_startup_transaction app fence found then return ()
  else do
    let lifecycle := current_lifecycle app found
    if lifecycle.phase = .failed then return ()
    else save_lifecycle (unmounted_lifecycle app lifecycle desired_state)

/-- `_mark_current_daemon_unmounted_locked`: `mark_unmounted`, with none for a failure. -/
def mark_current_daemon_unmounted : DaemonCall (Option CcbdLease) := do
  let app ← this_app
  match ← load_lease with
  | none => return none
  | some lease =>
    match assert_expected_holder app lease with
    | .error _ => return none
    | .ok _ => do
      let updated := { lease with
        mount_state := .unmounted
        last_heartbeat_at := answers.now }
      save_lease updated
      return some updated

/-- The region of `release_backend_ownership`. -/
def release_backend_ownership (desired_state : DesiredState) : DaemonCall Unit := do
  let app ← this_app
  let lease ← mark_current_daemon_unmounted answers
  let current ← load_lease
  let found ← load_lifecycle
  if is_released_app_lease app lease && is_released_app_lease app current
      || lease.isNone && can_release_lifecycle_without_lease app current found then
    mark_lifecycle_unmounted desired_state
  else pure ()
  set_lease lease

def legacy_failure_write_allowed (lifecycle : CcbdLifecycle) (lease : Option CcbdLease) : Bool :=
  let generation := app.startup_generation.getD 0
  lifecycle.desired_state = .running && generation ≠ 0 && lifecycle.generation = generation
    && ((lifecycle.phase ∈ [Phase.starting, .mounted] && is_owner app lifecycle)
      || (lifecycle.phase = .unmounted && lease_is_app_generation app lease generation .unmounted))

/-- The same for a daemon that a keeper has spawned. -/
def fenced_failure_write_allowed (fence : ExpectedStartupFence) (lifecycle : CcbdLifecycle)
    (lease : Option CcbdLease) : Bool :=
  matches_expected_startup_transaction app fence (some lifecycle)
    && lifecycle.desired_state = .running
    && ((lifecycle.phase ∈ [Phase.starting, .mounted] && is_owner app lifecycle)
      || (lifecycle.phase = .unmounted
        && lease_is_app_generation app lease fence.generation .unmounted))

/-- `_save_lifecycle_failed`. -/
def failed_lifecycle (lifecycle : CcbdLifecycle) (failure_reason : Text) : CcbdLifecycle :=
  { lifecycle with
    phase := .failed
    owner_pid := none
    owner_daemon_instance_id := none
    socket_path := some app.socket_path
    namespace_epoch := none
    startup_stage := some .failed
    startup_deadline_at := none
    last_failure_reason := some failure_reason }

def mark_lifecycle_failed (failure_reason : Text) : DaemonCall Unit := do
  let app ← this_app
  match ← load_lifecycle with
  | none => return ()
  | some lifecycle => do
    let lease ← load_lease
    let allowed := match app.expected_startup_fence with
      | some fence => fenced_failure_write_allowed app fence lifecycle lease
      | none => legacy_failure_write_allowed app lifecycle lease
    if allowed then save_lifecycle (failed_lifecycle app lifecycle failure_reason)
    else return ()

def mark_lifecycle_stopping (shutdown_intent : Text) : DaemonCall Unit := do
  let app ← this_app
  let found ← load_lifecycle
  save_lifecycle { current_lifecycle app found with
    phase := .stopping
    desired_state := .stopped
    startup_stage := none
    startup_deadline_at := none
    shutdown_intent := some shutdown_intent
    last_failure_reason := none }

/-- A lifecycle that takes another epoch: it runs, and the lease is of its generation, whoever
holds it. -/
def epoch_is_due (lifecycle : CcbdLifecycle) (lease : Option CcbdLease) (epoch : ℕ) : Bool :=
  lifecycle.desired_state = .running && lease.map CcbdLease.generation = some lifecycle.generation
    && lifecycle.phase ∉ [Phase.unmounted, .stopping] && lifecycle.namespace_epoch ≠ some epoch

/-- The region of `_sync_lifecycle_namespace_epoch`, which a start of the supervisor comes to: when
the daemon starts, and when a heartbeat finds that the namespace is to be mounted again. -/
def sync_lifecycle_namespace_epoch (epoch : ℕ) : DaemonCall Unit := do
  match ← load_lifecycle with
  | none => return ()
  | some lifecycle => do
    let lease ← load_lease
    if epoch_is_due lifecycle lease epoch then
      save_lifecycle { lifecycle with namespace_epoch := some epoch }
    else return ()

end ClaudeCodeBridge.Model.Ownership
