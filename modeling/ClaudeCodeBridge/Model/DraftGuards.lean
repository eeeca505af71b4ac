import ClaudeCodeBridge.Program.JsonText

/-!
# Draft guards

`lib/provider_execution/draft_guard.py` keeps messages out of a composer in which a draft stands.
An empty composer lets a message in; a draft is cleared, once, when it has stood there for
`WAIT_SECONDS`.  `draft_preclaim` keeps a guard for the job at the head of each agent's queue.

Whatever the guards ask of the world takes a tick: an observation of a composer, a look at the
clock, a key that clears a composer.  What is seen and done is logged with its tick.
-/

set_option autoImplicit false

namespace ClaudeCodeBridge.Model.DraftGuards

open Program

def wait_seconds : ℚ := 180

inductive ComposerState where
  | empty
  | nonempty
  | unknown
  deriving DecidableEq

structure Observation where
  state : ComposerState
  binding : Text
  reason : Text
  deriving DecidableEq

structure DraftGuard where
  binding : Text
  since : Option ℚ
  clear_attempted : Bool
  reason : Text
  deriving DecidableEq

/-- `DraftGuard()`. -/
def DraftGuard.fresh : DraftGuard :=
  { binding := []
    since := none
    clear_attempted := false
    reason := asciiText "unobserved" }

def DraftGuard.reset (guard : DraftGuard) (reason : Text) : DraftGuard :=
  { guard with since := none, reason := reason }

/-- What the world answers at a tick. -/
structure World where
  observe : ℕ → Observation
  clock : ℕ → ℚ
  /-- Whether `target.clear` returns, and does not raise. -/
  clear : ℕ → Bool

inductive Event where
  | observed (observation : Observation)
  /-- `target.clear(observation)`. -/
  | cleared (observation : Observation)
  deriving DecidableEq

/-- A guard at a tick, with what it has seen and done. -/
structure Watch where
  guard : DraftGuard
  tick : ℕ
  log : List (ℕ × Event)

namespace Watch

variable (world : World)

def observe (w : Watch) : Watch :=
  { w with tick := w.tick + 1, log := w.log ++ [(w.tick, .observed (world.observe w.tick))] }

/-- `self.clock()`. -/
def look (w : Watch) : Watch := { w with tick := w.tick + 1 }

/-- `target.clear(observation)`. -/
def clear (w : Watch) (observation : Observation) : Watch :=
  { w with tick := w.tick + 1, log := w.log ++ [(w.tick, .cleared observation)] }

def set (w : Watch) (guard : DraftGuard) : Watch := { w with guard := guard }

def explain (w : Watch) (reason : Text) : Watch := w.set { w.guard with reason := reason }

/-- The end of `allows`, after the key that clears the draft. -/
def confirm (w : Watch) : Bool × Watch :=
  let after := world.observe w.tick
  let w := w.observe world
  if after.binding = w.guard.binding ∧ after.state = .empty then
    (true, w.set { w.guard with
      since := none
      clear_attempted := false
      reason := asciiText "cleared" })
  else (false, w.explain (asciiText "clear_unconfirmed"))

/-- `allows`, once the draft has stood long enough. -/
def clear_draft (w : Watch) : Bool × Watch :=
  let fresh := world.observe w.tick
  let w := w.observe world
  if fresh.binding ≠ w.guard.binding ∨ fresh.state ≠ .nonempty then
    (false, w.set (w.guard.reset (asciiText "draft_changed_before_clear")))
  else
    let w := w.set { w.guard with clear_attempted := true }
    let returned := world.clear w.tick
    let w := w.clear fresh
    if returned then w.confirm world else (false, w.explain (asciiText "clear_failed"))

/-- `allows`, once the guard has noted since when a draft stands. -/
def wait_since (w : Watch) : Bool × Watch :=
  let now := world.clock w.tick
  let w := w.look
  if now - w.guard.since.getD now < wait_seconds then
    (false, w.explain (asciiText "waiting_for_draft"))
  else w.clear_draft world

/-- `allows`, while a draft stands in the composer. -/
def wait_for_draft (w : Watch) : Bool × Watch :=
  if w.guard.clear_attempted then (false, w.explain (asciiText "clear_unconfirmed"))
  else
    match w.guard.since with
    | some _ => w.wait_since world
    | none => (w.look.set { w.guard with since := some (world.clock w.tick) }).wait_since world

/-- The guard of another binding begins again. -/
def rebound (guard : DraftGuard) (binding : Text) : DraftGuard :=
  if guard.binding ≠ binding then
    { guard with binding := binding, since := none, clear_attempted := false }
  else guard

def allows (w : Watch) : Bool × Watch :=
  let observation := world.observe w.tick
  let w := w.observe world
  match observation.state with
  | .unknown => (false, w.set (w.guard.reset observation.reason))
  | .empty =>
    (true, w.set { rebound w.guard observation.binding with
      reason := observation.reason
      since := none
      clear_attempted := false })
  | .nonempty =>
    (w.set { rebound w.guard observation.binding with
      reason := observation.reason }).wait_for_draft world

/-- What can happen to a guard. -/
inductive Step where
  | allows
  | reset (reason : Text)
  /-- Something else takes a tick. -/
  | idle

def step (w : Watch) : Step → Watch
  | .allows => (w.allows world).2
  | .reset reason => w.set (w.guard.reset reason)
  | .idle => w.look

/-- A guard that has just been made. -/
def start (tick : ℕ) : Watch := { guard := .fresh, tick := tick, log := [] }

def run (w : Watch) (steps : List Step) : Watch := steps.foldl (step world) w

end Watch

inductive PreclaimState where
  | allowed
  | blocked
  | terminal_failure
  deriving DecidableEq

structure PreclaimOutcome where
  state : PreclaimState
  reason : Text
  deriving DecidableEq

def terminal_failure_reason : Text := asciiText "provider_reconnect_failed"

/-- What `resolve_job_target` makes of a job. -/
inductive Target where
  /-- It raises. -/
  | unavailable
  | unguarded
  | guarded
  deriving DecidableEq

structure Job where
  job_id : Text
  agent_name : Text
  provider : Text
  deriving DecidableEq

/-- The guard of the job at the head of an agent's queue. -/
structure Guarded where
  job_id : Text
  guard : DraftGuard
  log : List (ℕ × Event)
  deriving DecidableEq

/-- `_draft_guards`, at a tick. -/
structure ExecutionService where
  draft_guards : Text → Option Guarded
  tick : ℕ

namespace ExecutionService

/-- `_draft_guards[agent_name] = guarded`, or its removal. -/
def put (s : ExecutionService) (agent_name : Text) (guarded : Option Guarded) (tick : ℕ) :
    ExecutionService :=
  { draft_guards := fun name => if name = agent_name then guarded else s.draft_guards name
    tick := tick }

def guard_of (s : ExecutionService) (job : Job) : Guarded :=
  match s.draft_guards job.agent_name with
  | some previous =>
    if previous.job_id = job.job_id then previous
    else { job_id := job.job_id, guard := .fresh, log := [] }
  | none => { job_id := job.job_id, guard := .fresh, log := [] }

def watch_of (s : ExecutionService) (job : Job) : Watch :=
  { guard := (s.guard_of job).guard
    tick := s.tick
    log := (s.guard_of job).log }

def draft_preclaim (world : World) (s : ExecutionService) (job : Job) (target : Target) :
    PreclaimOutcome × ExecutionService :=
  let watch := s.watch_of job
  match target with
  | .unavailable =>
    let reason := asciiText "binding_unavailable"
    (⟨.blocked, reason⟩,
      s.put job.agent_name
        (some { job_id := job.job_id, guard := watch.guard.reset reason, log := watch.log }) s.tick)
  | .unguarded => (⟨.allowed, []⟩, s.put job.agent_name none s.tick)
  | .guarded =>
    let (allowed, watch) := watch.allows world
    if allowed then (⟨.allowed, watch.guard.reason⟩, s.put job.agent_name none watch.tick)
    else
      (if job.provider = asciiText "codex" ∧ watch.guard.reason = terminal_failure_reason then
          ⟨.terminal_failure, watch.guard.reason⟩
        else ⟨.blocked, watch.guard.reason⟩,
        s.put job.agent_name
          (some { job_id := job.job_id, guard := watch.guard, log := watch.log }) watch.tick)

end ExecutionService

end ClaudeCodeBridge.Model.DraftGuards
