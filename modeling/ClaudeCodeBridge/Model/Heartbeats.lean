import ClaudeCodeBridge.Model.RelayCrypto

/-!
# Heartbeats

`lib/heartbeat/engine_runtime.py`: when a job has made no progress for some time its caller is
told so, and told again at intervals, until there is progress.  An evaluation takes the state that
the last one has returned.

Timestamps are texts; what time one of them is, in seconds, is a parameter, and a text that is no
timestamp has none.
-/

set_option autoImplicit false

namespace ClaudeCodeBridge.Model.Heartbeat

open Program
open Model.Relay (strip)

/-- `parse_timestamp`, which raises on an empty text, and on one with spaces around it.  All times
have an offset, as `utc_now_iso` writes them. -/
structure Timestamps where
  parse : Text → Option ℚ
  parse_nil : parse [] = none
  strip_parsed : ∀ text seconds, parse text = some seconds → strip text = text

inductive HeartbeatAction where
  | idle
  | reset
  | enter
  | repeat_
  deriving DecidableEq

structure HeartbeatPolicy where
  silence_start_after_s : ℚ
  repeat_interval_s : ℚ
  max_notice_count : Option ℕ
  silence_nonneg : 0 ≤ silence_start_after_s
  repeat_pos : 0 < repeat_interval_s
  max_pos : ∀ count, max_notice_count = some count → 0 < count

structure HeartbeatState where
  subject_kind : Text
  subject_id : Text
  owner : Text
  last_progress_at : Text
  last_notice_at : Option Text
  heartbeat_started_at : Option Text
  notice_count : ℕ
  updated_at : Text
  deriving DecidableEq

structure HeartbeatDecision where
  action : HeartbeatAction
  subject_kind : Text
  subject_id : Text
  owner : Text
  last_progress_at : Text
  last_notice_at : Option Text
  silence_seconds : ℚ
  notice_count : ℕ
  deriving DecidableEq

def HeartbeatDecision.notice_due (decision : HeartbeatDecision) : Bool :=
  decision.action ∈ [HeartbeatAction.enter, HeartbeatAction.repeat_]

inductive HeartbeatError where
  /-- `<field> cannot be empty`. -/
  | empty (field : String)
  deriving DecidableEq

/-- Whose heartbeat it is. -/
structure Subject where
  kind : Text
  id : Text
  owner : Text
  deriving DecidableEq

def filled (field : String) (value : Text) : Except HeartbeatError Unit :=
  if strip value = [] then .error (.empty field) else .ok ()

/-- `__post_init__`, also of a state that `replace` makes. -/
def HeartbeatState.post_init (state : HeartbeatState) : Except HeartbeatError HeartbeatState := do
  filled "subject_kind" state.subject_kind
  filled "subject_id" state.subject_id
  filled "owner" state.owner
  filled "last_progress_at" state.last_progress_at
  filled "updated_at" state.updated_at
  return state

variable (stamps : Timestamps)

/-- `seconds_between`, unless it raises. -/
def seconds_between (start finish : Text) : Option ℚ := do
  let start ← stamps.parse start
  let finish ← stamps.parse finish
  return finish - start

def progress_timestamp (observed_last_progress_at now : Text) : Except HeartbeatError Text :=
  let progress_at :=
    if strip observed_last_progress_at = [] then strip now else strip observed_last_progress_at
  if progress_at = [] then .error (.empty "observed_last_progress_at") else .ok progress_at

def current_state (subject : Subject) (progress_at now : Text) :
    Option HeartbeatState → Except HeartbeatError HeartbeatState
  | some state => .ok state
  | none =>
    HeartbeatState.post_init
      { subject_kind := subject.kind
        subject_id := subject.id
        owner := subject.owner
        last_progress_at := progress_at
        last_notice_at := none
        heartbeat_started_at := none
        notice_count := 0
        updated_at := now }

def state_with_subject (current : HeartbeatState) (subject : Subject) :
    Except HeartbeatError HeartbeatState :=
  HeartbeatState.post_init
    { current with
      subject_kind := subject.kind
      subject_id := subject.id
      owner := subject.owner }

def heartbeat_active (state : HeartbeatState) : Bool :=
  0 < state.notice_count || state.last_notice_at.isSome

def reset_state (base : HeartbeatState) (progress_at now : Text) :
    Except HeartbeatError HeartbeatState :=
  HeartbeatState.post_init
    { base with
      last_progress_at := progress_at
      last_notice_at := none
      heartbeat_started_at := none
      notice_count := 0
      updated_at := now }

/-- A notice is issued, the first one or one more: `_enter_state` and `_repeat_state`. -/
def noticed_state (base : HeartbeatState) (now : Text) (notice_count : ℕ) :
    Except HeartbeatError HeartbeatState :=
  HeartbeatState.post_init
    { base with
      last_notice_at := some now
      heartbeat_started_at := some ((base.heartbeat_started_at.filter (· ≠ [])).getD now)
      notice_count := notice_count
      updated_at := now }

def enter_state (base : HeartbeatState) (now : Text) : Except HeartbeatError HeartbeatState :=
  noticed_state base now 1

def repeat_state (base : HeartbeatState) (now : Text) : Except HeartbeatError HeartbeatState :=
  noticed_state base now (base.notice_count + 1)

/-- `max(0.0, seconds_between(start, now))`, and 0 where that raises. -/
def seconds_since (start now : Text) : ℚ := ((seconds_between stamps start now).map (max 0)).getD 0

def silence_seconds (progress_at now : Text) : ℚ := seconds_since stamps progress_at now

def should_enter_heartbeat (state : HeartbeatState) : Bool :=
  state.last_notice_at.isNone || state.notice_count = 0

def notice_limit_reached (state : HeartbeatState) (policy : HeartbeatPolicy) : Bool :=
  policy.max_notice_count.any fun count => count ≤ state.notice_count

def since_last_notice_seconds (state : HeartbeatState) (now : Text) : ℚ :=
  match state.last_notice_at with
  | none => 0
  | some last_notice_at => seconds_since stamps last_notice_at now

def repeat_interval_not_elapsed (state : HeartbeatState) (policy : HeartbeatPolicy) (now : Text) :
    Bool :=
  since_last_notice_seconds stamps state now < policy.repeat_interval_s

/-- `_decision`. -/
def decide_on (action : HeartbeatAction) (state : HeartbeatState) (silence_seconds : ℚ) :
    HeartbeatState × HeartbeatDecision :=
  (state,
    { action := action
      subject_kind := state.subject_kind
      subject_id := state.subject_id
      owner := state.owner
      last_progress_at := state.last_progress_at
      last_notice_at := state.last_notice_at
      silence_seconds := silence_seconds
      notice_count := state.notice_count })

def progress_advanced (observed recorded : Text) : Bool :=
  if observed = recorded then false
  else
    match seconds_between stamps recorded observed with
    | some seconds => 0 < seconds
    | none => true

/-- `evaluate_heartbeat`, where there has been no new progress. -/
def evaluate_silence (policy : HeartbeatPolicy) (progress_at now : Text) (base : HeartbeatState) :
    Except HeartbeatError (HeartbeatState × HeartbeatDecision) :=
  let silence_seconds := silence_seconds stamps progress_at now
  if silence_seconds < policy.silence_start_after_s then .ok (decide_on .idle base silence_seconds)
  else if should_enter_heartbeat base then do
    let next_state ← enter_state base now
    return decide_on .enter next_state silence_seconds
  else if notice_limit_reached base policy then .ok (decide_on .idle base silence_seconds)
  else if repeat_interval_not_elapsed stamps base policy now then
    .ok (decide_on .idle base silence_seconds)
  else do
    let next_state ← repeat_state base now
    return decide_on .repeat_ next_state silence_seconds

def evaluate_heartbeat (policy : HeartbeatPolicy) (subject : Subject)
    (observed_last_progress_at now : Text) (state : Option HeartbeatState) :
    Except HeartbeatError (HeartbeatState × HeartbeatDecision) := do
  let progress_at ← progress_timestamp observed_last_progress_at now
  let current ← current_state subject progress_at now state
  let base ← state_with_subject current subject
  if progress_advanced stamps progress_at current.last_progress_at &&
      heartbeat_active current then do
    let next_state ← reset_state base progress_at now
    return decide_on .reset next_state 0
  else do
    let base ← HeartbeatState.post_init { base with last_progress_at := progress_at }
    evaluate_silence stamps policy progress_at now base

/-- What an evaluation is given besides its state. -/
structure Reading where
  observed_last_progress_at : Text
  now : Text
  deriving DecidableEq

structure Evaluation where
  reading : Reading
  state : Option HeartbeatState
  next_state : HeartbeatState
  decision : HeartbeatDecision
  deriving DecidableEq

/-- One more evaluation, with the state that the last one has returned. -/
def evaluate_next (policy : HeartbeatPolicy) (subject : Subject) (evaluations : List Evaluation)
    (reading : Reading) : Except HeartbeatError (List Evaluation) := do
  let state := evaluations.getLast?.map Evaluation.next_state
  let (next_state, decision) ←
    evaluate_heartbeat stamps policy subject reading.observed_last_progress_at reading.now state
  return evaluations ++ [⟨reading, state, next_state, decision⟩]

def evaluate_all (policy : HeartbeatPolicy) (subject : Subject) (readings : List Reading) :
    Except HeartbeatError (List Evaluation) :=
  readings.foldlM (evaluate_next stamps policy subject) []

end ClaudeCodeBridge.Model.Heartbeat
