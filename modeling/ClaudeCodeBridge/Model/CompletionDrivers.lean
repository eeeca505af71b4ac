import Mathlib.Data.List.MinMax
import Mathlib.Data.Prod.Lex
import ClaudeCodeBridge.Model.CompletionDetectors

/-!
# The two drivers of completion detectors

`CompletionTrackerService` (`lib/completion/tracker.py`) is fed items by the dispatcher
and keeps a detector and a reply selector for each job; `CompletionOrchestrator.run`
(`lib/completion/orchestration.py`) polls a source itself.  The three selector classes
have no body of their own, so one selector stands for them.
-/

set_option autoImplicit false

namespace ClaudeCodeBridge.Model.Completion

open Program

inductive ReplyCandidateKind where
  | last_agent_message | final_answer | assistant_final | assistant_chunk_merged
  | session_reply | fallback_text
  deriving DecidableEq

/-- `REPLY_PRIORITY`. -/
def ReplyCandidateKind.priority : ReplyCandidateKind → ℕ
  | last_agent_message => 2
  | final_answer => 3
  | assistant_final => 4
  | assistant_chunk_merged => 5
  | session_reply => 6
  | fallback_text => 7

structure ReplyCandidate where
  kind : ReplyCandidateKind
  text : String
  timestamp : Timestamp
  provider_turn_ref : Option String
  priority : ℕ
  cursor : CompletionCursor
  deriving DecidableEq

/-- `ReplyCandidate(kind, text, ..., priority=None)` for the first of the keys with a text. -/
def candidate (item : CompletionItem) (kind : ReplyCandidateKind) (keys : List String) :
    List ReplyCandidate :=
  match first_non_empty item.payload keys with
  | none => []
  | some text =>
    [{ kind := kind
       text := text
       timestamp := item.timestamp
       provider_turn_ref := first_non_empty item.payload
         ["turn_id", "provider_turn_ref", "message_id", "session_id"]
       priority := kind.priority
       cursor := item.cursor }]

def reply_candidates_from_item (item : CompletionItem) : List ReplyCandidate :=
  candidate item .last_agent_message ["last_agent_message"]
    ++ (match item.kind with
      | .result => candidate item .final_answer ["reply", "result_text", "final_answer", "text"]
      | .assistant_final => candidate item .assistant_final ["text", "reply"]
      | .assistant_chunk =>
        candidate item .assistant_chunk_merged ["merged_text", "text", "reply"]
      | .session_snapshot | .session_mutation =>
        candidate item .session_reply ["reply", "content", "text"]
      | _ => [])
    ++ candidate item .fallback_text ["fallback_text"]

structure ReplySelector where
  candidates : List (ℕ × ReplyCandidate)
  sequence : ℕ
  deriving DecidableEq

namespace ReplySelector

/-- `BaseReplySelector()`. -/
def new : ReplySelector := ⟨[], 0⟩

def ingest_candidate (s : ReplySelector) (candidate : ReplyCandidate) : ReplySelector :=
  ⟨s.candidates ++ [(s.sequence, candidate)], s.sequence + 1⟩

/-- It does not restart the sequence. -/
def reset (s : ReplySelector) : ReplySelector := { s with candidates := [] }

/-- Keys are compared in the order of tuples. -/
instance preorder_candidate : Preorder (ℕ ×ₗ ℤ) :=
  @Prod.Lex.instPreorder ℕ ℤ _ Int.instLinearOrder.toPreorder

/-- The key by which `_best_candidate` sorts: the priority first, then the latest. -/
def key (entry : ℕ × ReplyCandidate) : ℕ ×ₗ ℤ :=
  toLex (if entry.2.priority = 0 then 999 else entry.2.priority, -(entry.1 : ℤ))

/-- `_best_candidate`: the head of the sorted candidates. -/
def best_candidate (s : ReplySelector) : Option ReplyCandidate :=
  (s.candidates.argmin key).map Prod.snd

def preview (s : ReplySelector) : String := (s.best_candidate.map fun c => c.text).getD ""

/-- `select`, for a terminal decision. -/
def select (s : ReplySelector) (decision : CompletionDecision) : String :=
  if decision.reply ≠ "" then decision.reply else s.preview

def ingest_item (s : ReplySelector) (item : CompletionItem) : ReplySelector :=
  (reply_candidates_from_item item).foldl ingest_candidate s

/-- `_finalize` of the orchestrator and the reply of `current`. -/
def finalize (s : ReplySelector) (decision : CompletionDecision) : CompletionDecision :=
  let reply := if decision.terminal then s.select decision else s.preview
  if reply ≠ "" ∧ decision.reply = "" then decision.with_reply reply else decision

end ReplySelector

variable (digest : List String → String)

structure CompletionProfile where
  completion_family : CompletionFamily
  completion_source_kind : CompletionSourceKind
  deriving DecidableEq

structure ActiveTracker where
  family : CompletionFamily
  agent_name : AgentName
  detector : Detector
  selector : ReplySelector
  started_at : Timestamp
  /-- `0` is disabled. -/
  timeout_s : ℕ
  deriving DecidableEq

structure CompletionTrackerView where
  job_id : JobId
  agent_name : AgentName
  state : CompletionState
  decision : CompletionDecision
  deriving DecidableEq

abbrev Trackers := Dict JobId ActiveTracker

namespace CompletionTrackerService

/-- `_DISABLED_REQUEST_BINDING_TIMEOUT_S`. -/
def disabled_request_binding_timeout_s : ℕ := 315360000

/-- `start`, for the profile of the job's agent. -/
def start (profile : CompletionProfile) (request_timeout_s : ℕ) (trackers : Trackers)
    (job : JobRecord) (started_at : Timestamp) : Trackers :=
  trackers.set job.job_id
    { family := profile.completion_family
      agent_name := job.agent_name
      detector := Detector.bind
        { req_id := job.job_id
          agent_name := job.agent_name
          provider := job.provider
          timeout_s := if 0 < request_timeout_s then request_timeout_s
            else disabled_request_binding_timeout_s }
        { source_kind := profile.completion_source_kind
          opaque_cursor := none
          session_path := none
          offset := none
          line_no := none
          event_seq := some 0
          updated_at := some started_at }
      selector := ReplySelector.new
      started_at := started_at
      timeout_s := request_timeout_s }

def current (trackers : Trackers) (job_id : JobId) : Option CompletionTrackerView :=
  (trackers.get job_id).map fun tracker =>
    { job_id := job_id
      agent_name := tracker.agent_name
      state := tracker.detector.state
      decision := tracker.selector.finalize tracker.detector.decision }

/-- What `ingest` does to the tracker of the job. -/
def ingest_item (tracker : ActiveTracker) (item : CompletionItem) : ActiveTracker :=
  let selector := if item.kind = .session_rotate then tracker.selector.reset else tracker.selector
  { tracker with
    selector := selector.ingest_item item
    detector := tracker.detector.ingest digest tracker.family item }

/-- `ingest`; `none` is the `KeyError` of an unknown job. -/
def ingest (trackers : Trackers) (job_id : JobId) (item : CompletionItem) : Option Trackers :=
  (trackers.get job_id).map fun tracker =>
    trackers.set job_id (ingest_item digest tracker item)

/-- `ingest` of one item after another. -/
def ingest_all (trackers : Trackers) (job_id : JobId) : List CompletionItem → Option Trackers
  | [] => some trackers
  | item :: items => (ingest digest trackers job_id item).bind fun trackers =>
      ingest_all trackers job_id items

end CompletionTrackerService

/-- What `source.poll` yields until the deadline: an item, or `None` at a time. -/
inductive Poll where
  | item (item : CompletionItem)
  | none_at (now : Timestamp)
  deriving DecidableEq

namespace CompletionOrchestrator

/-- The loop of `run`; `deadline` is the time when no request time remains. -/
def loop (family : CompletionFamily) (settle_window_s : ℤ) (deadline : Timestamp) :
    List Poll → CompletionCursor → Detector → ReplySelector → CompletionDecision
  | [], cursor, detector, selector =>
    let decision := (detector.finalize_timeout family deadline (some cursor)).decision
    if decision.terminal then selector.finalize decision else decision
  | .none_at now :: polls, cursor, detector, selector =>
    let detector := detector.tick settle_window_s family now (some cursor)
    if detector.decision.terminal then selector.finalize detector.decision
    else loop family settle_window_s deadline polls cursor detector selector
  | .item item :: polls, _, detector, selector =>
    let selector := selector.ingest_item item
    let detector := detector.ingest digest family item
    if detector.decision.terminal then selector.finalize detector.decision
    else loop family settle_window_s deadline polls item.cursor detector selector

/-- `run` with the detector of a family and a new selector. -/
def run (family : CompletionFamily) (settle_window_s : ℤ) (deadline : Timestamp)
    (request_ctx : CompletionRequestContext) (baseline : CompletionCursor)
    (polls : List Poll) : CompletionDecision :=
  loop digest family settle_window_s deadline polls baseline
    (Detector.bind request_ctx baseline) ReplySelector.new

end CompletionOrchestrator

end ClaudeCodeBridge.Model.Completion
