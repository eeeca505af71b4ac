import Mathlib.Data.List.Infix
import ClaudeCodeBridge.Program.Dict
import ClaudeCodeBridge.Model.JobRecords

/-!
# Completion detectors

`lib/completion/detectors`: five state machines that read the items of a provider's turn
and decide when and how the turn ended, with the records and text helpers of
`lib/completion/models_runtime` that they use.  A detector is bound to a request before
it is used, so that here it carries its request and `_require_bound` always passes.
The digest of `fingerprint_text` is a parameter: nothing depends on it being SHA-256.
-/

set_option autoImplicit false

namespace ClaudeCodeBridge.Model.Completion

open Program

def stripChars (space : Char → Bool) (text : List Char) : List Char :=
  ((text.dropWhile space).reverse.dropWhile space).reverse

def strip (text : String) : String := String.ofList (stripChars isSpaceChar text.toList)

/-- The zero of each ten decimal digits of Unicode. -/
def decimalZeros : List ℕ :=
  [0x30, 0x660, 0x6F0, 0x7C0, 0x966, 0x9E6, 0xA66, 0xAE6, 0xB66, 0xBE6, 0xC66, 0xCE6, 0xD66,
   0xDE6, 0xE50, 0xED0, 0xF20, 0x1040, 0x1090, 0x17E0, 0x1810, 0x1946, 0x19D0, 0x1A80,
   0x1A90, 0x1B50, 0x1BB0, 0x1C40, 0x1C50, 0xA620, 0xA8D0, 0xA900, 0xA9D0, 0xA9F0, 0xAA50,
   0xABF0, 0xFF10, 0x104A0, 0x10D30, 0x11066, 0x110F0, 0x11136, 0x111D0, 0x112F0, 0x11450,
   0x114D0, 0x11650, 0x116C0, 0x11730, 0x118E0, 0x11950, 0x11C50, 0x11D50, 0x11DA0,
   0x16A60, 0x16AC0, 0x16B50, 0x1D7CE, 0x1D7D8, 0x1D7E2, 0x1D7EC, 0x1D7F6, 0x1E140,
   0x1E2F0, 0x1E950, 0x1FBF0]

def digitOf (c : Char) : Option ℕ :=
  (decimalZeros.find? fun first => first ≤ c.toNat && c.toNat < first + 10).map (c.toNat - ·)

/-- `needle in text`. -/
def includes (text needle : String) : Bool := needle.toList <:+: text.toList

/-- A JSON value.  Of a number or a container the code reads only `str`, `bool` and `int`. -/
inductive PayloadValue where
  | null
  | text (value : String)
  | other (shown : String) (truthy : Bool) (int : Option ℤ)
  deriving DecidableEq

abbrev Payload := Dict String PayloadValue

namespace PayloadValue

/-- `str(value)`. -/
def str : PayloadValue → String
  | null => "None"
  | text value => value
  | other shown _ _ => shown

/-- `bool(value)`. -/
def truthy : PayloadValue → Bool
  | null => false
  | text value => value ≠ ""
  | other _ truthy _ => truthy

/-- `str(value or '')`. -/
def strOrEmpty (value : PayloadValue) : String := if value.truthy then value.str else ""

/-- `int` of a text: at most 4300 digits, single underscores between them, a sign before them.
The separators of ASCII are no space here. -/
def intOfText (text : String) : Option ℤ :=
  let (negative, digits) :=
    match stripChars (fun c => isSpaceChar c && !(28 ≤ c.toNat && c.toNat ≤ 31)) text.toList with
    | '-' :: rest => (true, rest)
    | '+' :: rest => (false, rest)
    | all => (false, all)
  (ofDigits digits).map fun n => if negative then -(n : ℤ) else n
where
  ofDigits (digits : List Char) : Option ℕ :=
    let digits_only := digits.filter (· ≠ '_')
    if (digits.splitOn '_').any List.isEmpty || 4300 < digits_only.length then none
    else digits_only.foldlM (fun n c => (digitOf c).map (10 * n + ·)) 0

/-- `int(value)`, `none` where it raises. -/
def int : PayloadValue → Option ℤ
  | null => none
  | text value => intOfText value
  | other _ _ int => int

end PayloadValue

/-- `payload.get(key)`. -/
def valueOf (payload : Payload) (key : String) : PayloadValue := (payload.get key).getD .null

def first_non_empty (payload : Payload) (keys : List String) : Option String :=
  keys.findSome? fun key =>
    match valueOf payload key with
    | .text value => if strip value = "" then none else some (strip value)
    | _ => none

/-- `diagnostics.setdefault(key, value)`. -/
def setdefault (payload : Payload) (key : String) (value : PayloadValue) : Payload :=
  match payload.get key with
  | some _ => payload
  | none => payload.set key value

def seconds_between (start finish : Timestamp) : ℤ := (finish : ℤ) - start

inductive CompletionFamily where
  | protocol_turn | structured_result | session_boundary | anchored_session_stability
  | terminal_text_quiet
  deriving DecidableEq

inductive CompletionConfidence where
  | exact | observed | degraded
  deriving DecidableEq

inductive CompletionItemKind where
  | anchor_seen | assistant_chunk | assistant_final | tool_call | tool_result | result
  | turn_boundary | turn_aborted | cancel_info | error | pane_dead
  | session_snapshot | session_mutation | session_rotate
  deriving DecidableEq

structure CompletionCursor where
  source_kind : CompletionSourceKind
  opaque_cursor : Option String
  session_path : Option String
  offset : Option ℕ
  line_no : Option ℕ
  event_seq : Option ℕ
  updated_at : Option Timestamp
  deriving DecidableEq

structure CompletionRequestContext where
  req_id : JobId
  agent_name : AgentName
  provider : ProviderName
  timeout_s : ℕ
  deriving DecidableEq

structure CompletionItem where
  kind : CompletionItemKind
  timestamp : Timestamp
  cursor : CompletionCursor
  payload : Payload
  deriving DecidableEq

structure CompletionState where
  anchor_seen : Bool
  reply_started : Bool
  reply_stable : Bool
  tool_active : Bool
  subagent_activity_seen : Bool
  last_reply_hash : Option String
  last_reply_at : Option Timestamp
  stable_since : Option Timestamp
  provider_turn_ref : Option String
  latest_cursor : Option CompletionCursor
  terminal : Bool
  deriving DecidableEq

/-- `CompletionState(latest_cursor=cursor)`. -/
def CompletionState.init (cursor : CompletionCursor) : CompletionState :=
  ⟨false, false, false, false, false, none, none, none, none, some cursor, false⟩

/-- The whole decision record; `Model.CompletionDecision` is what the dispatcher reads of
a terminal one. -/
structure CompletionDecision where
  terminal : Bool
  status : CompletionStatus
  reason : Option String
  confidence : Option CompletionConfidence
  reply : String
  anchor_seen : Bool
  reply_started : Bool
  reply_stable : Bool
  provider_turn_ref : Option String
  source_cursor : Option CompletionCursor
  finished_at : Option Timestamp
  diagnostics : Payload
  deriving DecidableEq

namespace CompletionDecision

def pending (cursor : CompletionCursor) : CompletionDecision :=
  ⟨false, .incomplete, none, none, "", false, false, false, none, some cursor, none, Dict.empty⟩

def with_reply (decision : CompletionDecision) (reply : String) : CompletionDecision :=
  { decision with reply := if reply = "" then decision.reply else reply }

end CompletionDecision

/-- A bound detector. -/
structure Detector where
  request_ctx : CompletionRequestContext
  state : CompletionState
  decision : CompletionDecision
  deriving DecidableEq

namespace Detector

def bind (request_ctx : CompletionRequestContext) (baseline : CompletionCursor) : Detector :=
  ⟨request_ctx, .init baseline, .pending baseline⟩

def sync_cursor (d : Detector) (cursor : Option CompletionCursor) : Detector :=
  match cursor with
  | none => d
  | some cursor => { d with state := { d.state with latest_cursor := some cursor } }

def set_terminal (d : Detector) (status : CompletionStatus) (reason : String)
    (confidence : CompletionConfidence) (finished_at : Timestamp) (reply : String)
    (diagnostics : Payload) : Detector :=
  { d with
    state := { d.state with terminal := true }
    decision :=
      { terminal := true
        status := status
        reason := some reason
        confidence := some confidence
        reply := reply
        anchor_seen := d.state.anchor_seen
        reply_started := d.state.reply_started
        reply_stable := d.state.reply_stable
        provider_turn_ref := d.state.provider_turn_ref
        source_cursor := d.state.latest_cursor
        finished_at := some finished_at
        diagnostics := diagnostics } }

/-- It leaves `state.terminal` as it is. -/
def set_pending (d : Detector) : Detector :=
  { d with
    decision :=
      { terminal := false
        status := .incomplete
        reason := none
        confidence := none
        reply := ""
        anchor_seen := d.state.anchor_seen
        reply_started := d.state.reply_started
        reply_stable := d.state.reply_stable
        provider_turn_ref := d.state.provider_turn_ref
        source_cursor := d.state.latest_cursor
        finished_at := none
        diagnostics := Dict.empty } }

/-- What the kind of an item says about the state. -/
def consume_kind (s : CompletionState) : CompletionItemKind → CompletionState
  | .anchor_seen => { s with anchor_seen := true }
  | .tool_call => { s with tool_active := true }
  | .tool_result => { s with tool_active := false }
  | .session_rotate =>
    { s with
      anchor_seen := false
      reply_started := false
      reply_stable := false
      tool_active := false
      last_reply_hash := none
      last_reply_at := none
      stable_since := none }
  | _ => s

def consume_payload (s : CompletionState) (payload : Payload) : CompletionState :=
  let s :=
    if (first_non_empty payload ["subagent_id", "subagent_name"]).isSome then
      { s with subagent_activity_seen := true }
    else s
  match first_non_empty payload
      ["turn_id", "provider_turn_ref", "message_id", "provider_session_id", "session_id"] with
  | some provider_turn_ref => { s with provider_turn_ref := some provider_turn_ref }
  | none => s

def consume_common_item (d : Detector) (item : CompletionItem) : Detector :=
  let d := d.sync_cursor (some item.cursor)
  { d with state := consume_payload (consume_kind d.state item.kind) item.payload }

variable (digest : List String → String)

/-- `_record_reply`; `fingerprint` is `none` for the digest of the message itself. -/
def record_reply (d : Detector) (item : CompletionItem) (text : String) (stable : Bool)
    (fingerprint : Option String) : Detector :=
  let message := strip text
  if message = "" then d
  else
    { d with
      state := { d.state with
        reply_started := true
        last_reply_hash := some (fingerprint.getD (digest [message]))
        last_reply_at := some item.timestamp
        reply_stable := stable } }

/-- `if text: self._record_reply(item, text)`. -/
def record_text (d : Detector) (item : CompletionItem) (text : Option String) (stable : Bool) :
    Detector :=
  match text with
  | some text => d.record_reply digest item text stable none
  | none => d

def terminal_diagnostics_from_item (item : CompletionItem) : Payload :=
  ["reply", "content", "final_answer", "result_text", "last_agent_message"].foldl
    (fun payload key => payload.pop key) item.payload

def terminal_status_from_abort (item : CompletionItem) : CompletionStatus :=
  let raw_status := (strip (valueOf item.payload "status").strOrEmpty).toLower
  let reason := (strip (valueOf item.payload "reason").strOrEmpty).toLower
  if raw_status = "completed" then .completed
  else if raw_status = "cancelled" then .cancelled
  else if raw_status = "failed" then .failed
  else if raw_status = "incomplete" then .incomplete
  else if includes reason "cancel" || includes reason "abort" then .cancelled
  else .failed

/-- The base `finalize_timeout`. -/
def finalize_incomplete (d : Detector) (now : Timestamp) (cursor : Option CompletionCursor) :
    Detector :=
  if d.decision.terminal then d
  else
    (d.sync_cursor cursor).set_terminal .incomplete "timeout" .degraded now "" Dict.empty

/-- `_empty_boundary_diagnostics`, by default reason and diagnosis of the class. -/
def empty_boundary_diagnostics (default_reason diagnosis : String) (item : CompletionItem) :
    Payload :=
  let reason := (first_non_empty item.payload ["reason", "completion_reason"]).getD default_reason
  let diagnostics := terminal_diagnostics_from_item item
  let diagnostics := setdefault diagnostics "provider_terminal_reason" (.text reason)
  let diagnostics := setdefault diagnostics "empty_reply" (.other "True" true (some 1))
  let diagnostics := setdefault diagnostics "error_type" (.text "empty_provider_reply")
  let diagnostics := setdefault diagnostics "message" (.text diagnosis)
  setdefault diagnostics "diagnosis" (.text diagnosis)

/-- `set_terminal` with the diagnostics of the item and no reply. -/
def end_from_item (d : Detector) (item : CompletionItem) (status : CompletionStatus)
    (reason : String) (confidence : CompletionConfidence) (diagnostics : Payload) : Detector :=
  d.set_terminal status reason confidence item.timestamp "" diagnostics

/-- `ProtocolTurnDetector._complete_from_boundary`. -/
def protocol_complete_from_boundary (d : Detector) (item : CompletionItem) : Detector :=
  let reply := first_non_empty item.payload
    ["last_agent_message", "final_answer", "reply", "text"]
  if reply.isNone
      && ((valueOf item.payload "empty_final_message").truthy || !d.state.reply_started) then
    d.set_terminal .incomplete "task_complete_empty_reply" .exact item.timestamp ""
      (empty_boundary_diagnostics "task_complete"
        ("Provider protocol reported task_complete without assistant reply text; " ++
          "inspect the protocol session log, pane state, and authentication/API output.") item)
  else
    (d.record_text digest item reply true).set_terminal .completed
      ((first_non_empty item.payload ["reason", "completion_reason"]).getD "task_complete")
      .exact item.timestamp (reply.getD "") Dict.empty

/-- `ProtocolTurnDetector._complete_from_abort`. -/
def protocol_complete_from_abort (d : Detector) (item : CompletionItem) : Detector :=
  let reply := first_non_empty item.payload ["last_agent_message", "reply", "text"]
  (d.record_text digest item reply true).set_terminal (terminal_status_from_abort item)
    ((first_non_empty item.payload ["reason"]).getD "turn_aborted") .exact item.timestamp
    (reply.getD "") (terminal_diagnostics_from_item item)

/-- `ProtocolTurnDetector.ingest`. -/
def ingest_protocol_turn (d : Detector) (item : CompletionItem) : Detector :=
  let d := d.consume_common_item item
  match item.kind with
  | .assistant_chunk | .assistant_final | .result =>
    (d.record_text digest item (first_non_empty item.payload
      ["last_agent_message", "final_answer", "reply", "result_text", "text"]) false).set_pending
  | .turn_boundary => d.protocol_complete_from_boundary digest item
  | .turn_aborted => d.protocol_complete_from_abort digest item
  | .error =>
    d.end_from_item item .failed
      ((first_non_empty item.payload ["reason", "error"]).getD "transport_error") .degraded
      (terminal_diagnostics_from_item item)
  | .pane_dead =>
    d.end_from_item item .failed ((first_non_empty item.payload ["reason"]).getD "pane_dead")
      .degraded (terminal_diagnostics_from_item item)
  | _ => d.set_pending

/-- `StructuredResultDetector.ingest`. -/
def ingest_structured_result (d : Detector) (item : CompletionItem) : Detector :=
  let d := d.consume_common_item item
  match item.kind with
  | .assistant_chunk | .assistant_final =>
    (d.record_text digest item
      (first_non_empty item.payload ["reply", "final_answer", "text"]) false).set_pending
  | .result =>
    let reply := first_non_empty item.payload ["reply", "result_text", "final_answer", "text"]
    (d.record_text digest item reply true).set_terminal .completed
      ((first_non_empty item.payload ["reason", "completion_reason"]).getD "stream_result")
      .exact item.timestamp (reply.getD "") Dict.empty
  | .cancel_info =>
    d.end_from_item item .cancelled ((first_non_empty item.payload ["reason"]).getD "cancel_info")
      .exact (terminal_diagnostics_from_item item)
  | .turn_aborted =>
    d.end_from_item item (terminal_status_from_abort item)
      ((first_non_empty item.payload ["reason"]).getD "turn_aborted") .exact
      (terminal_diagnostics_from_item item)
  | .error =>
    d.end_from_item item .failed
      ((first_non_empty item.payload ["reason", "error"]).getD "transport_error") .exact
      (terminal_diagnostics_from_item item)
  | .pane_dead =>
    d.end_from_item item .failed ((first_non_empty item.payload ["reason"]).getD "pane_dead")
      .degraded (terminal_diagnostics_from_item item)
  | _ => d.set_pending

/-- `SessionBoundaryDetector.ingest`. -/
def ingest_session_boundary (d : Detector) (item : CompletionItem) : Detector :=
  let d := d.consume_common_item item
  match item.kind with
  | .assistant_chunk | .assistant_final =>
    (d.record_text digest item
      (first_non_empty item.payload ["text", "reply", "last_agent_message"]) false).set_pending
  | .turn_boundary =>
    let reply := first_non_empty item.payload ["last_agent_message", "reply", "text"]
    if reply.isNone && !d.state.reply_started then
      d.set_terminal .incomplete "task_complete_empty_reply" .observed item.timestamp ""
        (empty_boundary_diagnostics "turn_duration"
          ("Provider session boundary reported completion without assistant reply text; " ++
            "inspect the provider session log, pane state, and authentication/API output.")
          item)
    else
      (d.record_text digest item reply true).set_terminal .completed
        ((first_non_empty item.payload ["reason", "completion_reason"]).getD "turn_duration")
        .observed item.timestamp (reply.getD "") Dict.empty
  | .error =>
    d.end_from_item item .failed
      ((first_non_empty item.payload ["reason", "error"]).getD "api_error") .observed
      (terminal_diagnostics_from_item item)
  | .pane_dead =>
    d.end_from_item item .failed ((first_non_empty item.payload ["reason"]).getD "pane_dead")
      .degraded (terminal_diagnostics_from_item item)
  | _ => d.set_pending

/-- `tool_call_count` of a session item, when it has one. -/
def count_tool_calls (d : Detector) (item : CompletionItem) : Detector :=
  match valueOf item.payload "tool_call_count" with
  | .null => d
  | raw_tool_calls =>
    { d with
      state := { d.state with
        tool_active :=
          match raw_tool_calls.int with
          | some n => 0 < n
          | none => raw_tool_calls.truthy } }

/-- A reply that differs from the last one starts the settle window again. -/
def observe_session_reply (d : Detector) (item : CompletionItem) (reply : String) : Detector :=
  let fingerprint := digest
    [(first_non_empty item.payload ["message_id"]).getD "", reply,
      (valueOf item.payload "message_count").str, (valueOf item.payload "last_updated").str]
  if some fingerprint ≠ d.state.last_reply_hash then
    let d := d.record_reply digest item reply false (some fingerprint)
    { d with state := { d.state with stable_since := some item.timestamp } }
  else d

/-- `AnchoredSessionStabilityDetector.ingest`. -/
def ingest_anchored_session_stability (d : Detector) (item : CompletionItem) : Detector :=
  let d := d.consume_common_item item
  match item.kind with
  | .cancel_info =>
    d.end_from_item item .cancelled ((first_non_empty item.payload ["reason"]).getD "cancel_info")
      .observed Dict.empty
  | .session_snapshot | .session_mutation =>
    let d := d.count_tool_calls item
    match first_non_empty item.payload ["reply", "content", "text"] with
    | some reply => (d.observe_session_reply digest item reply).set_pending
    | none => d.set_pending
  | .error =>
    d.end_from_item item .failed
      ((first_non_empty item.payload ["reason", "error"]).getD "session_corrupt") .observed
      Dict.empty
  | .pane_dead =>
    d.end_from_item item .failed ((first_non_empty item.payload ["reason"]).getD "pane_dead")
      .degraded Dict.empty
  | _ => d.set_pending

/-- `TerminalTextQuietDetector.ingest`. -/
def ingest_terminal_text_quiet (d : Detector) (item : CompletionItem) : Detector :=
  let d := d.consume_common_item item
  match item.kind with
  | .assistant_chunk | .assistant_final | .result =>
    let reply := first_non_empty item.payload ["reply", "result_text", "final_answer", "text"]
    let d := d.record_text digest item reply false
    if (valueOf item.payload "done_marker").truthy || (valueOf item.payload "ccb_done").truthy then
      d.set_terminal .completed "terminal_done_marker" .degraded item.timestamp (reply.getD "")
        Dict.empty
    else d.set_pending
  | .cancel_info =>
    d.end_from_item item .cancelled ((first_non_empty item.payload ["reason"]).getD "cancel_info")
      .degraded Dict.empty
  | .error =>
    d.end_from_item item .failed
      ((first_non_empty item.payload ["reason", "error"]).getD "transport_error") .degraded
      Dict.empty
  | .pane_dead =>
    d.end_from_item item .failed ((first_non_empty item.payload ["reason"]).getD "pane_dead")
      .degraded Dict.empty
  | _ => d.set_pending

/-- `ingest` of the detector that `build_detector` makes for a family. -/
def ingest : CompletionFamily → Detector → CompletionItem → Detector
  | .protocol_turn, d, item => d.ingest_protocol_turn digest item
  | .structured_result, d, item => d.ingest_structured_result digest item
  | .session_boundary, d, item => d.ingest_session_boundary digest item
  | .anchored_session_stability, d, item => d.ingest_anchored_session_stability digest item
  | .terminal_text_quiet, d, item => d.ingest_terminal_text_quiet digest item

/-- `AnchoredSessionStabilityDetector.tick`. -/
def tick_anchored (settle_window_s : ℤ) (d : Detector) (now : Timestamp)
    (cursor : Option CompletionCursor) : Detector :=
  let d := d.sync_cursor cursor
  if d.decision.terminal then d
  else
    match d.state.reply_started, d.state.stable_since with
    | true, some stable_since =>
      if d.state.tool_active then d.set_pending
      else if seconds_between stable_since now ≥ settle_window_s then
        ({ d with state := { d.state with reply_stable := true } } : Detector).set_terminal
          .completed "session_reply_stable" .observed now "" Dict.empty
      else d.set_pending
    | _, _ => d

/-- `tick`: the other four detectors only follow the cursor. -/
def tick (settle_window_s : ℤ) : CompletionFamily → Detector → Timestamp →
    Option CompletionCursor → Detector
  | .anchored_session_stability, d, now, cursor => d.tick_anchored settle_window_s now cursor
  | _, d, _, cursor => d.sync_cursor cursor

/-- `TerminalTextQuietDetector.finalize_timeout`. -/
def finalize_quiet (d : Detector) (now : Timestamp) (cursor : Option CompletionCursor) : Detector :=
  if d.decision.terminal then d
  else if (d.sync_cursor cursor).state.reply_started then
    (d.sync_cursor cursor).set_terminal .completed "terminal_quiet" .degraded now "" Dict.empty
  else (d.sync_cursor cursor).finalize_incomplete now cursor

/-- `AnchoredSessionStabilityDetector.finalize_timeout`. -/
def finalize_anchored (d : Detector) (now : Timestamp) (cursor : Option CompletionCursor) :
    Detector :=
  if d.decision.terminal then d else (d.sync_cursor cursor).finalize_incomplete now cursor

def finalize_timeout : CompletionFamily → Detector → Timestamp → Option CompletionCursor → Detector
  | .terminal_text_quiet, d, now, cursor => d.finalize_quiet now cursor
  | .anchored_session_stability, d, now, cursor => d.finalize_anchored now cursor
  | _, d, now, cursor => d.finalize_incomplete now cursor

end Detector

end ClaudeCodeBridge.Model.Completion
