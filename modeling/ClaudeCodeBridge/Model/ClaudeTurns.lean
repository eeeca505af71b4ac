import ClaudeCodeBridge.Model.ClaudeSessions
import ClaudeCodeBridge.Model.RelayCrypto
import ClaudeCodeBridge.Program.Until

/-!
# Polls of a Claude turn

The turn of a prompt is observed by polls of the session log: each reads what the log has grown
by, takes the events through a state machine, and leaves the state of the turn with the
submission.  The daemon keeps a record of the submission on disk, from which it resumes after a
restart.

How the texts of the protocol are recognised is a parameter, and a text that is not there is
empty.  Paths stand for themselves; times, and what never changes with a turn, are left out.
-/

set_option autoImplicit false

namespace ClaudeCodeBridge.Model.ClaudeTurn

open Program
open Model.ClaudeSession (LogText ReaderState)
open Model.Relay (strip)

inductive Role where
  | prompt_lifecycle
  | user
  | system
  | assistant
  deriving DecidableEq

inductive PromptPhase where
  | enqueued
  | dequeued
  | activated
  deriving DecidableEq

/-- What is read of the entry that an event has been made of. -/
structure Entry where
  timestamp : Text
  isMeta : Bool
  isSidechain : Bool
  /-- `toolUseResult` is there. -/
  toolUseResult : Bool
  message_parts : List Text
  /-- The types of the parts that `assistant_message_content` finds, if it finds any content. -/
  assistant_parts : Option (List Text)
  /-- `retryAttempt` and `maxRetries`, where both are numbers. -/
  retry : Option (ℤ × ℤ)
  cause_code : Text
  cause_path : Text
  deriving DecidableEq

structure Event where
  role : Role
  text : Text
  entry_type : Text
  subtype : Text
  uuid : Text
  parent_uuid : Text
  stop_reason : Text
  subagent_id : Text
  subagent_name : Text
  is_sidechain : Bool
  message_id : Text
  prompt_phase : Option PromptPhase
  source_uuid : Text
  entry : Entry
  deriving DecidableEq

/-- How the texts of the protocol are recognised. -/
structure Wording where
  lower : Text → Text
  strip_done_text : Text → Text → Text
  is_done_text : Text → Text → Bool
  extract_reply_for_req : Text → Text → Text
  /-- The text opens with the anchor, within an envelope at most. -/
  opens_with_anchor : Text → Text → Bool
  is_stalled_response_text : Text → Bool

inductive CompletionItemKind where
  | anchor_seen
  | session_rotate
  | assistant_chunk
  | turn_boundary
  | error
  deriving DecidableEq

inductive PayloadValue where
  | null
  | flag (value : Bool)
  | number (value : ℤ)
  | text (value : Text)
  | path (value : ℕ)
  deriving DecidableEq

/-- `value or None`. -/
def or_null (value : Text) : PayloadValue := if value = [] then .null else .text value

def path_or_null (value : Option ℕ) : PayloadValue := (value.map PayloadValue.path).getD .null

structure CompletionItem where
  kind : CompletionItemKind
  seq : ℕ
  payload : List (String × PayloadValue)
  deriving DecidableEq

/-- It ends the turn. -/
def CompletionItem.terminal (item : CompletionItem) : Bool :=
  item.kind = .turn_boundary || item.kind = .error

structure CompletionDecision where
  reply : Text
  anchor_seen : Bool
  reply_started : Bool
  reply_stable : Bool
  provider_turn_ref : PayloadValue
  session_path : PayloadValue
  event_seq : ℕ
  diagnostics : List (String × PayloadValue)
  deriving DecidableEq

structure ClaudePollState where
  request_anchor : Text
  next_seq : ℕ
  anchor_seen : Bool
  reply_buffer : Text
  raw_buffer : Text
  session_path : Option ℕ
  last_assistant_uuid : Text
  active_assistant_message_id : Text
  active_assistant_text : Text
  active_assistant_stop_reason : Text
  active_assistant_has_tool_use : Bool
  terminal_reply : Text
  prompt_enqueued : Bool
  queue_dequeue_observed : Bool
  prompt_activated : Bool
  prompt_enqueue_uuid : Text
  prompt_activation_uuid : Text
  items : List CompletionItem
  reached_turn_boundary : Bool
  deriving DecidableEq

inductive Mode where
  | active
  | passive
  deriving DecidableEq

/-- The runtime state of a submission.  The reader is named by the session that it selects. -/
structure RuntimeState where
  mode : Mode
  reader : Option ℕ
  state : ReaderState
  request_anchor : Text
  next_seq : ℕ
  anchor_seen : Bool
  no_wrap : Bool
  reply_buffer : Text
  raw_buffer : Text
  session_path : Option ℕ
  last_assistant_uuid : Text
  active_assistant_message_id : Text
  active_assistant_text : Text
  active_assistant_stop_reason : Text
  active_assistant_has_tool_use : Bool
  terminal_reply : Text
  prompt_enqueued : Bool
  queue_dequeue_observed : Bool
  prompt_activated : Bool
  prompt_enqueue_uuid : Text
  prompt_activation_uuid : Text
  prompt_text : Text
  deriving DecidableEq

structure ProviderSubmission where
  reply : Text
  runtime_state : RuntimeState
  deriving DecidableEq

structure ProviderPollResult where
  submission : ProviderSubmission
  items : List CompletionItem
  decision : Option CompletionDecision
  deriving DecidableEq

def build_poll_state (submission : ProviderSubmission) : ClaudePollState :=
  let state := submission.runtime_state
  let prompt_activated := state.no_wrap || state.prompt_activated
  { request_anchor := state.request_anchor
    next_seq := state.next_seq
    anchor_seen := (state.no_wrap || prompt_activated) && state.anchor_seen
    reply_buffer := state.reply_buffer
    raw_buffer := state.raw_buffer
    session_path := state.session_path
    last_assistant_uuid := state.last_assistant_uuid
    active_assistant_message_id := state.active_assistant_message_id
    active_assistant_text := state.active_assistant_text
    active_assistant_stop_reason := state.active_assistant_stop_reason
    active_assistant_has_tool_use := state.active_assistant_has_tool_use
    terminal_reply := state.terminal_reply
    prompt_enqueued := state.prompt_enqueued
    queue_dequeue_observed := state.queue_dequeue_observed
    prompt_activated := prompt_activated
    prompt_enqueue_uuid := state.prompt_enqueue_uuid
    prompt_activation_uuid := state.prompt_activation_uuid
    items := []
    reached_turn_boundary := false }

def ClaudePollState.append (poll : ClaudePollState) (kind : CompletionItemKind)
    (payload : List (String × PayloadValue)) : ClaudePollState :=
  { poll with
    items := poll.items ++ [{ kind := kind, seq := poll.next_seq, payload := payload }]
    next_seq := poll.next_seq + 1 }

def apply_session_rotation (stem : ℕ → Text) (submission : ProviderSubmission)
    (new_session_path : Option ℕ) (poll : ClaudePollState) : ClaudePollState :=
  match new_session_path with
  | none => poll
  | some path =>
    if poll.session_path = some path then poll
    else
      { poll.append .session_rotate
          [("session_path", .path path), ("provider_session_id", .text (stem path))] with
        session_path := some path
        anchor_seen := submission.runtime_state.no_wrap
        reply_buffer := []
        raw_buffer := []
        last_assistant_uuid := []
        active_assistant_message_id := []
        active_assistant_text := []
        active_assistant_stop_reason := []
        active_assistant_has_tool_use := false
        terminal_reply := []
        prompt_enqueued := false
        queue_dequeue_observed := false
        prompt_activated := submission.runtime_state.no_wrap
        prompt_enqueue_uuid := []
        prompt_activation_uuid := [] }

def ClaudePollState.runtime_state (poll : ClaudePollState) (before : RuntimeState)
    (state : ReaderState) : RuntimeState :=
  { before with
    state := state
    next_seq := poll.next_seq
    anchor_seen := poll.anchor_seen
    reply_buffer := poll.reply_buffer
    raw_buffer := poll.raw_buffer
    session_path := poll.session_path
    last_assistant_uuid := poll.last_assistant_uuid
    active_assistant_message_id := poll.active_assistant_message_id
    active_assistant_text := poll.active_assistant_text
    active_assistant_stop_reason := poll.active_assistant_stop_reason
    active_assistant_has_tool_use := poll.active_assistant_has_tool_use
    terminal_reply := poll.terminal_reply
    prompt_enqueued := poll.prompt_enqueued
    queue_dequeue_observed := poll.queue_dequeue_observed
    prompt_activated := poll.prompt_activated
    prompt_enqueue_uuid := poll.prompt_enqueue_uuid
    prompt_activation_uuid := poll.prompt_activation_uuid }

def finalize_poll_result (submission : ProviderSubmission) (poll : ClaudePollState)
    (state : ReaderState) : ProviderPollResult :=
  { submission :=
      { reply := if poll.terminal_reply = [] then poll.reply_buffer else poll.terminal_reply
        runtime_state := poll.runtime_state submission.runtime_state state }
    items := poll.items
    decision := none }

section Handlers

variable (wording : Wording)

def Wording.has_outer_request_anchor (text request_anchor : Text) : Bool :=
  request_anchor ≠ [] && wording.opens_with_anchor text request_anchor

def Wording.handle_user_event (text : Text) (poll : ClaudePollState) : ClaudePollState :=
  if wording.has_outer_request_anchor text poll.request_anchor then
    let poll := { poll with prompt_activated := true }
    if poll.anchor_seen then poll
    else
      { poll.append .anchor_seen [("turn_id", .text poll.request_anchor)] with
        anchor_seen := true }
  else poll

def Wording.handle_prompt_lifecycle_event (event : Event) (poll : ClaudePollState) :
    ClaudePollState :=
  match event.prompt_phase with
  | some .enqueued =>
    if wording.has_outer_request_anchor event.text poll.request_anchor then
      { poll with prompt_enqueued := true, prompt_enqueue_uuid := strip event.uuid }
    else poll
  | some .dequeued =>
    if poll.prompt_enqueued && !poll.prompt_activated then
      { poll with queue_dequeue_observed := true }
    else poll
  | some .activated =>
    if wording.has_outer_request_anchor event.text poll.request_anchor then
      wording.handle_user_event event.text
        { poll with
          prompt_activation_uuid :=
            if strip event.source_uuid = [] then strip event.uuid else strip event.source_uuid }
    else poll
  | none => poll

/-- A type, as it is compared. -/
def Wording.normalized (text : Text) : Text := wording.lower (strip text)

def Wording.is_top_level_user_prompt (event : Event) : Bool :=
  event.subagent_id = [] && event.subagent_name = [] && !event.is_sidechain &&
    !(event.entry.toolUseResult || event.entry.isMeta) && !event.entry.isSidechain &&
    !event.entry.message_parts.any fun part => wording.normalized part = asciiText "tool_result"

def append_buffer (buffer text : Text) : Text :=
  if buffer = [] then text else strip (buffer ++ asciiText "\n" ++ text)

def Wording.cleaned_assistant_text (text request_anchor : Text) : Text :=
  if request_anchor = [] then text else wording.strip_done_text text request_anchor

def has_visible_text (text : Text) : Bool := strip text ≠ []

def append_progress_snapshot (buffer previous_snapshot snapshot : Text) (same_message : Bool) :
    Text :=
  if !has_visible_text snapshot || snapshot = previous_snapshot then buffer
  else if same_message && previous_snapshot ≠ [] && previous_snapshot.isPrefixOf snapshot &&
      previous_snapshot.isSuffixOf buffer then
    buffer ++ snapshot.drop previous_snapshot.length
  else append_buffer buffer snapshot

def Event.snapshot_id (event : Event) : Text :=
  if strip event.message_id = [] then strip event.uuid else strip event.message_id

/-- Turn to the message of an event: the first statements of
`update_top_level_assistant_message`. -/
def turn_to_message (event : Event) (poll : ClaudePollState) : ClaudePollState :=
  if event.snapshot_id ≠ [] && event.snapshot_id ≠ poll.active_assistant_message_id then
    { poll with
      active_assistant_message_id := event.snapshot_id
      active_assistant_text := []
      active_assistant_stop_reason := []
      active_assistant_has_tool_use := false }
  else poll

def Wording.update_top_level_assistant_message (event : Event) (cleaned : Text)
    (poll : ClaudePollState) : ClaudePollState :=
  let same_message := event.snapshot_id ≠ [] && event.snapshot_id = poll.active_assistant_message_id
  let poll := turn_to_message event poll
  let poll :=
    if has_visible_text cleaned then
      { poll with
        active_assistant_text := cleaned
        reply_buffer := append_progress_snapshot poll.reply_buffer poll.active_assistant_text
          cleaned same_message }
    else if event.entry.assistant_parts.isSome then { poll with active_assistant_text := [] }
    else poll
  let stop_reason := wording.normalized event.stop_reason
  let poll :=
    if stop_reason = [] then poll else { poll with active_assistant_stop_reason := stop_reason }
  let poll :=
    match event.entry.assistant_parts with
    | some parts =>
      { poll with
        active_assistant_has_tool_use :=
          parts.any fun part => wording.normalized part = asciiText "tool_use" }
    | none =>
      if stop_reason = [] then poll
      else { poll with active_assistant_has_tool_use := stop_reason = asciiText "tool_use" }
  if strip event.uuid = [] then poll
  else { poll with last_assistant_uuid := strip event.uuid }

def append_chunk_item (event : Event) (cleaned : Text) (poll : ClaudePollState) : ClaudePollState :=
  poll.append .assistant_chunk
    [("text", .text cleaned), ("merged_text", .text poll.reply_buffer),
      ("turn_id", .text poll.request_anchor), ("session_path", path_or_null poll.session_path),
      ("assistant_uuid",
        or_null (if strip event.uuid = [] then poll.last_assistant_uuid else strip event.uuid)),
      ("assistant_message_id", or_null (strip event.message_id)),
      ("subagent_id", or_null (strip event.subagent_id)),
      ("subagent_name", or_null (strip event.subagent_name)),
      ("stop_reason", or_null event.stop_reason)]

def turn_boundary_payload (poll : ClaudePollState) (reply reason stop_reason : Text) :
    List (String × PayloadValue) :=
  [("reason", .text reason), ("last_agent_message", .text reply),
    ("turn_id", .text poll.request_anchor), ("session_path", path_or_null poll.session_path),
    ("assistant_uuid", or_null poll.last_assistant_uuid),
    ("assistant_message_id", or_null poll.active_assistant_message_id)] ++
    if stop_reason = [] then [] else [("stop_reason", .text stop_reason)]

def ClaudePollState.reach (poll : ClaudePollState) (reply reason stop_reason : Text) :
    ClaudePollState :=
  { poll.append .turn_boundary (turn_boundary_payload poll reply reason stop_reason) with
    terminal_reply := reply
    reached_turn_boundary := true }

def Wording.maybe_append_turn_boundary (event_text : Text) (poll : ClaudePollState) :
    ClaudePollState :=
  if poll.reached_turn_boundary then poll
  else if poll.request_anchor = [] || !wording.is_done_text event_text poll.request_anchor then
    poll
  else
    let extracted := wording.extract_reply_for_req event_text poll.request_anchor
    let reply := if extracted = [] then poll.active_assistant_text else extracted
    if has_visible_text reply then poll.reach reply (asciiText "task_complete") [] else poll

def maybe_append_assistant_end_turn_boundary (event : Event) (poll : ClaudePollState) :
    ClaudePollState :=
  if poll.reached_turn_boundary then poll
  else if !poll.anchor_seen || poll.request_anchor = [] then poll
  else if event.snapshot_id ≠ [] && poll.active_assistant_message_id ≠ [] &&
      event.snapshot_id ≠ poll.active_assistant_message_id then poll
  else if poll.active_assistant_stop_reason ≠ asciiText "end_turn" ||
      poll.active_assistant_has_tool_use then poll
  else if has_visible_text poll.active_assistant_text then
    let poll :=
      if strip event.uuid = [] then poll
      else { poll with last_assistant_uuid := strip event.uuid }
    poll.reach poll.active_assistant_text (asciiText "assistant_end_turn")
      poll.active_assistant_stop_reason
  else poll

def append_stalled_response_error (poll : ClaudePollState) : ClaudePollState :=
  { poll.append .error
      [("reason", .text (asciiText "claude_response_stalled_mid_stream")),
        ("message", .text poll.active_assistant_text),
        ("error_type", .text (asciiText "provider_api_error")),
        ("response_incomplete", .flag true), ("turn_id", .text poll.request_anchor),
        ("session_path", path_or_null poll.session_path),
        ("assistant_uuid", or_null poll.last_assistant_uuid),
        ("assistant_message_id", or_null poll.active_assistant_message_id)] with
    reached_turn_boundary := true }

/-- What `handle_assistant_event` does with an event of the turn's own assistant, up to where it
looks for the end of the turn. -/
def Wording.take_answer (event : Event) (poll : ClaudePollState) : ClaudePollState :=
  let cleaned := wording.cleaned_assistant_text event.text poll.request_anchor
  let poll := wording.update_top_level_assistant_message event cleaned poll
  let poll := { poll with raw_buffer := append_buffer poll.raw_buffer event.text }
  if has_visible_text cleaned then append_chunk_item event cleaned poll else poll

def Wording.handle_assistant_event (event : Event) (poll : ClaudePollState) : ClaudePollState :=
  let cleaned := wording.cleaned_assistant_text event.text poll.request_anchor
  if strip event.subagent_id ≠ [] || strip event.subagent_name ≠ [] || event.is_sidechain then
    if has_visible_text cleaned then append_chunk_item event cleaned poll else poll
  else
    let poll := wording.take_answer event poll
    if wording.is_stalled_response_text poll.active_assistant_text then
      append_stalled_response_error poll
    else
      maybe_append_assistant_end_turn_boundary event
        (wording.maybe_append_turn_boundary event.text poll)

/-- `api_error_event` and `exhausted_retry_state`. -/
def Wording.exhausted_retry_state (event : Event) : Option (ℤ × ℤ) :=
  if wording.normalized event.entry_type = asciiText "system" ∧
      wording.normalized event.subtype = asciiText "api_error" then
    event.entry.retry.filter fun retry => 0 < retry.2 && retry.2 ≤ retry.1
  else none

def build_api_error_message (error_code error_path : Text) : Text :=
  asciiText "Claude API request failed" ++
    (if error_code = [] then [] else asciiText " code=" ++ error_code) ++
    if error_path = [] then [] else asciiText " path=" ++ error_path

/-- `terminal_api_error_payload`, of an error whose retries are exhausted. -/
def api_error_payload (event : Event) (retry : ℤ × ℤ) : List (String × PayloadValue) :=
  let error_code := strip event.entry.cause_code
  let error_path := strip event.entry.cause_path
  [("message", .text (build_api_error_message error_code error_path)),
    ("error_code", or_null error_code), ("error_path", or_null error_path),
    ("retry_attempt", .number retry.1), ("max_retries", .number retry.2),
    ("timestamp", .text event.entry.timestamp)]

/-- The decision of `handle_system_event` on an error whose retries are exhausted. -/
def api_error_decision (event : Event) (retry : ℤ × ℤ) (poll : ClaudePollState) :
    CompletionDecision :=
  { reply := poll.reply_buffer
    anchor_seen := poll.anchor_seen
    reply_started := poll.reply_buffer ≠ []
    reply_stable := poll.reply_buffer ≠ []
    provider_turn_ref :=
      if poll.request_anchor = [] then path_or_null poll.session_path
      else .text poll.request_anchor
    session_path := path_or_null poll.session_path
    event_seq := poll.next_seq
    diagnostics :=
      [("error_code", or_null (strip event.entry.cause_code)),
        ("error_path", or_null (strip event.entry.cause_path)),
        ("retry_attempt", .number retry.1), ("max_retries", .number retry.2),
        ("error_type", .text (asciiText "provider_api_error"))] }

def Wording.is_turn_boundary_event (event : Event) (last_assistant_uuid : Text) : Bool :=
  wording.normalized event.entry_type = asciiText "system" &&
    wording.normalized event.subtype = asciiText "turn_duration" && last_assistant_uuid ≠ [] &&
      strip event.parent_uuid = last_assistant_uuid

def Wording.current_assistant_message_can_complete (poll : ClaudePollState) : Bool :=
  has_visible_text poll.active_assistant_text && !poll.active_assistant_has_tool_use &&
    wording.normalized poll.active_assistant_stop_reason ≠ asciiText "tool_use"

/-- `handle_system_event`; where it decides, the result of the poll is `api_error_result`. -/
def Wording.handle_system_event (event : Event) (poll : ClaudePollState) :
    ClaudePollState × Option CompletionDecision :=
  match wording.exhausted_retry_state event with
  | some retry =>
    (poll.append .error
      ([("reason", .text (asciiText "api_error")), ("turn_id", .text poll.request_anchor),
        ("session_path", path_or_null poll.session_path)] ++ api_error_payload event retry),
      some (api_error_decision event retry poll))
  | none =>
    if wording.is_turn_boundary_event event poll.last_assistant_uuid &&
        wording.current_assistant_message_can_complete poll then
      (poll.reach poll.active_assistant_text (asciiText "turn_duration") [], none)
    else (poll, none)

def Wording.process_event (event : Event) (poll : ClaudePollState) :
    ClaudePollState × Option CompletionDecision :=
  match event.role with
  | .prompt_lifecycle => (wording.handle_prompt_lifecycle_event event poll, none)
  | .user =>
    (if wording.is_top_level_user_prompt event then wording.handle_user_event event.text poll
      else poll, none)
  | .system => if poll.anchor_seen then wording.handle_system_event event poll else (poll, none)
  | .assistant =>
    (if poll.anchor_seen then wording.handle_assistant_event event poll else poll, none)

/-- A poll reads no further. -/
def stopped (turn : ClaudePollState × Option CompletionDecision) : Bool :=
  turn.1.reached_turn_boundary || turn.2.isSome

def Wording.process_events (events : List Event) (poll : ClaudePollState) :
    ClaudePollState × Option CompletionDecision :=
  foldUntil stopped (fun turn event => wording.process_event event turn.1) (poll, none) events

end Handlers

/-- Where a daemon's paths lead: the name of a session, and the path that `Path.resolve` finds. -/
structure Places where
  stem : ℕ → Text
  text : ℕ → Text
  resolve : ℕ → ℕ

/-- What reads the log of a turn. -/
structure Watcher where
  wording : Wording
  text : LogText Event
  places : Places

/-- A batch that has been read: the poll is over with a result, or has come to a state; `true`
where there have been events. -/
inductive Batch where
  | ended (result : ProviderPollResult)
  | events (state : ReaderState) (poll : ClaudePollState) (has_events : Bool)

/-- The result of a poll that an error of the provider has decided, as `handle_system_event`
returns it. -/
def api_error_result (submission : ProviderSubmission) (poll : ClaudePollState)
    (decision : CompletionDecision) (state : ReaderState) : ProviderPollResult :=
  { submission :=
      { reply := poll.reply_buffer
        runtime_state :=
          { poll.runtime_state submission.runtime_state state with mode := .passive } }
    items := poll.items
    decision := some decision }

section Polls

variable (watcher : Watcher)

/-- What a reader reads of the log next: the state of the reader is for the session that it
selects. -/
def Watcher.try_get_entries (submission : ProviderSubmission) (log : Bytes)
    (state : ReaderState) : List Event × ReaderState :=
  match submission.runtime_state.reader with
  | none => ([], state)
  | some session => watcher.text.read_new_entries session log (state.select session log)

def Watcher.read_event_batch (submission : ProviderSubmission) (log : Bytes) (state : ReaderState)
    (poll : ClaudePollState) : Batch :=
  let read := watcher.try_get_entries submission log state
  let poll := apply_session_rotation watcher.places.stem submission read.2.session_path poll
  if read.1 = [] then .events read.2 poll false
  else
    let turn := watcher.wording.process_events read.1 poll
    match turn.2 with
    | some decision => .ended (api_error_result submission turn.1 decision read.2)
    | none => .events read.2 turn.1 true

/-- `_poll_event_batches`, of a log that grows between the reads.  When it grows no more, the read
after the next finds nothing. -/
def Watcher.poll_event_batches (watcher : Watcher) (submission : ProviderSubmission) :
    List Bytes → Bytes → ReaderState → ClaudePollState → Batch
  | [], log, state, poll =>
    match watcher.read_event_batch submission log state poll with
    | .events state poll true =>
      if poll.reached_turn_boundary then .events state poll true
      else watcher.read_event_batch submission log state poll
    | batch => batch
  | more :: growths, log, state, poll =>
    match watcher.read_event_batch submission log state poll with
    | .events state poll true =>
      if poll.reached_turn_boundary then .events state poll true
      else watcher.poll_event_batches submission growths (log ++ more) state poll
    | batch => batch

/-- What a poll returns that has read what it reads. -/
def Batch.poll_result (submission : ProviderSubmission) : Batch → ProviderPollResult
  | .ended result => result
  | .events state poll _ => finalize_poll_result submission poll state

/-- `poll_submission`, of a prompt that has been sent, where neither a hook nor the pane says
anything. -/
def Watcher.poll_submission (growths : List Bytes) (log : Bytes)
    (submission : ProviderSubmission) : Option ProviderPollResult :=
  match submission.runtime_state.mode with
  | .passive => none
  | .active =>
    some ((watcher.poll_event_batches submission growths log submission.runtime_state.state
      (build_poll_state submission)).poll_result submission)

structure PersistedExecutionState where
  submission : ProviderSubmission
  pending_items : List CompletionItem
  pending_decision : Option CompletionDecision
  deriving DecidableEq

def export_runtime_state (state : RuntimeState) : RuntimeState :=
  { mode := state.mode
    reader := none
    state := state.state
    request_anchor := state.request_anchor
    next_seq := state.next_seq
    anchor_seen := state.anchor_seen
    no_wrap := state.no_wrap
    reply_buffer := state.reply_buffer
    raw_buffer := state.raw_buffer
    session_path := state.session_path
    last_assistant_uuid := state.last_assistant_uuid
    active_assistant_message_id := state.active_assistant_message_id
    active_assistant_text := state.active_assistant_text
    active_assistant_stop_reason := state.active_assistant_stop_reason
    active_assistant_has_tool_use := state.active_assistant_has_tool_use
    terminal_reply := state.terminal_reply
    prompt_enqueued := state.prompt_enqueued
    queue_dequeue_observed := state.queue_dequeue_observed
    prompt_activated := state.prompt_activated
    prompt_enqueue_uuid := state.prompt_enqueue_uuid
    prompt_activation_uuid := state.prompt_activation_uuid
    prompt_text := state.prompt_text }

/-- The record that `persist_submission` makes. -/
def persisted_execution_state (submission : ProviderSubmission)
    (pending_items : List CompletionItem) (pending_decision : Option CompletionDecision) :
    PersistedExecutionState :=
  { submission :=
      { submission with runtime_state := export_runtime_state submission.runtime_state }
    pending_items := pending_items
    pending_decision := pending_decision }

def Watcher.value_texts : PayloadValue → List Text
  | .text value => [value]
  | .path value => [watcher.places.text value]
  | _ => []

def Watcher.payload_texts (payload : List (String × PayloadValue)) : List Text :=
  payload.flatMap fun entry => watcher.value_texts entry.2

def Watcher.state_texts (state : RuntimeState) : List Text :=
  [state.request_anchor, state.reply_buffer, state.raw_buffer, state.last_assistant_uuid,
    state.active_assistant_message_id, state.active_assistant_text,
    state.active_assistant_stop_reason, state.terminal_reply, state.prompt_enqueue_uuid,
    state.prompt_activation_uuid, state.prompt_text] ++
    (state.session_path.toList ++ state.state.session_path.toList).map watcher.places.text

def Watcher.decision_texts (decision : CompletionDecision) : List Text :=
  decision.reply :: (watcher.value_texts decision.provider_turn_ref ++
    watcher.value_texts decision.session_path ++ watcher.payload_texts decision.diagnostics)

def Watcher.record_texts (record : PersistedExecutionState) : List Text :=
  record.submission.reply :: (watcher.state_texts record.submission.runtime_state ++
    (record.pending_items.flatMap fun item => watcher.payload_texts item.payload) ++
    record.pending_decision.toList.flatMap watcher.decision_texts)

/-- UTF-8 encodes no surrogate. -/
def encodable (text : Text) : Bool := text.all fun c => !isHigh c.val && !isLow c.val

/-- `JsonStore.save` writes the texts of a record as they are, in UTF-8. -/
def Watcher.can_save (record : PersistedExecutionState) : Bool :=
  (watcher.record_texts record).all encodable

/-- `resume_submission`: the reader is bound to where the path of the session leads. -/
def Watcher.resume_submission (submission : ProviderSubmission) : Option ProviderSubmission :=
  match submission.runtime_state.mode with
  | .passive => none
  | .active =>
    some
      { submission with
        runtime_state :=
          { submission.runtime_state with
            reader := submission.runtime_state.session_path.map watcher.places.resolve } }

/-- The log of a session, the submission that the daemon observes, the record that it keeps, and
what its polls have returned. -/
structure Host where
  log : Bytes
  submission : Option ProviderSubmission
  persisted : Option PersistedExecutionState
  polls : List ProviderPollResult
  deriving DecidableEq

/-- `persist_submission`; where the record cannot be saved, the one before it stays. -/
def Watcher.persist (record : PersistedExecutionState) (host : Host) : Host :=
  if watcher.can_save record then { host with persisted := some record } else host

/-- A prompt that has been sent, and the session whose log was captured before. -/
structure Prompt where
  session : ℕ
  log : Bytes
  request_anchor : Text
  no_wrap : Bool
  prompt_text : Text
  deriving DecidableEq

def start_active_submission (prompt : Prompt) : ProviderSubmission :=
  { reply := []
    runtime_state :=
      { mode := .active
        reader := some prompt.session
        state := { session_path := some prompt.session, offset := prompt.log.length, carry := [] }
        request_anchor := prompt.request_anchor
        next_seq := 1
        anchor_seen := prompt.no_wrap
        no_wrap := prompt.no_wrap
        reply_buffer := []
        raw_buffer := []
        session_path := some prompt.session
        last_assistant_uuid := []
        active_assistant_message_id := []
        active_assistant_text := []
        active_assistant_stop_reason := []
        active_assistant_has_tool_use := false
        terminal_reply := []
        prompt_enqueued := false
        queue_dequeue_observed := false
        prompt_activated := prompt.no_wrap
        prompt_enqueue_uuid := []
        prompt_activation_uuid := []
        prompt_text := prompt.prompt_text } }

def Watcher.start (prompt : Prompt) : Host :=
  let submission := start_active_submission prompt
  watcher.persist (persisted_execution_state submission [] none)
    { log := prompt.log, submission := some submission, persisted := none, polls := [] }

def Host.grow (more : Bytes) (host : Host) : Host := { host with log := host.log ++ more }

/-- A poll of the daemon: what `process_active_job` does.  A decision that has been recorded ends
the observation. -/
def Watcher.poll (growths : List Bytes) (host : Host) : Host :=
  let grown := host.grow growths.flatten
  match host.submission.bind (watcher.poll_submission growths host.log) with
  | none => grown
  | some result =>
    let record := persisted_execution_state result.submission result.items result.decision
    watcher.persist record
      { grown with
        submission :=
          if watcher.can_save record && result.decision.isSome then none
          else some result.submission
        polls := host.polls ++ [result] }

/-- A restart of the daemon: `restore_submission` of the record that it keeps. -/
def Watcher.restart (host : Host) : Host :=
  let resumed := host.persisted.bind fun record => watcher.resume_submission record.submission
  let restarted := { host with submission := resumed }
  match host.persisted, resumed with
  | some record, some submission =>
    watcher.persist
      (persisted_execution_state submission record.pending_items record.pending_decision) restarted
  | _, _ => restarted

/-- The log grows, the daemon polls, or it restarts. -/
inductive Moves : Host → Host → Prop
  | grow (host : Host) (more : Bytes) : Moves host (host.grow more)
  | poll (host : Host) (growths : List Bytes) : Moves host (watcher.poll growths host)
  | restart (host : Host) : Moves host (watcher.restart host)

end Polls

/-- The items that were recorded last. -/
def Host.pending_items (host : Host) : List CompletionItem :=
  (host.polls.getLast?.map ProviderPollResult.items).getD []

/-- The items of the polls up to and including the first that ends the turn. -/
def Host.items (host : Host) : List CompletionItem :=
  upTo CompletionItem.terminal (host.polls.flatMap ProviderPollResult.items)

/-- The reply of the submission when that item was returned, or else after the last poll. -/
def Host.reply (host : Host) : Option Text :=
  (upTo (fun poll => poll.items.any CompletionItem.terminal) host.polls).getLast?.map
    fun poll => poll.submission.reply

/-- What the daemon keeps of the submission can be saved, and the path of its session leads to
itself. -/
def Watcher.Recoverable (watcher : Watcher) (host : Host) : Prop :=
  ∀ submission, host.submission = some submission →
    watcher.can_save (persisted_execution_state submission host.pending_items none) = true ∧
      submission.runtime_state.session_path.map watcher.places.resolve =
        submission.runtime_state.session_path

end ClaudeCodeBridge.Model.ClaudeTurn
