import ClaudeCodeBridge.Model.RelaySender

/-!
# Streams of a relay session

`lib/mobile_gateway/relay_host_connector.py`: the streams of one session of the host and
their credit.  The read loop handles one message of the peer at a time, and each stream but
an upload has a producer of its own.  A step goes from one await to the next; what an await
ends with is chosen by the step: that it returns, or that it raises or times out, a send also when
the frame has been taken.

A message that is sent is on its way until it is written (`Model/RelaySender` says how), or
never is.  Only the sizes of payloads are kept, as `relay_inner_payload_size` measures them,
and of uploads the length of the decoded chunks.
-/

set_option autoImplicit false

namespace ClaudeCodeBridge.Model.Relay

open Program

def relay_stream_max_window_bytes : ℕ := 2 * 1024 * 1024

def upload_bytes : ℕ := 25 * 1024 * 1024

inductive StreamOperation where
  | terminal
  | notifications
  | file_upload
  | file_download
  deriving DecidableEq

inductive StreamCode where
  | bad_request
  | completed
  | stream_conflict
  | stream_limit
  | stream_not_found
  | stream_protocol_error
  | stream_upstream_error
  deriving DecidableEq

/-- `_window`. -/
structure Credit where
  bytes : ℕ
  pos : 0 < bytes
  le_max : bytes ≤ relay_stream_max_window_bytes
  deriving DecidableEq

/-- Of the configuration, what streams depend on. -/
structure StreamConfig where
  stream_window : Credit
  max_concurrent_streams : ℕ
  max_session_identities : ℕ
  deriving DecidableEq

abbrev StreamId := ℕ

/-- What the host sends about a stream. -/
inductive HostMessage where
  | stream_data (size : ℕ)
  | stream_window (credit_bytes : ℕ)
  | stream_close (code : StreamCode)
  | error (code : StreamCode)
  deriving DecidableEq

/-- What the peer sends about a stream. -/
inductive PeerMessage where
  /-- With whether the metadata of an upload are complete. -/
  | stream_open (operation : StreamOperation) (credit_bytes : Credit) (metadata : Bool)
  /-- With the length of the decoded chunk, if it can be decoded, and `eof`. -/
  | stream_data (size : ℕ) (chunk : Option ℕ) (eof : Bool)
  | stream_window (credit_bytes : Credit)
  | stream_cancel
  | stream_close
  deriving DecidableEq

/-- Where a producer goes when a message is written. -/
inductive ProducerNext where
  | opened
  | granted
  | running
  | ended
  | finishing
  deriving DecidableEq

inductive ProducerPoint where
  | absent
  | opening
  /-- The terminal's first frame is sent. -/
  | opened
  | running
  /-- Waiting for credit. -/
  | waiting (size : ℕ) (next : ProducerNext)
  | sending (message : HostMessage) (next : ProducerNext)
  | finishing
  | done
  deriving DecidableEq

/-- `_RelayHostStream`, and what has gone over the wire about it. -/
structure HostStream where
  operation : StreamOperation
  outbound_credit : ℤ
  inbound_credit : ℕ
  ready : Bool
  closed : Bool
  /-- It is in `session.streams`. -/
  listed : Bool
  upload_buffer : Option ℕ
  producer : ProducerPoint
  /-- The credit in `stream_open`. -/
  open_credit : ℕ
  received_credit : ℕ
  sent : ℕ
  /-- The payload of the data that were received. -/
  received : ℕ
  /-- The credit of the windows that were written. -/
  granted : ℕ
  deriving DecidableEq

namespace HostStream

def opened (config : StreamConfig) (operation : StreamOperation) (credit_bytes : Credit) :
    HostStream :=
  { operation := operation
    outbound_credit := credit_bytes.bytes
    inbound_credit := config.stream_window.bytes
    ready := false
    closed := false
    listed := true
    upload_buffer := none
    producer := .absent
    open_credit := credit_bytes.bytes
    received_credit := 0
    sent := 0
    received := 0
    granted := 0 }

/-- A message about the stream is written. -/
def wrote (stream : HostStream) (message : HostMessage) : HostStream :=
  match message with
  | .stream_data size => { stream with sent := stream.sent + size }
  | .stream_window credit_bytes => { stream with granted := stream.granted + credit_bytes }
  | .stream_close _ => stream
  | .error _ => stream

/-- `_finish_stream`, up to its first await. -/
def finish (stream : HostStream) : HostStream :=
  { stream with listed := false, closed := true, ready := true }

/-- `task.cancel()`.  The notifications' first grant stands outside of their `try`. -/
def cancel (stream : HostStream) : HostStream :=
  match stream.producer with
  | .absent => stream
  | .done => stream
  | .sending _ .granted => { stream with producer := .done }
  | _ => { stream with producer := .finishing }

/-- What a producer does when something raises. -/
def fail (stream : HostStream) (session_closed : Bool) : HostStream :=
  if stream.closed || session_closed then { stream with producer := .finishing }
  else
    { stream with producer := .sending (.stream_close .stream_upstream_error) .finishing }

/-- After a send of a producer that raises. -/
def unsent (stream : HostStream) (session_closed : Bool) : ProducerNext → HostStream
  | .granted => { stream with producer := .done }
  | .finishing => { stream with producer := .finishing }
  | _ => stream.fail session_closed

/-- `_send_stream_payload`, up to the wait for credit. -/
def produce (stream : HostStream) (session_closed : Bool) (size : ℕ) (next : ProducerNext) :
    HostStream :=
  if size > relay_stream_max_message_bytes then stream.fail session_closed
  else { stream with producer := .waiting size next }

/-- `_grant_stream_input`. -/
def grant (stream : HostStream) (next : ProducerNext) : HostStream :=
  { stream with
    ready := true
    producer := .sending (.stream_window stream.inbound_credit) next }

def goto_next (stream : HostStream) : ProducerNext → HostStream
  | .opened => { stream with producer := .opened }
  | .granted => { stream with producer := .running }
  | .running => { stream with producer := .running }
  | .ended => { stream with producer := .finishing }
  | .finishing => { stream with producer := .finishing }

end HostStream

/-- How an await of a producer ends, or what its upstream has for it. -/
inductive ProducerEvent where
  | ok
  | raises
  /-- The send raises, and the frame has been taken. -/
  | taken
  | payload (size : ℕ)
  | ends (code : StreamCode)
  deriving DecidableEq

def HostStream.produce_step (stream : HostStream) (session_closed : Bool) (event : ProducerEvent) :
    HostStream :=
  match stream.producer with
  | .absent => stream
  | .done => stream
  | .opening =>
    match stream.operation with
    | .notifications => stream.grant .granted
    | .terminal =>
      match event with
      | .payload size => stream.produce session_closed size .opened
      | _ => stream.fail session_closed
    | _ => { stream with producer := .running }
  | .opened =>
    match event with
    | .ok => stream.grant .running
    | _ => stream.fail session_closed
  | .running =>
    match event with
    | .ok => stream
    | .payload size => stream.produce session_closed size .running
    | .ends code =>
      if stream.closed && stream.operation ≠ .file_download then
        { stream with producer := .finishing }
      else { stream with producer := .sending (.stream_close code) .ended }
    | _ => stream.fail session_closed
  | .waiting size next =>
    match event with
    | .ok =>
      if stream.closed then stream.fail session_closed
      else if size ≤ stream.outbound_credit then
        { stream with
          outbound_credit := stream.outbound_credit - size
          producer := .sending (.stream_data size) next }
      else stream
    | _ => stream.fail session_closed
  | .sending message next =>
    match event with
    | .ok => (stream.wrote message).goto_next next
    | .taken => (stream.wrote message).unsent session_closed next
    | _ => stream.unsent session_closed next
  | .finishing => { (if stream.listed then stream.finish else stream) with producer := .done }

/-- Where the read loop goes when a message is written. -/
inductive ReaderNext where
  | read
  /-- The window for an upload's data is sent. -/
  | uploaded (eof : Bool)
  | close_upload
  | finish_upload
  /-- The notice of `_finish_stream` is sent. -/
  | join
  deriving DecidableEq

inductive ReaderPoint where
  | read
  | sending (id : StreamId) (message : HostMessage) (next : ReaderNext)
  /-- Data for a terminal, before `ready`. -/
  | awaiting_ready (id : StreamId) (size : ℕ)
  /-- Data on their way to a terminal. -/
  | forwarding (id : StreamId) (size : ℕ)
  /-- Before the lock of the credit. -/
  | crediting (id : StreamId) (credit_bytes : Credit)
  | uploading (id : StreamId)
  | waiting (id : StreamId) (size : ℕ)
  /-- `_finish_stream` waits for the stream's task. -/
  | joining (id : StreamId)
  deriving DecidableEq

structure HostSession where
  streams : StreamId → Option HostStream
  stream_ids : Finset StreamId
  reader : ReaderPoint
  closed : Bool
  /-- The streams that were finished, or whose window was refused, because of credit. -/
  credit_errors : List StreamId

namespace HostSession

def start : HostSession :=
  { streams := fun _ => none
    stream_ids := ∅
    reader := .read
    closed := false
    credit_errors := [] }

def put (s : HostSession) (id : StreamId) (stream : HostStream) : HostSession :=
  { s with streams := Function.update s.streams id (some stream) }

def read_at (s : HostSession) (reader : ReaderPoint) : HostSession := { s with reader := reader }

def answer (s : HostSession) (id : StreamId) (message : HostMessage) : HostSession :=
  s.read_at (.sending id message .read)

def get (s : HostSession) (id : StreamId) : Option HostStream :=
  (s.streams id).filter fun stream => stream.listed

/-- The streams that are in `session.streams`. -/
def live (s : HostSession) : Finset StreamId :=
  s.stream_ids.filter fun id => (s.get id).isSome

/-- A stream of the operation is in `session.streams`. -/
def has (s : HostSession) (operation : StreamOperation) : Bool :=
  s.live.filter (fun id => (s.get id).any fun stream => stream.operation = operation) ≠ ∅

/-- The end of `_finish_stream`. -/
def join (s : HostSession) (id : StreamId) (stream : HostStream) : HostSession :=
  (s.put id stream.cancel).read_at (.joining id)

/-- `_finish_stream`, with the code of the notice. -/
def finish_stream (s : HostSession) (id : StreamId) (notice : Option StreamCode) : HostSession :=
  match s.get id with
  | none =>
    match notice with
    | none => s.read_at .read
    | some _ => s.answer id (.error .stream_not_found)
  | some stream =>
    match notice with
    | none => s.join id stream.finish
    | some code => (s.put id stream.finish).read_at (.sending id (.stream_close code) .join)

variable (config : StreamConfig)

def open_stream (s : HostSession) (id : StreamId) (operation : StreamOperation)
    (credit_bytes : Credit) (metadata : Bool) : HostSession :=
  if id ∈ s.stream_ids ∨ s.stream_ids.card ≥ config.max_session_identities then
    s.answer id (.error .stream_conflict)
  else
    let s := { s with stream_ids := insert id s.stream_ids }
    if s.live.card ≥ config.max_concurrent_streams then s.answer id (.error .stream_limit)
    else if operation ≠ .terminal ∧ s.has operation then s.answer id (.error .stream_conflict)
    else
      let stream := HostStream.opened config operation credit_bytes
      match operation with
      | .file_upload =>
        if metadata then
          (s.put id { stream with upload_buffer := some 0, ready := true }).answer id
            (.stream_window stream.inbound_credit)
        else (s.put id stream).answer id (.error .bad_request)
      | _ => s.put id { stream with producer := .opening }

/-- `_handle_file_upload_data`, up to its first await. -/
def file_upload_data (s : HostSession) (id : StreamId) (stream : HostStream) (size : ℕ)
    (chunk : Option ℕ) (eof : Bool) : HostSession :=
  match chunk, stream.upload_buffer with
  | some length, some buffer =>
    if buffer + length > upload_bytes then s.finish_stream id (some .stream_upstream_error)
    else
      (s.put id { stream with
        upload_buffer := some (buffer + length)
        inbound_credit := stream.inbound_credit + size }).read_at
          (.sending id (.stream_window size) (.uploaded eof))
  | _, _ => s.finish_stream id (some .stream_upstream_error)

/-- `_handle_stream_data`, up to its first await. -/
def stream_data (s : HostSession) (id : StreamId) (size : ℕ) (chunk : Option ℕ) (eof : Bool) :
    HostSession :=
  match s.get id with
  | none => s.answer id (.error .stream_not_found)
  | some stream =>
    if stream.closed then s.answer id (.error .stream_not_found)
    else
      let stream := { stream with received := stream.received + size }
      if size > stream.inbound_credit then
        { (s.put id stream).finish_stream id (some .stream_protocol_error) with
          credit_errors := s.credit_errors ++ [id] }
      else
        let stream := { stream with inbound_credit := stream.inbound_credit - size }
        let s := s.put id stream
        match stream.operation with
        | .file_upload => s.file_upload_data id stream size chunk eof
        | .terminal => s.read_at (.awaiting_ready id size)
        | _ => s.finish_stream id (some .stream_protocol_error)

/-- `_handle_stream_window`, up to the lock of the credit. -/
def stream_window (s : HostSession) (id : StreamId) (credit_bytes : Credit) : HostSession :=
  match s.get id with
  | none => s
  | some stream =>
    if stream.closed then s
    else
      (s.put id
        { stream with received_credit := stream.received_credit + credit_bytes.bytes }).read_at
          (.crediting id credit_bytes)

/-- `_dispatch_inner_message`. -/
def dispatch (s : HostSession) (id : StreamId) : PeerMessage → HostSession
  | .stream_open operation credit_bytes metadata =>
    s.open_stream config id operation credit_bytes metadata
  | .stream_data size chunk eof => s.stream_data id size chunk eof
  | .stream_window credit_bytes => s.stream_window id credit_bytes
  | .stream_cancel => s.finish_stream id (some .stream_not_found)
  | .stream_close => s.finish_stream id none

/-- How an await of the read loop ends, or the size of an upload's result. -/
inductive ReaderEvent where
  | ok
  | raises
  | taken
  | result (size : ℕ)
  deriving DecidableEq

/-- A message is written; of the streams only its own one changes. -/
def write (s : HostSession) (id : StreamId) (message : HostMessage) : HostSession :=
  match s.streams id with
  | none => s
  | some stream => s.put id (stream.wrote message)

/-- After a message of the read loop is written. -/
def sent_next (s : HostSession) (id : StreamId) : ReaderNext → HostSession
  | .read => s.read_at .read
  | .uploaded eof => if eof then s.read_at (.uploading id) else s.read_at .read
  | .close_upload => s.read_at (.sending id (.stream_close .completed) .finish_upload)
  | .finish_upload => s.finish_stream id none
  | .join =>
    match s.streams id with
    | none => s.read_at .read
    | some stream => s.join id stream

/-- After a send of the read loop that raises. -/
def unsent_next (s : HostSession) (id : StreamId) : ReaderNext → HostSession
  | .read => s.read_at .read
  | .uploaded _ => s.finish_stream id (some .stream_upstream_error)
  | .close_upload => s.finish_stream id (some .stream_upstream_error)
  | .finish_upload => s.finish_stream id (some .stream_upstream_error)
  | .join =>
    match s.streams id with
    | none => s.read_at .read
    | some stream => s.join id stream

/-- The rest of `_handle_stream_window`. -/
def add_credit (s : HostSession) (id : StreamId) (stream : HostStream) (credit_bytes : Credit) :
    HostSession :=
  if stream.outbound_credit + credit_bytes.bytes > relay_stream_max_window_bytes then
    { s.answer id (.error .stream_protocol_error) with credit_errors := s.credit_errors ++ [id] }
  else
    (s.put id { stream with
      outbound_credit := stream.outbound_credit + credit_bytes.bytes }).read_at .read

/-- `_send_stream_payload` of an upload's result, once there is credit. -/
def send_result (s : HostSession) (id : StreamId) (stream : HostStream) (size : ℕ) : HostSession :=
  if stream.closed then s.finish_stream id (some .stream_upstream_error)
  else if size ≤ stream.outbound_credit then
    (s.put id { stream with outbound_credit := stream.outbound_credit - size }).read_at
      (.sending id (.stream_data size) .close_upload)
  else s

/-- The terminal has taken the data. -/
def restore (s : HostSession) (id : StreamId) (stream : HostStream) (size : ℕ) : HostSession :=
  (s.put id { stream with inbound_credit := stream.inbound_credit + size }).read_at
    (.sending id (.stream_window size) .read)

def read_step (s : HostSession) (event : ReaderEvent) : HostSession :=
  match s.reader with
  | .read => s
  | .sending id message next =>
    match event with
    | .ok => (s.write id message).sent_next id next
    | .taken => (s.write id message).unsent_next id next
    | _ => s.unsent_next id next
  | .awaiting_ready id size =>
    match event with
    | .ok =>
      if (s.streams id).any fun stream => stream.ready then s.read_at (.forwarding id size) else s
    | _ => s.finish_stream id (some .stream_upstream_error)
  | .forwarding id size =>
    match event, s.streams id with
    | .ok, some stream => s.restore id stream size
    | _, _ => s.finish_stream id (some .stream_upstream_error)
  | .crediting id credit_bytes =>
    match s.streams id with
    | none => s.read_at .read
    | some stream => s.add_credit id stream credit_bytes
  | .uploading id =>
    match event with
    | .result size =>
      if size > relay_stream_max_message_bytes then
        s.finish_stream id (some .stream_upstream_error)
      else s.read_at (.waiting id size)
    | _ => s.finish_stream id (some .stream_upstream_error)
  | .waiting id size =>
    match event, s.streams id with
    | .ok, some stream => s.send_result id stream size
    | _, _ => s.finish_stream id (some .stream_upstream_error)
  | .joining id =>
    if (s.streams id).all fun stream => stream.producer = .absent || stream.producer = .done then
      s.read_at .read
    else s

def close_stream (stream : HostStream) : HostStream :=
  (if stream.listed then stream.finish else stream).cancel

/-- `_close_session`. -/
def close (s : HostSession) : HostSession :=
  { s with
    streams := fun id => (s.streams id).map close_stream
    reader := .read
    closed := true }

inductive Step where
  | receive (id : StreamId) (message : PeerMessage)
  | read (event : ReaderEvent)
  | produce (id : StreamId) (event : ProducerEvent)
  | close

def step (s : HostSession) : Step → HostSession
  | .receive id message =>
    match s.reader with
    | .read => if s.closed then s else s.dispatch config id message
    | _ => s
  | .read event => s.read_step event
  | .produce id event =>
    match s.streams id with
    | none => s
    | some stream => s.put id (stream.produce_step s.closed event)
  | .close => s.close

def run (steps : List Step) (s : HostSession) : HostSession := steps.foldl (step config) s

end HostSession

end ClaudeCodeBridge.Model.Relay
