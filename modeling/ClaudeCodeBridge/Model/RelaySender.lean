import ClaudeCodeBridge.Model.RelayCrypto

/-!
# Sending in a relay session

`lib/mobile_gateway/relay_host_connector.py`: `_send_inner` in any number of tasks of one
session of the host.  Between two awaits a task is not interrupted.  It may be cut off at
each await, by `Task.cancel`, by the timeout of the write, or by an error of the websocket.

The websocket takes a frame at some time after `send_str` was called; until then a task
that is cut off takes the frame with it.  Which task sends what is left open.
-/

set_option autoImplicit false

namespace ClaudeCodeBridge.Model.Relay

open Program

def relay_stream_max_message_bytes : ℕ := 512 * 1024

def relay_inner_operation : Text := asciiText "relay.inner.v1"

/-- The bytes that `RelayInnerMessage.to_bytes` returns. -/
structure InnerBytes where
  bytes : Bytes
  length_le : bytes.length ≤ relay_stream_max_message_bytes
  deriving DecidableEq

/-- A `RelayFrame` of the kind `gateway_envelope`, of the session. -/
structure EnvelopeFrame where
  seq : ℕ
  envelope : RelayV2Envelope
  deriving DecidableEq

abbrev TaskId := ℕ

/-- Where a task is in `_send_inner`. -/
inductive SendPoint where
  | idle
  /-- Before the send lock; without bytes where `to_bytes` raises. -/
  | waiting (message : Option InnerBytes)
  | writing (frame : EnvelopeFrame)
  /-- The websocket has taken it, and `send_str` has not returned. -/
  | draining

structure RelaySender where
  crypto : RelayCryptoSession
  next_outer_seq : ℕ
  closed : Bool
  ws_closed : Bool
  send_lock : Option TaskId
  task : TaskId → SendPoint
  written : List EnvelopeFrame

namespace RelaySender

/-- `_RelayHostSession` as it is made. -/
def start (crypto : RelayCryptoSession) : RelaySender :=
  { crypto := crypto
    next_outer_seq := 3
    closed := false
    ws_closed := false
    send_lock := none
    task := fun _ => .idle
    written := [] }

def goto (s : RelaySender) (i : TaskId) (point : SendPoint) : RelaySender :=
  { s with task := Function.update s.task i point }

/-- The block of the lock ends. -/
def release (s : RelaySender) (i : TaskId) : RelaySender :=
  { s with send_lock := none }.goto i .idle

variable (encodings : Encodings) (encrypt : Bytes → Bytes → Bytes → Bytes → Option Bytes)

/-- With the lock: the envelope is sealed and numbered. -/
def sealed (s : RelaySender) (i : TaskId) (message : Option InnerBytes) : RelaySender :=
  match message with
  | none => s.goto i .idle
  | some message =>
    let outcome := s.crypto.seal_message encodings encrypt relay_inner_operation message.bytes
    let s := { s with crypto := outcome.2 }
    match outcome.1 with
    | .error _ => s.goto i .idle
    | .ok (envelope, _) =>
      { s with next_outer_seq := s.next_outer_seq + 1, send_lock := some i }.goto i
        (.writing ⟨s.next_outer_seq, envelope⟩)

inductive Step where
  /-- A task calls `_send_inner`. -/
  | send (i : TaskId) (message : Option InnerBytes)
  | turn (i : TaskId)
  /-- A task is cut off where it waits. -/
  | cut (i : TaskId)
  /-- `_close_session` begins. -/
  | close
  /-- `_close_session` has ended its tasks. -/
  | close_crypto
  | close_ws

/-- The next step of a task. -/
def turn (s : RelaySender) (i : TaskId) : RelaySender :=
  match s.task i with
  | .idle => s
  | .waiting message =>
    match s.send_lock with
    | some _ => s
    | none => s.sealed encodings encrypt i message
  | .writing frame => { s with written := s.written ++ [frame] }.goto i .draining
  | .draining => s.release i

def cut (s : RelaySender) (i : TaskId) : RelaySender :=
  match s.task i with
  | .idle => s
  | .waiting _ => s.goto i .idle
  | .writing _ => s.release i
  | .draining => s.release i

def step (s : RelaySender) : Step → RelaySender
  | .send i message =>
    match s.task i with
    | .idle => if s.closed || s.ws_closed then s else s.goto i (.waiting message)
    | _ => s
  | .turn i => s.turn encodings encrypt i
  | .cut i => s.cut i
  | .close => { s with closed := true }
  | .close_crypto => if s.closed then { s with crypto := s.crypto.close } else s
  | .close_ws => { s with ws_closed := true }

def run (steps : List Step) (s : RelaySender) : RelaySender :=
  steps.foldl (step encodings encrypt) s

end RelaySender

/-- A receiver that requires consecutive numbers rejects none of the frames. -/
def InOrder : ℕ → ℕ → List EnvelopeFrame → Prop
  | _, _, [] => True
  | crypto_seq, outer_seq, frame :: frames =>
    frame.envelope.seq = crypto_seq ∧ frame.seq = outer_seq ∧
      InOrder (crypto_seq + 1) (outer_seq + 1) frames

end ClaudeCodeBridge.Model.Relay
