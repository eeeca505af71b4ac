import ClaudeCodeBridge.Model.RelayCrypto

/-!
# The relay service

`lib/mobile_gateway/relay_service.py`: one host connection that carries the sessions of
any number of phones.  Every connection has a handler, which reads frames from its
websocket one after another, and an endpoint with a bounded queue from which a writer
task sends.  A handler can be interrupted wherever it awaits, so its state is the point
at which it does (`HostTask`, `PhoneTask`), and a `Turn` takes it to the next such point.

A message is what `ws.receive` hands to `_receive_frame`; what `_receive_frame` rejects,
whatever the reason, is `rejected`.  The admission store's two answers to a forwarded
frame are part of the turn.  A session object is named by the phone connection that
opened it.  Admission of connections, metrics and draining are left out.
-/

set_option autoImplicit false

namespace ClaudeCodeBridge.Model.Relay

open Program

inductive RelayPayload where
  | client_hello (host_id : Text)
  | host_hello (host_id : Text)
  | host_register
  | gateway_envelope (envelope : Dict Text JsonValue)
  | heartbeat
  | ack
  | error
  | close
  deriving DecidableEq

structure RelayFrame where
  session_id : Text
  seq : ℕ
  payload : RelayPayload
  deriving DecidableEq

def RelayPayload.kind : RelayPayload → String
  | client_hello _ => "client_hello"
  | host_hello _ => "host_hello"
  | host_register => "host_register"
  | gateway_envelope _ => "gateway_envelope"
  | heartbeat => "heartbeat"
  | ack => "ack"
  | error => "error"
  | close => "close"

/-- What a peer's websocket hands over. -/
inductive Message where
  | frame (frame : RelayFrame)
  | rejected
  | closed
  deriving DecidableEq

inductive MobileRelayError where
  | relay (text : String)
  | crypto (error : RelayCryptoError)
  /-- An exception of the admission store. -/
  | admission
  deriving DecidableEq

def ack_frame (frame : RelayFrame) : RelayFrame := { frame with payload := .ack }

/-- The frame that tells both peers of a closed session. -/
def close_frame (session_id : Text) : RelayFrame :=
  { session_id := session_id, seq := 1, payload := .close }

/-- `_PeerEndpoint`; `incoming` and `delivered` are in flight on its websocket. -/
structure PeerEndpoint where
  queue : List (Option RelayFrame)
  closed : Bool
  incoming : List Message
  delivered : List RelayFrame
  deriving DecidableEq

namespace PeerEndpoint

def start : PeerEndpoint := { queue := [], closed := false, incoming := [], delivered := [] }

variable (queue_limit : ℕ)

/-- `queue.put` within `write_timeout`, `none` while it waits for room. -/
def put (e : PeerEndpoint) (frame : RelayFrame) (timeout : Bool) :
    Option (Except MobileRelayError PeerEndpoint) :=
  if e.queue.length < queue_limit then some (.ok { e with queue := e.queue ++ [some frame] })
  else if timeout then some (.error (.relay "relay peer queue full"))
  else none

def close (e : PeerEndpoint) : PeerEndpoint :=
  if e.closed then e
  else
    { e with
      closed := true
      queue := if e.queue.length < queue_limit then e.queue ++ [none] else e.queue }

/-- One round of `_writer`; a frame that cannot be sent in time closes the endpoint. -/
def write (e : PeerEndpoint) (sent : Bool) : Option PeerEndpoint :=
  match e.closed, e.queue with
  | false, some frame :: rest =>
    if sent then some { e with queue := rest, delivered := e.delivered ++ [frame] }
    else some (close queue_limit { e with queue := rest })
  | _, _ => none

end PeerEndpoint

/-- `_RelaySessionState`; its host is the one host. -/
structure RelaySessionState where
  session_id : Text
  host_id : Text
  outer_seq_by_role : Role → ℕ
  envelope_seq_by_direction : RelayDirection → ℤ
  closed : Bool

abbrev ConnectionId := ℕ

/-- `_close_session` after the session is removed: which close frames are to be put. -/
structure Closing where
  session : ConnectionId
  to_host : Bool
  to_phone : Bool
  deriving DecidableEq

/-- Where the host's handler awaits. -/
inductive HostTask where
  | reading
  | acking (frame : RelayFrame)
  | greeting (session : ConnectionId) (frame : RelayFrame)
  | forwarding (session : ConnectionId) (frame : RelayFrame)
  | closing (closing : Closing)
  | closing_slow (closing : Closing) (error : MobileRelayError)
  | raised (error : MobileRelayError)
  | disconnecting (session_ids : List Text) (closings : List Closing)
  | ended

/-- Where a phone's handler awaits. -/
inductive PhoneTask where
  | greeting (frame : RelayFrame)
  | reading
  | acking (frame : RelayFrame)
  | forwarding (frame : RelayFrame)
  | closing (closing : Closing)
  | closing_slow (closing : Closing) (error : MobileRelayError)
  | raised (error : MobileRelayError)
  | leaving (closing : Closing)
  | ended

structure PhoneConnection where
  endpoint : PeerEndpoint
  task : PhoneTask
  session : RelaySessionState

/-- The service with its connections, and what the host has read and sent. -/
structure RelayService where
  host : PeerEndpoint
  host_task : HostTask
  registered : Bool
  phones : ConnectionId → Option PhoneConnection
  sessions : Dict Text ConnectionId
  sessions_by_host : List Text
  heard : List RelayFrame
  sent : List RelayFrame

/-- What decides a turn besides the state: whether a wait times out or a read finds the
websocket closed, what the admission store says, and which of several puts comes next. -/
structure Turn where
  timeout : Bool
  hangup : Bool
  host_active : Bool
  bytes_recorded : Bool
  host_side : Bool
  index : ℕ
  deriving DecidableEq

/-- A turn in which nothing goes wrong. -/
def Turn.plain : Turn :=
  { timeout := false, hangup := false, host_active := true, bytes_recorded := true,
    host_side := true, index := 0 }

namespace RelayService

variable (queue_limit : ℕ) (encodings : Encodings)

def start : RelayService :=
  { host := .start, host_task := .reading, registered := true, phones := fun _ => none,
    sessions := .empty, sessions_by_host := [], heard := [], sent := [] }

def set_phone (r : RelayService) (c : ConnectionId) (phone : PhoneConnection) : RelayService :=
  { r with phones := Function.update r.phones c (some phone) }

/-- Change a phone connection that exists. -/
def map_phone (r : RelayService) (c : ConnectionId) (f : PhoneConnection → PhoneConnection) :
    RelayService :=
  match r.phones c with
  | none => r
  | some phone => r.set_phone c (f phone)

def set_phone_task (r : RelayService) (c : ConnectionId) (task : PhoneTask) : RelayService :=
  r.map_phone c fun phone => { phone with task := task }

def set_host_task (r : RelayService) (task : HostTask) : RelayService :=
  { r with host_task := task }

/-- The part under the lock. -/
def pop_session (r : RelayService) (session_id : Text) : Option Closing × RelayService :=
  match r.sessions.get session_id with
  | none => (none, r)
  | some c =>
    let r := { r with sessions := r.sessions.pop session_id }
    match r.phones c with
    | none => (none, r)
    | some phone =>
      if phone.session.closed then (none, r)
      else
        let r := { r with sessions_by_host := r.sessions_by_host.filter (· ≠ session_id) }
        (some { session := c, to_host := true, to_phone := true },
          r.set_phone c { phone with session := { phone.session with closed := true } })

/-- One of the two close frames: a peer that is closed or has no room misses it. -/
def put_close (r : RelayService) (closing : Closing) (turn : Turn) :
    Option (Closing × RelayService) :=
  match r.phones closing.session with
  | none => none
  | some phone =>
    let frame := close_frame phone.session.session_id
    if turn.host_side then
      if ¬ closing.to_host then none
      else if r.host.closed then some ({ closing with to_host := false }, r)
      else
        match r.host.put queue_limit frame turn.timeout with
        | none => none
        | some (.error _) => some ({ closing with to_host := false }, r)
        | some (.ok host) => some ({ closing with to_host := false }, { r with host := host })
    else
      if ¬ closing.to_phone then none
      else if phone.endpoint.closed then some ({ closing with to_phone := false }, r)
      else
        match phone.endpoint.put queue_limit frame turn.timeout with
        | none => none
        | some (.error _) => some ({ closing with to_phone := false }, r)
        | some (.ok endpoint) =>
          some ({ closing with to_phone := false },
            r.set_phone closing.session { phone with endpoint := endpoint })

/-- The rest of `_close_session`, one put at a time; `none` beside the service once the
phone's endpoint is closed. -/
def close_session (r : RelayService) (closing : Closing) (turn : Turn) :
    Option (Option Closing × RelayService) :=
  if closing.to_host || closing.to_phone then
    match r.put_close queue_limit closing turn with
    | none => none
    | some (closing, r) => some (some closing, r)
  else
    some (none, r.map_phone closing.session fun phone =>
      { phone with endpoint := phone.endpoint.close queue_limit })

/-- The checks, up to the admission store's account of the bytes. -/
def forward_checks (session : RelaySessionState) (frame : RelayFrame)
    (envelope : Dict Text JsonValue) (source_role : Role) (turn : Turn) :
    Except MobileRelayError RelayV2Envelope := do
  if ¬ turn.host_active then throw (.relay "relay host is not active")
  if frame.seq ≤ session.outer_seq_by_role source_role then
    throw (.relay "relay outer frame replay or reorder rejected")
  match RelayV2Envelope.from_json encodings envelope with
  | .error e => throw (.crypto e)
  | .ok envelope =>
    if envelope.session_id ≠ session.session_id then
      throw (.relay "relay gateway envelope session mismatch")
    if envelope.direction ≠ source_role.direction then
      throw (.relay "relay gateway envelope direction mismatch")
    if envelope.seq ≤ session.envelope_seq_by_direction source_role.direction then
      throw (.relay "relay gateway envelope replay or reorder rejected")
    if ¬ turn.bytes_recorded then throw .admission
    return envelope

def accounted (session : RelaySessionState) (frame : RelayFrame) (envelope : RelayV2Envelope)
    (source_role : Role) : RelaySessionState :=
  { session with
    outer_seq_by_role := Function.update session.outer_seq_by_role source_role frame.seq
    envelope_seq_by_direction :=
      Function.update session.envelope_seq_by_direction source_role.direction envelope.seq }

/-- From a message to the next point at which the host's handler awaits. -/
def host_reader (r : RelayService) (message : Message) (turn : Turn) : RelayService :=
  match message with
  | .closed => r.set_host_task (.raised (.relay "relay peer closed"))
  | .rejected => r.set_host_task (.raised (.relay "relay frame rejected"))
  | .frame frame =>
    match frame.payload with
    | .heartbeat =>
      if r.host.closed then r.set_host_task (.raised (.relay "relay peer is closed"))
      else r.set_host_task (.acking (ack_frame frame))
    | .close =>
      match r.pop_session frame.session_id with
      | (none, r) => r.set_host_task .reading
      | (some closing, r) => r.set_host_task (.closing closing)
    | payload =>
      match r.sessions.get frame.session_id with
      | none => r.set_host_task (.raised (.relay "relay session is not established"))
      | some c =>
        match r.phones c with
        | none => r.set_host_task (.raised (.relay "relay session is not established"))
        | some phone =>
          match payload with
          | .host_hello host_id =>
            -- the rest of `negotiate` is what `_receive_frame` has already asked
            if host_id ≠ phone.session.host_id then
              r.set_host_task (.raised (.relay "relay handshake host mismatch"))
            else if phone.endpoint.closed then
              r.set_host_task (.raised (.relay "relay peer is closed"))
            else r.set_host_task (.greeting c frame)
          | .gateway_envelope envelope =>
            match forward_checks encodings phone.session frame envelope .host turn with
            | .error e => r.set_host_task (.raised e)
            | .ok envelope =>
              let r := r.set_phone c
                { phone with session := accounted phone.session frame envelope .host }
              if phone.endpoint.closed then
                r.set_host_task (.raised (.relay "relay peer is closed"))
              else r.set_host_task (.forwarding c frame)
          | payload =>
            r.set_host_task (.raised (.relay s!"relay host frame is not allowed: {payload.kind}"))

def host_turn (r : RelayService) (turn : Turn) : Option RelayService :=
  match r.host_task with
  | .reading =>
    if turn.hangup then
      if r.host.closed then some (r.host_reader encodings .closed turn) else none
    else
      match r.host.incoming with
      | [] => none
      | message :: rest =>
        some (host_reader encodings { r with host := { r.host with incoming := rest } }
          message turn)
  | .acking frame =>
    match r.host.put queue_limit frame turn.timeout with
    | none => none
    | some (.error e) => some (r.set_host_task (.raised e))
    | some (.ok host) => some ({ r with host := host }.set_host_task .reading)
  | .greeting c frame =>
    match r.phones c with
    | none => none
    | some phone =>
      match phone.endpoint.put queue_limit frame turn.timeout with
      | none => none
      | some (.error e) => some (r.set_host_task (.raised e))
      | some (.ok endpoint) =>
        some ((r.set_phone c { phone with endpoint := endpoint }).set_host_task .reading)
  | .forwarding c frame =>
    match r.phones c with
    | none => none
    | some phone =>
      match phone.endpoint.put queue_limit frame turn.timeout with
      | none => none
      | some (.error e) =>
        match r.pop_session phone.session.session_id with
        | (none, r) => some (r.set_host_task (.raised e))
        | (some closing, r) => some (r.set_host_task (.closing_slow closing e))
      | some (.ok endpoint) =>
        some ((r.set_phone c { phone with endpoint := endpoint }).set_host_task .reading)
  | .closing closing =>
    match r.close_session queue_limit closing turn with
    | none => none
    | some (none, r) => some (r.set_host_task .reading)
    | some (some closing, r) => some (r.set_host_task (.closing closing))
  | .closing_slow closing e =>
    match r.close_session queue_limit closing turn with
    | none => none
    | some (none, r) => some (r.set_host_task (.raised e))
    | some (some closing, r) => some (r.set_host_task (.closing_slow closing e))
  | .raised _ =>
    -- `_send_error_and_close`, then `_disconnect_host`
    some ({ r with host := r.host.close queue_limit, registered := false }.set_host_task
      (.disconnecting r.sessions_by_host []))
  | .disconnecting [] [] => some (r.set_host_task .ended)
  | .disconnecting (session_id :: session_ids) closings =>
    match r.pop_session session_id with
    | (none, r) => some (r.set_host_task (.disconnecting session_ids closings))
    | (some closing, r) =>
      some (r.set_host_task (.disconnecting session_ids (closings ++ [closing])))
  | .disconnecting [] closings =>
    match closings[turn.index]? with
    | none => none
    | some closing =>
      match r.close_session queue_limit closing turn with
      | none => none
      | some (none, r) => some (r.set_host_task (.disconnecting [] (closings.eraseIdx turn.index)))
      | some (some closing, r) =>
        some (r.set_host_task (.disconnecting [] (closings.set turn.index closing)))
  | .ended => none

/-- The `finally` of `_phone_socket`. -/
def leave (r : RelayService) (c : ConnectionId) (session_id : Text) : RelayService :=
  match r.pop_session session_id with
  | (none, r) =>
    (r.map_phone c fun phone =>
      { phone with endpoint := phone.endpoint.close queue_limit }).set_phone_task c .ended
  | (some closing, r) => r.set_phone_task c (.leaving closing)

/-- From a message to the next point at which a phone's handler awaits. -/
def phone_reader (r : RelayService) (c : ConnectionId) (phone : PhoneConnection)
    (message : Message) (turn : Turn) : RelayService :=
  match message with
  | .closed => r.set_phone_task c (.raised (.relay "relay peer closed"))
  | .rejected => r.set_phone_task c (.raised (.relay "relay frame rejected"))
  | .frame frame =>
    match frame.payload with
    | .heartbeat =>
      if phone.endpoint.closed then
        r.set_phone_task c (.raised (.relay "relay peer is closed"))
      else r.set_phone_task c (.acking (ack_frame frame))
    | .close =>
      match r.pop_session phone.session.session_id with
      | (none, r) => r.leave queue_limit c phone.session.session_id
      | (some closing, r) => r.set_phone_task c (.closing closing)
    | payload =>
      if r.sessions.get phone.session.session_id ≠ some c then
        r.set_phone_task c (.raised (.relay "relay session is not established"))
      else
        match payload with
        | .gateway_envelope envelope =>
          match forward_checks encodings phone.session frame envelope .phone turn with
          | .error e => r.set_phone_task c (.raised e)
          | .ok envelope =>
            let r := r.set_phone c
              { phone with session := accounted phone.session frame envelope .phone }
            if r.host.closed then r.set_phone_task c (.raised (.relay "relay peer is closed"))
            else r.set_phone_task c (.forwarding frame)
        | payload =>
          r.set_phone_task c (.raised (.relay s!"relay phone frame is not allowed: {payload.kind}"))

def phone_turn (r : RelayService) (c : ConnectionId) (turn : Turn) : Option RelayService :=
  match r.phones c with
  | none => none
  | some phone =>
    match phone.task with
    | .greeting frame =>
      match r.host.put queue_limit frame turn.timeout with
      | none => none
      | some (.error e) => some (r.set_phone_task c (.raised e))
      | some (.ok host) => some ({ r with host := host }.set_phone_task c .reading)
    | .reading =>
      if turn.hangup then
        if phone.endpoint.closed then
          some (r.phone_reader queue_limit encodings c phone .closed turn)
        else none
      else
        match phone.endpoint.incoming with
        | [] => none
        | message :: rest =>
          let phone := { phone with endpoint := { phone.endpoint with incoming := rest } }
          some (phone_reader queue_limit encodings (r.set_phone c phone) c phone message turn)
    | .acking frame =>
      match phone.endpoint.put queue_limit frame turn.timeout with
      | none => none
      | some (.error e) => some (r.set_phone_task c (.raised e))
      | some (.ok endpoint) =>
        some (r.set_phone c { phone with endpoint := endpoint, task := .reading })
    | .forwarding frame =>
      match r.host.put queue_limit frame turn.timeout with
      | none => none
      | some (.error e) =>
        match r.pop_session phone.session.session_id with
        | (none, r) => some (r.set_phone_task c (.raised e))
        | (some closing, r) => some (r.set_phone_task c (.closing_slow closing e))
      | some (.ok host) => some ({ r with host := host }.set_phone_task c .reading)
    | .closing closing =>
      match r.close_session queue_limit closing turn with
      | none => none
      | some (none, r) => some (r.leave queue_limit c phone.session.session_id)
      | some (some closing, r) => some (r.set_phone_task c (.closing closing))
    | .closing_slow closing e =>
      match r.close_session queue_limit closing turn with
      | none => none
      | some (none, r) => some (r.set_phone_task c (.raised e))
      | some (some closing, r) => some (r.set_phone_task c (.closing_slow closing e))
    | .raised _ =>
      let r := r.map_phone c fun phone =>
        { phone with endpoint := phone.endpoint.close queue_limit }
      some (r.leave queue_limit c phone.session.session_id)
    | .leaving closing =>
      match r.close_session queue_limit closing turn with
      | none => none
      | some (none, r) =>
        some ((r.map_phone c fun phone =>
          { phone with endpoint := phone.endpoint.close queue_limit }).set_phone_task c .ended)
      | some (some closing, r) => some (r.set_phone_task c (.leaving closing))
    | .ended => none

/-- `_open_phone_session`, from the check under the lock to the put of the hello. -/
def open_phone_session (r : RelayService) (c : ConnectionId) (frame : RelayFrame) :
    Option RelayService :=
  match frame.payload, r.phones c with
  | .client_hello host_id, none =>
    if r.registered ∧ ¬ r.host.closed ∧ r.sessions.get frame.session_id = none then
      let session : RelaySessionState :=
        { session_id := frame.session_id
          host_id := host_id
          outer_seq_by_role := fun _ => 0
          envelope_seq_by_direction := fun _ => 0
          closed := false }
      let r := { r with sessions := r.sessions.set frame.session_id c }
      let r := { r with sessions_by_host := r.sessions_by_host ++ [frame.session_id] }
      some (r.set_phone c { endpoint := .start, task := .greeting frame, session := session })
    else none
  | _, _ => none

inductive Step where
  | open_phone (c : ConnectionId) (frame : RelayFrame)
  | phone_sends (c : ConnectionId) (message : Message)
  | host_sends (message : Message)
  | host_hears
  | write_host (sent : Bool)
  | write_phone (c : ConnectionId) (sent : Bool)
  | host_turn (turn : Turn)
  | phone_turn (c : ConnectionId) (turn : Turn)

/-- What happens next, `none` where it cannot. -/
def step (r : RelayService) : Step → Option RelayService
  | .open_phone c frame => r.open_phone_session c frame
  | .phone_sends c message =>
    match r.phones c with
    | none => none
    | some phone =>
      some (r.set_phone c { phone with
        endpoint := { phone.endpoint with incoming := phone.endpoint.incoming ++ [message] } })
  | .host_sends message =>
    let sent := match message with
      | .frame frame => [frame]
      | _ => []
    some { r with
      host := { r.host with incoming := r.host.incoming ++ [message] }
      sent := r.sent ++ sent }
  | .host_hears =>
    match r.host.delivered with
    | [] => none
    | frame :: rest =>
      some { r with
        host := { r.host with delivered := rest }
        heard := r.heard ++ [frame] }
  | .write_host sent =>
    match r.host.write queue_limit sent with
    | none => none
    | some host => some { r with host := host }
  | .write_phone c sent =>
    match r.phones c with
    | none => none
    | some phone =>
      match phone.endpoint.write queue_limit sent with
      | none => none
      | some endpoint => some (r.set_phone c { phone with endpoint := endpoint })
  | .host_turn turn => r.host_turn queue_limit encodings turn
  | .phone_turn c turn => r.phone_turn queue_limit encodings c turn

def run (r : RelayService) : List Step → Option RelayService
  | [] => some r
  | s :: steps =>
    match step queue_limit encodings r s with
    | none => none
    | some r => run r steps

end RelayService

end ClaudeCodeBridge.Model.Relay
