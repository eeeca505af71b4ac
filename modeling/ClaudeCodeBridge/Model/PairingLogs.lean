import ClaudeCodeBridge.Model.DeviceRegistry
import ClaudeCodeBridge.Program.LineFile

/-!
# Pairings and terminals

`lib/mobile_gateway/pairing.py`: the logs of pairings and of terminals, and the calls of the
one `MobileGatewayPairingStore` that reads and appends to them.  Its lock makes a call one
step, unless the process stops in it: between two accesses to the files, or in the middle of
an append.  Then the store begins again without its cache.

What a call draws at random has the number of the call, and the hash of a token is taken to
be the token.  A file that does not exist is taken for an empty one.
-/

set_option autoImplicit false

namespace ClaudeCodeBridge.Model.Pairing

open Program

def terminal_log_compact_bytes : ℕ := 8 * 1024 * 1024

abbrev PairingId := ℕ

abbrev TerminalId := ℕ

/-- What `str.splitlines` divides a text at, and JSON does not escape. -/
def separator (c : Fin 0x110000) : Bool := c = 0x85 || c = 0x2028 || c = 0x2029

structure PairingRecord where
  pairing_id : PairingId
  project_id : Text
  token_hash : Token
  scopes : List Text
  route_provider : Text
  gateway_url : Text
  expires_at : Option ℕ
  reusable_claims : Bool
  claimed_at : Option ℕ
  claimed_by_device_id : Option Text
  revoked_at : Option ℕ
  revoked_reason : Text
  deriving DecidableEq

namespace PairingRecord

/-- Its line is read as one line.  A device's id, of letters and digits, is. -/
def one_line (record : PairingRecord) : Bool :=
  (record.project_id :: record.route_provider :: record.gateway_url :: record.revoked_reason ::
    record.scopes).all fun text => !text.any separator

def claimed (record : PairingRecord) : Bool :=
  record.claimed_at.isSome || record.claimed_by_device_id.isSome

end PairingRecord

structure TargetSummary where
  kind : Text
  client_session_id : Text
  deriving DecidableEq

structure TerminalRecord where
  terminal_id : TerminalId
  project_id : Text
  device_id : Text
  token_hash : Token
  expires_at : ℕ
  target_summary : TargetSummary
  last_input_seq : ℤ
  last_output_seq : ℤ
  disconnected_at : Option ℕ
  closed_at : Option ℕ
  revoked_at : Option ℕ
  deriving DecidableEq

namespace TerminalRecord

def ended (record : TerminalRecord) : Bool := record.revoked_at.isSome || record.closed_at.isSome

/-- It is revoked, unless it has ended. -/
def revoke (record : TerminalRecord) (now : ℕ) : TerminalRecord :=
  { record with revoked_at := some now }

end TerminalRecord

/-- How long the lines of records are. -/
structure LineLengths where
  pairing : PairingRecord → ℕ
  terminal : TerminalRecord → ℕ

namespace LineLengths

variable (lengths : LineLengths)

def pairing_line (record : PairingRecord) : Line PairingRecord :=
  { text := if record.one_line then .record record else .other
    length := lengths.pairing record }

def terminal_line (record : TerminalRecord) : Line TerminalRecord :=
  { text := .record record, length := lengths.terminal record }

end LineLengths

/-- The log of terminals, and what `stat` says of it. -/
structure TerminalLog where
  file : LineFile TerminalRecord
  identity : ℕ
  mtime : ℕ
  deriving DecidableEq

/-- `_terminal_state_cache` and what stands with it. -/
structure TerminalCache where
  state : List TerminalRecord
  identity : ℕ
  offset : ℕ
  mtime : ℕ
  deriving DecidableEq

/-- What a call has returned to its caller. -/
inductive Event where
  /-- `claim_pairing`, with whether the code can be claimed again. -/
  | claimed (pairing_code : Token) (device_token : Token) (reusable_claims : Bool)
  | authenticated (terminal_id : TerminalId)
  | input (terminal_id : TerminalId) (sequence : ℤ)
  | output (terminal_id : TerminalId)
  /-- The terminal is closed or revoked. -/
  | ended (terminal_id : TerminalId)
  deriving DecidableEq

structure PairingStore where
  devices : List DeviceRecord
  pairing_log : LineFile PairingRecord
  terminal_log : TerminalLog
  cache : Option TerminalCache
  /-- The number of the next call. -/
  drawn : ℕ
  /-- What the calls have returned. -/
  events : List Event
  deriving DecidableEq

/-- What the clock and the file system say during a call. -/
structure Moment where
  now : ℕ
  mtime : ℕ
  /-- Of a file that is made. -/
  identity : ℕ
  deriving DecidableEq

inductive CallFailure where
  | refused (error : PairingError)
  /-- `UnicodeDecodeError`. -/
  | undecodable
  deriving DecidableEq

/-- An access of a call to the files. -/
inductive Access where
  | write_devices (devices : List DeviceRecord)
  | append_pairing (record : PairingRecord)
  /-- `_terminal_state_by_id`, which may compact the log. -/
  | read_terminals
  | append_terminal (record : TerminalRecord)

/-- The accesses of a call in their order, and how it ends after them. -/
structure Outcome where
  accesses : List Access
  returns : Except CallFailure (List Event)

namespace PairingStore

def empty : PairingStore :=
  { devices := []
    pairing_log := .empty
    terminal_log := { file := .empty, identity := 0, mtime := 0 }
    cache := none
    drawn := 0
    events := [] }

def pairing_state_by_id (s : PairingStore) : Except CallFailure (List PairingRecord) :=
  if s.pairing_log.decodable then
    .ok (collapse PairingRecord.pairing_id
      (s.pairing_log.records ++ s.pairing_log.rest_record.toList))
  else .error .undecodable

/-- The cache from which `_terminal_state_by_id` reads on. -/
def usable_cache (s : PairingStore) : TerminalCache :=
  let log := s.terminal_log
  let fresh : TerminalCache := { state := [], identity := log.identity, offset := 0, mtime := 0 }
  match s.cache with
  | none => fresh
  | some cache =>
    if cache.identity ≠ log.identity ∨ log.file.size < cache.offset ∨
        (log.file.size = cache.offset ∧ log.mtime ≠ cache.mtime) then
      fresh
    else cache

/-- The cache after the reads of `_terminal_state_by_id`. -/
def read_on (s : PairingStore) : TerminalCache :=
  let log := s.terminal_log
  let cache := s.usable_cache
  let lines := linesFrom cache.offset log.file.lines
  { state := (lines.filterMap Line.record?).foldl
      (fun state record => upsert TerminalRecord.terminal_id record state) cache.state
    identity := log.identity
    offset := cache.offset + bytes lines
    mtime := log.mtime }

/-- What `_terminal_state_by_id` returns. -/
def terminal_state_by_id (s : PairingStore) : List TerminalRecord := s.read_on.state

def is_device_revoked (s : PairingStore) (device_id : Text) : Bool :=
  device_id ≠ [] && s.devices.any fun record =>
    record.device_id = device_id ∧ record.revoked_at.isSome

variable (lengths : LineLengths)

/-- `_compact_terminal_state_log`. -/
def compact (s : PairingStore) (moment : Moment) (cache : TerminalCache) : PairingStore :=
  let file : LineFile TerminalRecord :=
    { lines := cache.state.map lengths.terminal_line, rest := none }
  { s with
    terminal_log := { file := file, identity := moment.identity, mtime := moment.mtime }
    cache := some
      { state := cache.state
        identity := moment.identity
        offset := file.size
        mtime := moment.mtime } }

/-- `_terminal_state_by_id`. -/
def read_terminals (s : PairingStore) (moment : Moment) : PairingStore :=
  let cache := s.read_on
  let size := s.terminal_log.file.size
  if cache.offset = size ∧ size > terminal_log_compact_bytes then s.compact lengths moment cache
  else { s with cache := some cache }

def access (moment : Moment) (s : PairingStore) : Access → PairingStore
  | .write_devices devices => { s with devices := devices }
  | .append_pairing record =>
    { s with pairing_log := s.pairing_log.append (lengths.pairing_line record) }
  | .read_terminals => s.read_terminals lengths moment
  | .append_terminal record =>
    { s with terminal_log :=
      { file := s.terminal_log.file.append (lengths.terminal_line record)
        identity := s.terminal_log.identity
        mtime := moment.mtime } }

/-- An access in the middle of which the process stops.  The others are all or nothing. -/
def tear (moment : Moment) (torn : Torn) (s : PairingStore) : Access → PairingStore
  | .append_pairing record =>
    { s with pairing_log := s.pairing_log.tear (lengths.pairing_line record) torn }
  | .append_terminal record =>
    { s with terminal_log :=
      { file := s.terminal_log.file.tear (lengths.terminal_line record) torn
        identity := s.terminal_log.identity
        mtime := moment.mtime } }
  | _ => s

end PairingStore

inductive StoreRequest where
  | create_pairing (project_id gateway_url route_provider : Text) (scopes : List Text)
      (expires_seconds : Option ℤ) (reusable_claims : Bool)
  | revoke_pairing (pairing_id : PairingId) (reason : Text)
  /-- With the device's id, requested or drawn. -/
  | claim_pairing (pairing_code : Token) (device_id : Text)
  | authenticate_device (device_token : Token) (required_scopes : List Text)
  /-- `revoke_device_locally`, and `revoke_device` once the device is authenticated. -/
  | revoke_device (device_id : Text)
  | create_terminal (project_id device_id : Text) (target_summary : TargetSummary)
      (expires_seconds : ℤ)
  | authenticate_terminal (terminal_id : TerminalId) (terminal_token : Token)
      (resume_cursor : Option ℤ)
  | record_input (terminal_id : TerminalId) (terminal_token : Token) (sequence : ℤ)
  | record_output (terminal_id : TerminalId) (terminal_token : Token) (sequence : ℤ)
  | mark_disconnected (terminal_id : TerminalId) (terminal_token : Token)
  | close_terminal (terminal_id : TerminalId) (terminal_token : Token)
  | revoke_host_terminals (device_id client_session_id : Text)
  deriving DecidableEq

def refusal (message : String) (status_code : ℕ) (reason : String) : CallFailure :=
  .refused ⟨message, status_code, reason⟩

namespace PairingStore

variable (s : PairingStore) (now : ℕ)

/-- `now + timedelta(seconds=max(1, int(expires_seconds)))`. -/
def expiry (expires_seconds : ℤ) : ℕ := now + (max 1 expires_seconds).toNat

/-- `create_pairing_payload`. -/
def create_pairing (project_id gateway_url route_provider : Text) (scopes : List Text)
    (expires_seconds : Option ℤ) (reusable_claims : Bool) : Outcome :=
  { accesses := [.append_pairing
      { pairing_id := s.drawn
        project_id := project_id
        token_hash := s.drawn
        scopes := scopes
        route_provider := route_provider
        gateway_url := gateway_url
        expires_at := expires_seconds.map (expiry now)
        reusable_claims := reusable_claims
        claimed_at := none
        claimed_by_device_id := none
        revoked_at := none
        revoked_reason := [] }]
    returns := .ok [] }

def revoke_pairing (pairing_id : PairingId) (reason : Text) : Outcome :=
  match s.pairing_state_by_id with
  | .error e => { accesses := [], returns := .error e }
  | .ok pairings =>
    match pairings.find? fun record => record.pairing_id = pairing_id with
    | none => { accesses := [], returns := .ok [] }
    | some record =>
      if record.revoked_at.isSome then { accesses := [], returns := .ok [] }
      else
        { accesses := [.append_pairing
            { record with revoked_at := some now, revoked_reason := reason }]
          returns := .ok [] }

/-- The record that `claim_pairing` claims. -/
def claimable (pairings : List PairingRecord) (pairing_code : Token) :
    Except CallFailure PairingRecord := do
  let record ← valueOr (pairings.find? fun record => record.token_hash = pairing_code)
    (refusal "invalid pairing_code" 401 "invalid_code")
  refuseIf record.revoked_at.isSome (refusal "pairing_code revoked" 410 "revoked")
  refuseIf (!record.reusable_claims && record.claimed)
    (refusal "pairing_code already claimed" 409 "already_claimed")
  refuseIf (record.expires_at.any fun expires_at => now > expires_at)
    (refusal "pairing_code expired" 410 "expired")
  return record

def claim_pairing (pairing_code : Token) (device_id : Text) : Outcome :=
  match s.pairing_state_by_id with
  | .error e => { accesses := [], returns := .error e }
  | .ok pairings =>
    match claimable now pairings pairing_code with
    | .error e => { accesses := [], returns := .error e }
    | .ok record =>
      match device_id_free s.devices device_id with
      | .error e => { accesses := [], returns := .error (.refused e) }
      | .ok _ =>
        { accesses :=
            [.write_devices (claimed s.devices device_id s.drawn record.scopes),
              .append_pairing { record with
                claimed_at := some now
                claimed_by_device_id := some device_id }]
          returns := .ok [.claimed pairing_code s.drawn record.reusable_claims] }

def authenticate_device (device_token : Token) (required_scopes : List Text) : Outcome :=
  match authenticated s.devices device_token required_scopes now with
  | .error e => { accesses := [], returns := .error (.refused e) }
  | .ok (_, devices) => { accesses := [.write_devices devices], returns := .ok [] }

def revoke_terminals (selected : TerminalRecord → Bool) : List Access × List Event :=
  let records := s.terminal_state_by_id.filter selected
  (.read_terminals :: (records.filter fun record => !record.ended).map fun record =>
      .append_terminal (record.revoke now),
    records.map fun record => .ended record.terminal_id)

/-- `_revoke_device_record`. -/
def revoke_device (device_id : Text) : Outcome :=
  match revoked s.devices device_id now with
  | .error e => { accesses := [], returns := .error (.refused e) }
  | .ok (_, devices) =>
    let (accesses, events) := s.revoke_terminals now fun record => record.device_id = device_id
    { accesses := .write_devices devices :: accesses, returns := .ok events }

/-- `revoke_host_terminal_handles`. -/
def revoke_host_terminals (device_id client_session_id : Text) : Outcome :=
  if device_id = [] ∨ client_session_id = [] then
    { accesses := []
      returns := .error (refusal "host terminal device and client session are required" 400
        "invalid_host_terminal_target") }
  else
    let (accesses, events) := s.revoke_terminals now fun record =>
      record.device_id = device_id ∧ record.project_id = asciiText "@host" ∧
      record.target_summary.kind = asciiText "host_shell" ∧
      record.target_summary.client_session_id = client_session_id
    { accesses := accesses, returns := .ok events }

/-- `create_terminal_handle`. -/
def create_terminal (project_id device_id : Text) (target_summary : TargetSummary)
    (expires_seconds : ℤ) : Outcome :=
  { accesses := [.append_terminal
      { terminal_id := s.drawn
        project_id := project_id
        device_id := device_id
        token_hash := s.drawn
        expires_at := expiry now expires_seconds
        target_summary := target_summary
        last_input_seq := 0
        last_output_seq := 0
        disconnected_at := none
        closed_at := none
        revoked_at := none }]
    returns := .ok [] }

/-- The record of a terminal whose token is given. -/
def terminal_record (terminal_id : TerminalId) (terminal_token : Token) :
    Except CallFailure TerminalRecord := do
  let record ← valueOr (s.terminal_state_by_id.find? fun record => record.terminal_id = terminal_id)
    (refusal "invalid terminal token" 401 "invalid_token")
  refuseIf (record.token_hash ≠ terminal_token)
    (refusal "invalid terminal token" 401 "invalid_token")
  return record

def validate_terminal_record (record : TerminalRecord) : Except CallFailure Unit := do
  refuseIf record.revoked_at.isSome (refusal "terminal token revoked" 401 "revoked")
  refuseIf (s.is_device_revoked record.device_id)
    (refusal "terminal device revoked" 401 "device_revoked")
  refuseIf record.closed_at.isSome (refusal "terminal already closed" 410 "closed")
  refuseIf (now > record.expires_at) (refusal "terminal token expired" 410 "expired")

/-- `_validate_resume_cursor`, with the record that it appends. -/
def validate_resume_cursor (record : TerminalRecord) (resume_cursor : Option ℤ) :
    Except CallFailure (Option TerminalRecord) := do
  match resume_cursor with
  | none =>
    refuseIf record.disconnected_at.isSome
      (refusal "resume_cursor is required after terminal disconnect" 409 "missing_resume_cursor")
    return none
  | some cursor =>
    refuseIf (cursor > record.last_output_seq)
      (refusal "terminal resume cursor is stale" 409 "stale_resume_cursor")
    return some { record with disconnected_at := none }

/-- What a call makes of the record of its terminal, and what it returns then. -/
abbrev TerminalChange := Except CallFailure (Option TerminalRecord × List Event)

/-- A call that reads the record of a terminal first. -/
def on_terminal (terminal_id : TerminalId) (terminal_token : Token)
    (change : TerminalRecord → TerminalChange) : Outcome :=
  match s.terminal_record terminal_id terminal_token >>= change with
  | .error e => { accesses := [.read_terminals], returns := .error e }
  | .ok (updated, events) =>
    { accesses := .read_terminals :: updated.toList.map .append_terminal, returns := .ok events }

/-- `authenticate_terminal_token`. -/
def authenticated_terminal (resume_cursor : Option ℤ) (record : TerminalRecord) :
    TerminalChange := do
  s.validate_terminal_record now record
  let updated ← validate_resume_cursor record resume_cursor
  return (updated, [.authenticated record.terminal_id])

/-- `record_terminal_input_sequence`. -/
def recorded_input (sequence : ℤ) (record : TerminalRecord) : TerminalChange := do
  s.validate_terminal_record now record
  refuseIf (sequence ≤ record.last_input_seq)
    (refusal "terminal input sequence replayed" 409 "replayed_sequence")
  return (some { record with last_input_seq := sequence }, [.input record.terminal_id sequence])

/-- `record_terminal_output_sequence`. -/
def recorded_output (sequence : ℤ) (record : TerminalRecord) : TerminalChange := do
  s.validate_terminal_record now record
  if sequence ≤ record.last_output_seq then return (none, [.output record.terminal_id])
  else return (some { record with last_output_seq := sequence }, [.output record.terminal_id])

/-- `mark_terminal_disconnected`. -/
def disconnected (record : TerminalRecord) : TerminalChange := do
  s.validate_terminal_record now record
  return (some { record with disconnected_at := some now }, [])

/-- `close_terminal_handle`. -/
def closed (record : TerminalRecord) : TerminalChange :=
  if record.closed_at.isSome then .ok (none, [.ended record.terminal_id])
  else .ok (some { record with closed_at := some now }, [.ended record.terminal_id])

def outcome : StoreRequest → Outcome
  | .create_pairing project_id gateway_url route_provider scopes expires_seconds reusable_claims =>
    s.create_pairing now project_id gateway_url route_provider scopes expires_seconds
      reusable_claims
  | .revoke_pairing pairing_id reason => s.revoke_pairing now pairing_id reason
  | .claim_pairing pairing_code device_id => s.claim_pairing now pairing_code device_id
  | .authenticate_device device_token required_scopes =>
    s.authenticate_device now device_token required_scopes
  | .revoke_device device_id => s.revoke_device now device_id
  | .create_terminal project_id device_id target_summary expires_seconds =>
    s.create_terminal now project_id device_id target_summary expires_seconds
  | .authenticate_terminal terminal_id terminal_token resume_cursor =>
    s.on_terminal terminal_id terminal_token (s.authenticated_terminal now resume_cursor)
  | .record_input terminal_id terminal_token sequence =>
    s.on_terminal terminal_id terminal_token (s.recorded_input now sequence)
  | .record_output terminal_id terminal_token sequence =>
    s.on_terminal terminal_id terminal_token (s.recorded_output now sequence)
  | .mark_disconnected terminal_id terminal_token =>
    s.on_terminal terminal_id terminal_token (s.disconnected now)
  | .close_terminal terminal_id terminal_token =>
    s.on_terminal terminal_id terminal_token (closed now)
  | .revoke_host_terminals device_id client_session_id =>
    s.revoke_host_terminals now device_id client_session_id

end PairingStore

inductive StoreStep where
  | call (moment : Moment) (request : StoreRequest)
  /-- The process stops in a call, after some accesses, and starts again. -/
  | stop (moment : Moment) (request : StoreRequest) (done : ℕ) (torn : Torn)

namespace PairingStore

variable (lengths : LineLengths)

def perform (moment : Moment) (accesses : List Access) (s : PairingStore) : PairingStore :=
  accesses.foldl (access lengths moment) s

def return_call (s : PairingStore) (returns : Except CallFailure (List Event)) : PairingStore :=
  match returns with
  | .error _ => { s with drawn := s.drawn + 1 }
  | .ok events => { s with drawn := s.drawn + 1, events := s.events ++ events }

/-- A new process, whose store has no cache. -/
def restart (s : PairingStore) : PairingStore := { s with drawn := s.drawn + 1, cache := none }

/-- The access that a stop comes in the middle of. -/
def tear_next (moment : Moment) (torn : Torn) (next : Option Access) (s : PairingStore) :
    PairingStore :=
  match next with
  | none => s
  | some next => s.tear lengths moment torn next

def step (s : PairingStore) : StoreStep → PairingStore
  | .call moment request =>
    let outcome := s.outcome moment.now request
    (s.perform lengths moment outcome.accesses).return_call outcome.returns
  | .stop moment request done torn =>
    let outcome := s.outcome moment.now request
    ((s.perform lengths moment (outcome.accesses.take done)).tear_next lengths moment torn
      outcome.accesses[done]?).restart

def run (steps : List StoreStep) (s : PairingStore) : PairingStore :=
  steps.foldl (step lengths) s

end PairingStore

end ClaudeCodeBridge.Model.Pairing
