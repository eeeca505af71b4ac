import ClaudeCodeBridge.Program.Outcomes
import ClaudeCodeBridge.Program.Table
import ClaudeCodeBridge.Model.RelayCrypto

/-!
# Relay admission

`lib/mobile_gateway/relay_admission.py`: invitations, hosts and their sessions in one
database.  Every operation is a transaction: a function of the database that fails, and
then leaves it as it was, or gives the database it commits.

The clock reads whole seconds since the epoch, which has passed.  The random parts of an
operation (`secrets`) are its arguments; the verifier of an invitation and the reading of
a public key are parameters.  The audit table, which nothing reads back, and labels are
left out.
-/

set_option autoImplicit false

namespace ClaudeCodeBridge.Model.Relay

open Program

/-- Seconds since the epoch. -/
abbrev Seconds := { t : ℤ // 0 < t }

inductive InvitationState where
  | unused | consumed | expired | revoked
  deriving DecidableEq

inductive HostState where
  | active | revoked
  deriving DecidableEq

inductive SessionState where
  | active | released
  deriving DecidableEq

structure Quota where
  max_sessions : ℤ
  max_bytes_per_day : ℤ
  deriving DecidableEq

structure RelayInvitation where
  invite_id : Text
  verifier_b64 : Text
  state : InvitationState
  issued_at : ℤ
  expires_at : ℤ
  consumed_at : Option ℤ
  revoked_at : Option ℤ
  host_id : Option Text
  quota : Quota
  updated_at : ℤ
  deriving DecidableEq

structure RelayHost where
  host_id : Text
  invitation_id : Text
  host_public_key_b64 : Text
  host_public_key_sha256 : Text
  state : HostState
  issued_at : ℤ
  revoked_at : Option ℤ
  quota : Quota
  active_sessions : ℤ
  bytes_used : ℤ
  bytes_window_started_at : ℤ
  updated_at : ℤ
  deriving DecidableEq

structure RelayHostSession where
  session_id : Text
  host_id : Text
  state : SessionState
  reserved_at : ℤ
  released_at : Option ℤ
  deriving DecidableEq

structure AdmissionDatabase where
  invitations : List RelayInvitation
  hosts : List RelayHost
  sessions : List RelayHostSession
  deriving DecidableEq

namespace AdmissionDatabase

def empty : AdmissionDatabase := { invitations := [], hosts := [], sessions := [] }

/-- `SELECT * FROM relay_invitations WHERE invite_id = ?`. -/
def invitation (db : AdmissionDatabase) (invite_id : Text) : Option RelayInvitation :=
  Table.select (fun row : RelayInvitation => row.invite_id) invite_id db.invitations

/-- `SELECT * FROM relay_hosts WHERE host_id = ?`. -/
def host (db : AdmissionDatabase) (host_id : Text) : Option RelayHost :=
  Table.select (fun row : RelayHost => row.host_id) host_id db.hosts

/-- `SELECT * FROM relay_host_sessions WHERE session_id = ?`. -/
def session (db : AdmissionDatabase) (session_id : Text) : Option RelayHostSession :=
  Table.select (fun row : RelayHostSession => row.session_id) session_id db.sessions

end AdmissionDatabase

inductive RelayAdmissionError where
  | admission (text : String)
  /-- `sqlite3.IntegrityError`. -/
  | integrity
  deriving DecidableEq

def quota_window_seconds : ℤ := 24 * 60 * 60
def invitation_prefix : Text := asciiText "ccb-relay-inv-v2"

/-- `_required_text`. -/
def admission_text (value : Text) (name : String) : Except RelayAdmissionError Text :=
  let text := strip value
  if text = [] then .error (.admission s!"relay field is required: {name}") else .ok text

/-- `_quota`. -/
def quota_of (max_sessions max_bytes_per_day : ℤ) : Except RelayAdmissionError Quota := do
  refuseIf (max_sessions ≤ 0) (.admission "relay max_sessions must be positive")
  refuseIf (max_bytes_per_day ≤ 0) (.admission "relay max_bytes_per_day must be positive")
  return { max_sessions := max_sessions, max_bytes_per_day := max_bytes_per_day }

def quota_limit (value : ℤ) (name : String) : Except RelayAdmissionError ℤ :=
  if value ≤ 0 then .error (.admission s!"relay quota limit invalid: {name}") else .ok value

/-- What the library and the secrets decide. -/
structure AdmissionSecrets where
  /-- `_verifier`. -/
  verifier : Text → Text
  /-- `_decode_ed25519_public_key`, whether it succeeds. -/
  public_key_ok : Text → Bool
  /-- `_sha256_b64` of a decoded key. -/
  public_key_sha256 : Text → Text

/-- A character of `secrets.token_urlsafe`. -/
def isUrlSafe (c : Fin 0x110000) : Bool :=
  let n := c.val
  (48 ≤ n && n ≤ 57) || (65 ≤ n && n ≤ 90) || (97 ≤ n && n ≤ 122) || n = 45 || n = 95

/-- What `secrets.token_urlsafe` gives. -/
abbrev UrlSafeToken := { token : Text // token.all isUrlSafe = true }

def host_id_of (token : UrlSafeToken) : Text := asciiText "rhost_" ++ token.val

/-- The id of an invitation. -/
def invite_id_of (token : UrlSafeToken) : Text := asciiText "rinv_" ++ token.val

def dot : Fin 0x110000 := Fin.ofNat 0x110000 46

/-- `text.split('.')`. -/
def split_dots (text : Text) : List Text := text.splitOn dot

def invite_id_from_secret (invitation : Text) : Except RelayAdmissionError Text :=
  match split_dots (strip invitation) with
  | [start, invite_id, secret] =>
    if start ≠ invitation_prefix ∨ invite_id = [] ∨ secret = [] then
      .error (.admission "relay invitation is not claimable")
    else .ok invite_id
  | _ => .error (.admission "relay invitation is not claimable")

def require_active_host_row (row : Option RelayHost) : Except RelayAdmissionError RelayHost := do
  let row ← valueOr row (.admission "relay host not found")
  refuseIf (row.state ≠ .active) (.admission "relay host is not active")
  return row

namespace AdmissionDatabase

variable (secrets : AdmissionSecrets) (now : Seconds)

/-- `issue_invitation`; its result is the invitation. -/
def issue_invitation (ttl_seconds max_sessions max_bytes_per_day : ℤ)
    (token secret : UrlSafeToken) (db : AdmissionDatabase) :
    Except RelayAdmissionError (Text × AdmissionDatabase) := do
  refuseIf (ttl_seconds ≤ 0) (.admission "relay invitation ttl must be positive")
  let quota ← quota_of max_sessions max_bytes_per_day
  let invite_id := invite_id_of token
  let invitation := invitation_prefix ++ [dot] ++ invite_id ++ [dot] ++ secret.val
  let verifier := secrets.verifier invitation
  refuseIf (verifier ∈ db.invitations.map fun row => row.verifier_b64) .integrity
  let invitations ← valueOr (Table.insert (fun row : RelayInvitation => row.invite_id)
    { invite_id := invite_id
      verifier_b64 := verifier
      state := .unused
      issued_at := now
      expires_at := now + ttl_seconds
      consumed_at := none
      revoked_at := none
      host_id := none
      quota := quota
      updated_at := now } db.invitations) .integrity
  return (invitation, { db with invitations := invitations })

/-- The host that `claim_invitation` inserts. -/
def claimed_host (invitation : RelayInvitation) (host_id host_public_key_b64 : Text) : RelayHost :=
  { host_id := host_id
    invitation_id := invitation.invite_id
    host_public_key_b64 := host_public_key_b64
    host_public_key_sha256 := secrets.public_key_sha256 host_public_key_b64
    state := .active
    issued_at := now
    revoked_at := none
    quota := invitation.quota
    active_sessions := 0
    bytes_used := 0
    bytes_window_started_at := now
    updated_at := now }

/-- `claim_invitation`; its result is the host. -/
def claim_invitation (invitation host_public_key_b64 : Text) (token : UrlSafeToken)
    (db : AdmissionDatabase) : Except RelayAdmissionError (RelayHost × AdmissionDatabase) := do
  let invite_id ← invite_id_from_secret invitation
  refuseIf (¬ secrets.public_key_ok host_public_key_b64)
    (.admission "relay host public key must be Ed25519 raw public key")
  let row ← valueOr (db.invitation invite_id) (.admission "relay invitation is not claimable")
  refuseIf (row.verifier_b64 ≠ secrets.verifier invitation)
    (.admission "relay invitation is not claimable")
  -- of an invitation that is due the update to `expired` is rolled back with this error
  refuseIf (row.state = .unused ∧ row.expires_at ≤ now)
    (.admission "relay invitation is not claimable")
  refuseIf (row.state ≠ .unused) (.admission "relay invitation is not claimable")
  let host_id := host_id_of token
  let host := claimed_host secrets now row host_id host_public_key_b64
  let hosts ← valueOr (Table.insert (fun row : RelayHost => row.host_id) host db.hosts) .integrity
  let unused := fun row : RelayInvitation => row.invite_id = invite_id && row.state = .unused
  refuseIf (db.invitations.countP unused ≠ 1) (.admission "relay invitation is not claimable")
  let invitations := Table.update unused
    (fun row => { row with
      state := .consumed, consumed_at := some now, host_id := some host_id, updated_at := now })
    db.invitations
  return (host, { db with invitations := invitations, hosts := hosts })

/-- `revoke_invitation`; its result is the invitation. -/
def revoke_invitation (invite_id : Text) (db : AdmissionDatabase) :
    Except RelayAdmissionError (RelayInvitation × AdmissionDatabase) :=
  match db.invitation invite_id with
  | none => .error (.admission "relay invitation not found")
  | some row =>
    if row.state = .unused then
      let invitations := Table.update
        (fun row => row.invite_id = invite_id && row.state = .unused)
        (fun row => { row with state := .revoked, revoked_at := some now, updated_at := now })
        db.invitations
      let db := { db with invitations := invitations }
      .ok ((db.invitation invite_id).getD row, db)
    else .ok (row, db)

/-- The invitations that `expire_due_invitations` selects. -/
def due_invitations (db : AdmissionDatabase) : List RelayInvitation :=
  db.invitations.filter fun row => row.state = .unused && row.expires_at ≤ now

/-- One update of `executemany`. -/
def expire_invitation (db : AdmissionDatabase) (invite_id : Text) : AdmissionDatabase :=
  { db with
    invitations := Table.update
      (fun row => row.invite_id = invite_id && row.state = .unused)
      (fun row => { row with state := .expired, updated_at := now }) db.invitations }

/-- `expire_due_invitations`; its result is their number. -/
def expire_due_invitations (db : AdmissionDatabase) : ℕ × AdmissionDatabase :=
  let rows := db.due_invitations now
  (rows.length, (rows.map fun row => row.invite_id).foldl (expire_invitation now) db)

/-- `revoke_host`; its result is the host. -/
def revoke_host (host_id : Text) (db : AdmissionDatabase) :
    Except RelayAdmissionError (RelayHost × AdmissionDatabase) :=
  match db.host host_id with
  | none => .error (.admission "relay host not found")
  | some row =>
    if row.state = .active then
      let hosts := Table.update (fun row => row.host_id = host_id && row.state = .active)
        (fun row => { row with
          state := .revoked, revoked_at := some now, active_sessions := 0, updated_at := now })
        db.hosts
      let sessions := Table.update (fun row => row.host_id = host_id && row.state = .active)
        (fun row => { row with state := .released, released_at := some now }) db.sessions
      let db := { db with hosts := hosts, sessions := sessions }
      .ok ((db.host host_id).getD row, db)
    else .ok (row, db)

/-- `reserve_host_session`; its result is `idempotent`. -/
def reserve_host_session (host_id session_id : Text) (db : AdmissionDatabase) :
    Except RelayAdmissionError (Bool × AdmissionDatabase) := do
  let host_id ← admission_text host_id "host_id"
  let session_id ← admission_text session_id "session_id"
  let host ← require_active_host_row (db.host host_id)
  match db.session session_id with
  | some existing =>
    refuseIf (¬ (existing.host_id = host_id ∧ existing.state = .active))
      (.admission "relay host session identity conflict")
    return (true, db)
  | none =>
    let max_sessions ← quota_limit host.quota.max_sessions "max_sessions"
    refuseIf (host.active_sessions ≥ max_sessions) (.admission "relay host session quota exceeded")
    let sessions ← valueOr (Table.insert (fun row : RelayHostSession => row.session_id)
      { session_id := session_id
        host_id := host_id
        state := .active
        reserved_at := now
        released_at := none } db.sessions) .integrity
    let hosts := Table.update (fun row => row.host_id = host_id && row.state = .active)
      (fun row => { row with active_sessions := row.active_sessions + 1, updated_at := now })
      db.hosts
    return (false, { db with hosts := hosts, sessions := sessions })

def release_host_session (host_id session_id : Text) (db : AdmissionDatabase) :
    Except RelayAdmissionError (Unit × AdmissionDatabase) := do
  let host_id ← admission_text host_id "host_id"
  let session_id ← admission_text session_id "session_id"
  let _ ← require_active_host_row (db.host host_id)
  let session ← valueOr (db.session session_id) (.admission "relay host session not found")
  refuseIf (session.host_id ≠ host_id) (.admission "relay host session not found")
  if session.state = .active then
    let sessions := Table.update (fun row => row.session_id = session_id && row.state = .active)
      (fun row => { row with state := .released, released_at := some now }) db.sessions
    let hosts := Table.update (fun row => row.host_id = host_id && row.state = .active)
      (fun row => { row with
        active_sessions := if row.active_sessions > 0 then row.active_sessions - 1 else 0
        updated_at := now })
      db.hosts
    return ((), { db with hosts := hosts, sessions := sessions })
  else return ((), db)

/-- `reconcile_active_sessions`; its result is the number of sessions released. -/
def reconcile_active_sessions (db : AdmissionDatabase) : ℕ × AdmissionDatabase :=
  let released := db.sessions.countP fun row => row.state = .active
  if released = 0 then (0, db)
  else
    let sessions := Table.update (fun row => row.state = .active)
      (fun row => { row with state := .released, released_at := some now }) db.sessions
    let hosts := Table.update (fun row => row.active_sessions ≠ 0)
      (fun row => { row with active_sessions := 0, updated_at := now }) db.hosts
    (released, { db with hosts := hosts, sessions := sessions })

/-- The start of the byte window and the bytes used in it, before more are recorded. -/
def byte_window (host : RelayHost) : ℤ × ℤ :=
  if host.bytes_window_started_at ≤ 0 ∨
      now - host.bytes_window_started_at ≥ quota_window_seconds then (now, 0)
  else (host.bytes_window_started_at, host.bytes_used)

def record_host_bytes (host_id : Text) (byte_count : ℤ) (db : AdmissionDatabase) :
    Except RelayAdmissionError (Unit × AdmissionDatabase) := do
  let host_id ← admission_text host_id "host_id"
  refuseIf (byte_count < 0) (.admission "relay host byte count must be non-negative")
  let host ← require_active_host_row (db.host host_id)
  let max_bytes ← quota_limit host.quota.max_bytes_per_day "max_bytes_per_day"
  let window := byte_window now host
  let new_total := window.2 + byte_count
  refuseIf (new_total > max_bytes) (.admission "relay host byte quota exceeded")
  let hosts := Table.update (fun row => row.host_id = host_id && row.state = .active)
    (fun row => { row with
      bytes_used := new_total, bytes_window_started_at := window.1, updated_at := now })
    db.hosts
  return ((), { db with hosts := hosts })

end AdmissionDatabase

/-- Bytes that were accepted, with the start of the byte window they were put in. -/
structure AcceptedBytes where
  host_id : Text
  at_seconds : Seconds
  byte_count : ℤ
  window_started_at : ℤ
  deriving DecidableEq

/-- A call of the store, with the random parts of it. -/
inductive AdmissionCall where
  | issue_invitation (ttl_seconds max_sessions max_bytes_per_day : ℤ)
      (token secret : UrlSafeToken)
  | claim_invitation (invitation host_public_key_b64 : Text) (token : UrlSafeToken)
  | revoke_invitation (invite_id : Text)
  | expire_due_invitations
  | revoke_host (host_id : Text)
  | reserve_host_session (host_id session_id : Text)
  | release_host_session (host_id session_id : Text)
  | reconcile_active_sessions
  | record_host_bytes (host_id : Text) (byte_count : ℤ)

structure AdmissionLedger where
  db : AdmissionDatabase
  accepted : List AcceptedBytes
  deriving DecidableEq

namespace AdmissionLedger

def empty : AdmissionLedger := { db := .empty, accepted := [] }

/-- The ledger after a transaction, which is rolled back when it fails. -/
def commit {α : Type} (l : AdmissionLedger)
    (outcome : Except RelayAdmissionError (α × AdmissionDatabase)) : AdmissionLedger :=
  match outcome with
  | .error _ => l
  | .ok (_, db) => { l with db := db }

/-- The note of bytes that `record_host_bytes` accepts. -/
def accept (l : AdmissionLedger) (now : Seconds) (host_id : Text) (byte_count : ℤ) :
    AdmissionLedger :=
  match l.db.record_host_bytes now host_id byte_count with
  | .error _ => l
  | .ok (_, db) =>
    match db.host (strip host_id) with
    | none => { l with db := db }
    | some host =>
      { db := db
        accepted := l.accepted ++ [{
          host_id := host.host_id
          at_seconds := now
          byte_count := byte_count
          window_started_at := host.bytes_window_started_at }] }

variable (secrets : AdmissionSecrets)

def step (l : AdmissionLedger) (call : Seconds × AdmissionCall) : AdmissionLedger :=
  let now := call.1
  match call.2 with
  | .issue_invitation ttl max_sessions max_bytes token secret =>
    l.commit (l.db.issue_invitation secrets now ttl max_sessions max_bytes token secret)
  | .claim_invitation invitation key token =>
    l.commit (l.db.claim_invitation secrets now invitation key token)
  | .revoke_invitation invite_id => l.commit (l.db.revoke_invitation now invite_id)
  | .expire_due_invitations => l.commit (.ok (l.db.expire_due_invitations now))
  | .revoke_host host_id => l.commit (l.db.revoke_host now host_id)
  | .reserve_host_session host_id session_id =>
    l.commit (l.db.reserve_host_session now host_id session_id)
  | .release_host_session host_id session_id =>
    l.commit (l.db.release_host_session now host_id session_id)
  | .reconcile_active_sessions => l.commit (.ok (l.db.reconcile_active_sessions now))
  | .record_host_bytes host_id byte_count => l.accept now host_id byte_count

def run (calls : List (Seconds × AdmissionCall)) (l : AdmissionLedger) : AdmissionLedger :=
  calls.foldl (step secrets) l

end AdmissionLedger

end ClaudeCodeBridge.Model.Relay
