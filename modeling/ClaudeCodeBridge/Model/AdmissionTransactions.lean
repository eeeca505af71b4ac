import ClaudeCodeBridge.Program.Transactions
import ClaudeCodeBridge.Model.RelayAdmission

/-!
# Transactions of relay admission

`lib/mobile_gateway/relay_admission.py` again, with the table `relay_audit` and with what
`_transaction` does when its body raises.  The bodies are executed statement by statement; what
a call returns of a row that it has written is left out.

A call reads the clock once for itself and once for each audit record.  Whether the proof of a
capability is accepted is a parameter of the call.
-/

set_option autoImplicit false

namespace ClaudeCodeBridge.Model.Relay

open Program

inductive AuditEvent where
  | invite_issued | invite_expired | invite_revoked | invite_consumed | host_credential_issued
  | host_revoked | host_session_quota_rejected | host_session_reserved | host_session_released
  | host_sessions_reconciled | host_byte_quota_rejected | host_session_capability_issued
  deriving DecidableEq

inductive AuditSubject where
  | invite | host
  deriving DecidableEq

/-- The columns `detail_json` are written from. -/
inductive AuditDetail where
  | nothing
  | issued (label : Text) (quota : Quota)
  | host_id (host_id : Text)
  | invitation_id (invitation_id : Text)
  | session_id (session_id : Text)
  | limit (limit : ℤ)
  | reason (reason : Text)
  | reconciled (count : ℕ) (reason : Text)
  | scopes (scopes : List Text)
  deriving DecidableEq

structure AuditRecord where
  event : AuditEvent
  subject_type : AuditSubject
  subject_id : Text
  recorded_at : ℤ
  detail : AuditDetail
  deriving DecidableEq

structure AuditedDatabase where
  db : AdmissionDatabase
  relay_audit : List AuditRecord
  deriving DecidableEq

abbrev AdmissionBody := Statements RelayAdmissionError AuditedDatabase

def redacted_text (value : Text) : Text := (strip value).take 80

/-- The clock readings of a call. -/
abbrev Clock := ℕ → Seconds

/-- `_audit`, at a reading of the clock. -/
def audit (recorded_at : Seconds) (event : AuditEvent) (subject_type : AuditSubject)
    (subject_id : Text) (detail : AuditDetail) : AdmissionBody Unit :=
  Statements.write fun s => { s with
    relay_audit := s.relay_audit ++ [{
      event := event
      subject_type := subject_type
      subject_id := subject_id
      recorded_at := recorded_at
      detail := detail }] }

/-- `conn.execute`, of an update. -/
def execute (update : AdmissionDatabase → AdmissionDatabase) : AdmissionBody Unit :=
  Statements.write fun s => { s with db := update s.db }

/-- `conn.execute`, of a query. -/
def query {α : Type} (select : AdmissionDatabase → α) : AdmissionBody α :=
  Statements.select fun s => select s.db

def not_claimable : RelayAdmissionError := .admission "relay invitation is not claimable"

section Bodies

variable (secrets : AdmissionSecrets) (clock : Clock)

/-- `_audit` for each of some rows, at the readings of the clock that follow the first. -/
def audit_rows {α : Type} (rows : List α) (record : α → Seconds → AuditRecord) :
    AdmissionBody Unit :=
  Statements.write fun s => { s with
    relay_audit := s.relay_audit ++ rows.mapIdx fun i row => record row (clock (i + 1)) }

/-- The body of `issue_invitation`, which inserts the row. -/
def issue_body (row : RelayInvitation) (label : Text) : AdmissionBody Unit := do
  let verifiers ← query fun db => db.invitations.map fun row => row.verifier_b64
  Statements.check (refuseIf (row.verifier_b64 ∈ verifiers) .integrity)
  let invitations ← query fun db =>
    Table.insert (fun row : RelayInvitation => row.invite_id) row db.invitations
  let invitations ← Statements.check (valueOr invitations .integrity)
  execute fun db => { db with invitations := invitations }
  audit (clock 1) .invite_issued .invite row.invite_id (.issued (redacted_text label) row.quota)

/-- `INSERT INTO relay_hosts`. -/
def insert_host (host : RelayHost) : AdmissionBody Unit := do
  let hosts ← query fun db => Table.insert (fun row : RelayHost => row.host_id) host db.hosts
  let hosts ← Statements.check (valueOr hosts .integrity)
  execute fun db => { db with hosts := hosts }

def refuse_due (invite_id : Text) (row : RelayInvitation) : AdmissionBody Unit :=
  if row.state = .unused ∧ row.expires_at ≤ clock 0 then do
    execute fun db => db.expire_invitation (clock 0) invite_id
    audit (clock 1) .invite_expired .invite invite_id .nothing
    Statements.raise not_claimable
  else pure ()

def unused (invite_id : Text) (row : RelayInvitation) : Bool :=
  row.invite_id = invite_id && row.state = .unused

/-- The body of `claim_invitation`. -/
def claim_body (invitation host_public_key_b64 invite_id : Text) (token : UrlSafeToken) :
    AdmissionBody RelayHost := do
  let row ← query fun db => db.invitation invite_id
  let row ← Statements.check (valueOr row not_claimable)
  Statements.check (refuseIf (row.verifier_b64 ≠ secrets.verifier invitation) not_claimable)
  refuse_due clock invite_id row
  Statements.check (refuseIf (row.state ≠ .unused) not_claimable)
  let host_id := host_id_of token
  let host := AdmissionDatabase.claimed_host secrets (clock 0) row host_id host_public_key_b64
  insert_host host
  let updated ← query fun db => db.invitations.countP (unused invite_id)
  execute fun db => { db with
    invitations := Table.update (unused invite_id)
      (fun row => { row with
        state := .consumed, consumed_at := some (clock 0), host_id := some host_id
        updated_at := clock 0 })
      db.invitations }
  Statements.check (refuseIf (updated ≠ 1) not_claimable)
  audit (clock 1) .invite_consumed .invite invite_id (.host_id host_id)
  audit (clock 2) .host_credential_issued .host host_id (.invitation_id invite_id)
  return host

/-- The body of `revoke_invitation`. -/
def revoke_invitation_body (invite_id reason : Text) : AdmissionBody Unit := do
  let row ← query fun db => db.invitation invite_id
  let row ← Statements.check (valueOr row (.admission "relay invitation not found"))
  if row.state = .unused then do
    execute fun db => { db with
      invitations := Table.update (unused invite_id)
        (fun row => { row with
          state := .revoked, revoked_at := some (clock 0), updated_at := clock 0 })
        db.invitations }
    audit (clock 1) .invite_revoked .invite invite_id (.reason (redacted_text reason))
  else pure ()

/-- The body of `expire_due_invitations`. -/
def expire_body : AdmissionBody Unit := do
  let rows ← query fun db => db.due_invitations (clock 0)
  if rows ≠ [] then do
    execute fun db =>
      (rows.map fun row => row.invite_id).foldl (AdmissionDatabase.expire_invitation (clock 0)) db
    audit_rows clock rows fun row recorded_at =>
      { event := .invite_expired
        subject_type := .invite
        subject_id := row.invite_id
        recorded_at := recorded_at
        detail := .nothing }
  else pure ()

/-- The body of `revoke_host`. -/
def revoke_host_body (host_id reason : Text) : AdmissionBody Unit := do
  let row ← query fun db => db.host host_id
  let row ← Statements.check (valueOr row (.admission "relay host not found"))
  if row.state = .active then do
    execute fun db => { db with
      hosts := Table.update (fun row => row.host_id = host_id && row.state = .active)
        (fun row => { row with
          state := .revoked, revoked_at := some (clock 0), active_sessions := 0
          updated_at := clock 0 })
        db.hosts }
    execute fun db => { db with
      sessions := Table.update (fun row => row.host_id = host_id && row.state = .active)
        (fun row => { row with state := .released, released_at := some (clock 0) }) db.sessions }
    audit (clock 1) .host_revoked .host host_id (.reason (redacted_text reason))
  else pure ()

/-- A host with as many sessions as its quota allows is refused, with an audit record. -/
def refuse_sessions (host_id : Text) (host : RelayHost) (max_sessions : ℤ) : AdmissionBody Unit :=
  if host.active_sessions ≥ max_sessions then do
    audit (clock 1) .host_session_quota_rejected .host host_id (.limit max_sessions)
    Statements.raise (.admission "relay host session quota exceeded")
  else pure ()

def reserve_new (host_id : Text) (host : RelayHost) (session_id : Text) : AdmissionBody Bool := do
  let max_sessions ← Statements.check (quota_limit host.quota.max_sessions "max_sessions")
  refuse_sessions clock host_id host max_sessions
  let sessions ← query fun db => Table.insert (fun row : RelayHostSession => row.session_id)
    { session_id := session_id
      host_id := host_id
      state := .active
      reserved_at := clock 0
      released_at := none } db.sessions
  let sessions ← Statements.check (valueOr sessions .integrity)
  execute fun db => { db with
    sessions := sessions
    hosts := Table.update (fun row => row.host_id = host_id && row.state = .active)
      (fun row => { row with
        active_sessions := row.active_sessions + 1, updated_at := clock 0 })
      db.hosts }
  audit (clock 1) .host_session_reserved .host host_id (.session_id session_id)
  return false

/-- The body of `reserve_host_session`. -/
def reserve_body (host_id session_id : Text) : AdmissionBody Bool := do
  let row ← query fun db => db.host host_id
  let host ← Statements.check (require_active_host_row row)
  let existing ← query fun db => db.session session_id
  match existing with
  | some existing =>
    Statements.check (refuseIf (¬ (existing.host_id = host_id ∧ existing.state = .active))
      (.admission "relay host session identity conflict"))
    return true
  | none => reserve_new clock host_id host session_id

/-- The body of `release_host_session`. -/
def release_body (host_id session_id : Text) : AdmissionBody Unit := do
  let row ← query fun db => db.host host_id
  let _ ← Statements.check (require_active_host_row row)
  let session ← query fun db => db.session session_id
  let session ← Statements.check
    (valueOr session (.admission "relay host session not found"))
  Statements.check
    (refuseIf (session.host_id ≠ host_id) (.admission "relay host session not found"))
  if session.state = .active then do
    execute fun db => { db with
      sessions := Table.update (fun row => row.session_id = session_id && row.state = .active)
        (fun row => { row with state := .released, released_at := some (clock 0) }) db.sessions }
    execute fun db => { db with
      hosts := Table.update (fun row => row.host_id = host_id && row.state = .active)
        (fun row => { row with
          active_sessions := if row.active_sessions > 0 then row.active_sessions - 1 else 0
          updated_at := clock 0 })
        db.hosts }
    audit (clock 1) .host_session_released .host host_id (.session_id session_id)
  else pure ()

def active_hosts (db : AdmissionDatabase) : List Text :=
  ((db.sessions.filter fun row => row.state = .active).map fun row => row.host_id).dedup

/-- The body of `reconcile_active_sessions`. -/
def reconcile_body (reason : Text) : AdmissionBody Unit := do
  let rows ← query fun db => (active_hosts db).map fun host_id =>
    (host_id, db.sessions.countP fun row => row.host_id = host_id && row.state = .active)
  if rows = [] then pure ()
  else do
    execute fun db => { db with
      sessions := Table.update (fun row => row.state = .active)
        (fun row => { row with state := .released, released_at := some (clock 0) }) db.sessions }
    execute fun db => { db with
      hosts := Table.update (fun row => row.active_sessions ≠ 0)
        (fun row => { row with active_sessions := 0, updated_at := clock 0 }) db.hosts }
    audit_rows clock rows fun row recorded_at =>
      { event := .host_sessions_reconciled
        subject_type := .host
        subject_id := row.1
        recorded_at := recorded_at
        detail := .reconciled row.2 (redacted_text reason) }

def refuse_bytes (host_id : Text) (new_total max_bytes : ℤ) : AdmissionBody Unit :=
  if new_total > max_bytes then do
    audit (clock 1) .host_byte_quota_rejected .host host_id (.limit max_bytes)
    Statements.raise (.admission "relay host byte quota exceeded")
  else pure ()

/-- The body of `record_host_bytes`. -/
def bytes_body (host_id : Text) (byte_count : ℤ) : AdmissionBody Unit := do
  let row ← query fun db => db.host host_id
  let host ← Statements.check (require_active_host_row row)
  let max_bytes ← Statements.check (quota_limit host.quota.max_bytes_per_day "max_bytes_per_day")
  let window := AdmissionDatabase.byte_window (clock 0) host
  let new_total := window.2 + byte_count
  refuse_bytes clock host_id new_total max_bytes
  execute fun db => { db with
    hosts := Table.update (fun row => row.host_id = host_id && row.state = .active)
      (fun row => { row with
        bytes_used := new_total, bytes_window_started_at := window.1, updated_at := clock 0 })
      db.hosts }

end Bodies

/-- A call, with its random parts. -/
inductive AuditedCall where
  | issue_invitation (ttl_seconds max_sessions max_bytes_per_day : ℤ) (label : Text)
      (token secret : UrlSafeToken)
  | claim_invitation (invitation host_public_key_b64 : Text) (token : UrlSafeToken)
  | revoke_invitation (invite_id reason : Text)
  | expire_due_invitations
  | revoke_host (host_id reason : Text)
  | reserve_host_session (host_id session_id : Text)
  | release_host_session (host_id session_id : Text)
  | reconcile_active_sessions (reason : Text)
  | record_host_bytes (host_id : Text) (byte_count : ℤ)
  | issue_session_capability (host_id : Text) (ttl_seconds proof_expires_at : ℤ)
      (proof_accepted : Bool) (scopes : List Text)

/-- `issue_session_capability`, up to its token. -/
def AdmissionDatabase.issue_session_capability (now : Seconds) (host_id : Text)
    (ttl_seconds proof_expires_at : ℤ) (proof_accepted : Bool) (db : AdmissionDatabase) :
    Except RelayAdmissionError (Unit × AdmissionDatabase) := do
  refuseIf (ttl_seconds ≤ 0) (.admission "relay session ttl must be positive")
  refuseIf (proof_expires_at < now) (.admission "relay host proof expired")
  let host ← valueOr (db.host host_id) (.admission "relay host not found")
  refuseIf (host.state ≠ .active) (.admission "relay host is not active")
  refuseIf (¬ proof_accepted) (.admission "relay host proof rejected")
  return ((), db)

section Calls

variable (secrets : AdmissionSecrets) (clock : Clock)

def capability_scopes (scopes : List Text) : List Text :=
  (((scopes.map strip).filter fun scope => scope ≠ []).dedup).mergeSort fun a b => a ≤ b

namespace AuditedCall

/-- A call of the store. -/
def run : AuditedCall → AdmissionBody Unit
  | .issue_invitation ttl_seconds max_sessions max_bytes_per_day label token secret => do
    Statements.check
      (refuseIf (ttl_seconds ≤ 0) (.admission "relay invitation ttl must be positive"))
    let quota ← Statements.check (quota_of max_sessions max_bytes_per_day)
    let invite_id := invite_id_of token
    let invitation := invitation_prefix ++ [dot] ++ invite_id ++ [dot] ++ secret.val
    transaction (issue_body clock
      { invite_id := invite_id
        verifier_b64 := secrets.verifier invitation
        state := .unused
        issued_at := clock 0
        expires_at := clock 0 + ttl_seconds
        consumed_at := none
        revoked_at := none
        host_id := none
        quota := quota
        updated_at := clock 0 } label)
  | .claim_invitation invitation host_public_key_b64 token => do
    let invite_id ← Statements.check (invite_id_from_secret invitation)
    Statements.check (refuseIf (¬ secrets.public_key_ok host_public_key_b64)
      (.admission "relay host public key must be Ed25519 raw public key"))
    let _ ← transaction (claim_body secrets clock invitation host_public_key_b64 invite_id token)
    return ()
  | .revoke_invitation invite_id reason =>
    transaction (revoke_invitation_body clock invite_id reason)
  | .expire_due_invitations => transaction (expire_body clock)
  | .revoke_host host_id reason => transaction (revoke_host_body clock host_id reason)
  | .reserve_host_session host_id session_id => do
    let host_id ← Statements.check (admission_text host_id "host_id")
    let session_id ← Statements.check (admission_text session_id "session_id")
    let _ ← transaction (reserve_body clock host_id session_id)
    return ()
  | .release_host_session host_id session_id => do
    let host_id ← Statements.check (admission_text host_id "host_id")
    let session_id ← Statements.check (admission_text session_id "session_id")
    transaction (release_body clock host_id session_id)
  | .reconcile_active_sessions reason => transaction (reconcile_body clock reason)
  | .record_host_bytes host_id byte_count => do
    let host_id ← Statements.check (admission_text host_id "host_id")
    Statements.check (refuseIf (byte_count < 0)
      (.admission "relay host byte count must be non-negative"))
    transaction (bytes_body clock host_id byte_count)
  | .issue_session_capability host_id ttl_seconds proof_expires_at proof_accepted scopes => do
    Statements.check (refuseIf (ttl_seconds ≤ 0) (.admission "relay session ttl must be positive"))
    Statements.check
      (refuseIf (proof_expires_at < clock 0) (.admission "relay host proof expired"))
    let host ← query fun db => db.host host_id
    let host ← Statements.check (valueOr host (.admission "relay host not found"))
    Statements.check (refuseIf (host.state ≠ .active) (.admission "relay host is not active"))
    Statements.check (refuseIf (¬ proof_accepted) (.admission "relay host proof rejected"))
    transaction (audit (clock 1) .host_session_capability_issued .host host_id
      (.scopes (capability_scopes scopes)))

end AuditedCall

end Calls

end ClaudeCodeBridge.Model.Relay
