import ClaudeCodeBridge.Model.RelayAdmission
import ClaudeCodeBridge.Model.RelayService

/-!
# Sessions and their reservations

`lib/mobile_gateway/relay_service.py` once more: hosts that connect and reconnect, phones
that open sessions with them, and what a session leaves in the admission database and in
the replay store.  A handler's state is the point at which it awaits; what it does from
there to the next such point is one step.  A body of `async with self._lock` awaits
nothing, and neither do the calls of the two stores, so each is within a step.

The frames that an open session forwards are the business of `Model.RelayService`.  A
close comes from a handler of either side, from a drain or from a host that disconnects;
what it does to the session is the same, so it is a step of its own.
-/

set_option autoImplicit false

namespace ClaudeCodeBridge.Model.Relay

open Program

/-- `RelayRendezvousCapability`, or `RelayPhoneSessionProof` with its access grant. -/
structure PhoneAuthorization where
  access_grant : Option Text
  host_id : Text
  session_id : Text
  client_pubkey_b64 : Text
  phone_nonce_b64 : Text
  audience : Text
  nonce_b64 : Text
  issued_at : ℤ
  expires_at : ℤ
  signature_b64 : Text
  deriving DecidableEq

/-- The frame that opens a session: `from_json` has stripped its session id. -/
structure ClientHello where
  session_id : Text
  stripped : strip session_id = session_id
  host_id : Text
  client_pubkey_b64 : Text
  phone_nonce_b64 : Text
  authorization : Option PhoneAuthorization
  deriving DecidableEq

/-- What the library and the configuration decide. -/
structure RendezvousPolicy where
  public_origin : Text
  /-- The signatures under a host's public key, of a proof also its access grant's. -/
  signature_ok : PhoneAuthorization → Text → Bool
  /-- `replay_key`, hashed. -/
  claim_hash : PhoneAuthorization → Text

variable (policy : RendezvousPolicy)

/-- `verify` of either kind of authorization. -/
def verify_authorization (now : Seconds) (hello : ClientHello) (host_public_key_b64 : Text)
    (authorization : PhoneAuthorization) : Except MobileRelayError PhoneAuthorization := do
  refuseIf (authorization.expires_at ≤ now ∨ authorization.issued_at > now + 30
      ∨ authorization.access_grant.isSome = true
        ∧ authorization.expires_at - authorization.issued_at > 120)
    (.relay "relay phone authorization rejected")
  refuseIf (authorization.host_id ≠ hello.host_id ∨ authorization.session_id ≠ hello.session_id)
    (.relay "relay phone authorization rejected")
  refuseIf (authorization.client_pubkey_b64 ≠ hello.client_pubkey_b64
      ∨ authorization.phone_nonce_b64 ≠ hello.phone_nonce_b64)
    (.relay "relay phone authorization rejected")
  refuseIf (authorization.audience ≠ policy.public_origin)
    (.relay "relay phone authorization rejected")
  refuseIf (¬ policy.signature_ok authorization host_public_key_b64)
    (.relay "relay phone authorization rejected")
  return authorization

def host_public_key_for_rendezvous (db : AdmissionDatabase) (host_id : Text) :
    Except RelayAdmissionError Text := do
  let row ← require_active_host_row (db.host host_id)
  return row.host_public_key_b64

def verify_phone_authorization (db : AdmissionDatabase) (now : Seconds) (hello : ClientHello) :
    Except MobileRelayError PhoneAuthorization :=
  match host_public_key_for_rendezvous db hello.host_id with
  | .error _ => .error .admission
  | .ok host_public_key_b64 => do
    let authorization ← valueOr hello.authorization (.relay "relay rendezvous capability required")
    verify_authorization policy now hello host_public_key_b64 authorization

structure RendezvousClaim where
  claim_hash : Text
  host_id : Text
  claimed_at : ℤ
  expires_at : ℤ
  deriving DecidableEq

/-- `_RendezvousReplayStore.claim`; the deletion is not committed when the insertion fails. -/
def claim_rendezvous (now : Seconds) (authorization : PhoneAuthorization) (host_id : Text)
    (claims : List RendezvousClaim) : Except MobileRelayError (List RendezvousClaim) :=
  let live := claims.filter fun row => ¬ row.expires_at ≤ (now : ℤ)
  valueOr (Table.insert (fun row : RendezvousClaim => row.claim_hash)
    { claim_hash := policy.claim_hash authorization
      host_id := host_id
      claimed_at := now
      expires_at := authorization.expires_at } live)
    (.relay "relay rendezvous capability replay rejected")

abbrev EndpointId := ℕ

/-- A `_RelaySessionState`, as far as its reservation goes. -/
structure LiveSession where
  session_id : Text
  host_id : Text
  host : EndpointId
  phone : ConnectionId
  closed : Bool
  deriving DecidableEq

/-- Where a phone's handler awaits. -/
inductive PhonePoint where
  | absent
  | connected
  /-- Before the first lock of `_open_phone_session`. -/
  | looking (hello : ClientHello) (authorization : PhoneAuthorization)
  /-- Before its second lock: the session is reserved and the authorization claimed. -/
  | reserved (hello : ClientHello) (authorization : PhoneAuthorization) (host : EndpointId)
  | serving (session_id : Text)
  | ended
  deriving DecidableEq

/-- Where a host's handler awaits. -/
inductive HostPoint where
  | absent
  | connected
  /-- Before the lock of `_register_host`. -/
  | verified (host_id : Text)
  | serving (host_id : Text)
  | ended
  deriving DecidableEq

/-- A session that was opened, and the endpoint that was registered for its host then. -/
structure Opening where
  authorization : PhoneAuthorization
  session : LiveSession
  registered : Option EndpointId

structure ReservationService where
  db : AdmissionDatabase
  claims : List RendezvousClaim
  draining : Bool
  /-- `_hosts`. -/
  hosts : Text → Option EndpointId
  closed : EndpointId → Bool
  /-- The values of `_sessions`, which is keyed by their session ids. -/
  sessions : List LiveSession
  sessions_by_host : Text → List Text
  phone : ConnectionId → PhonePoint
  host : EndpointId → HostPoint
  opened : List Opening

namespace ReservationService

variable (secrets : AdmissionSecrets)

/-- A service that has started on the two stores. -/
def start (db : AdmissionDatabase) (claims : List RendezvousClaim) (opened : List Opening) :
    ReservationService :=
  { db := db
    claims := claims
    draining := false
    hosts := fun _ => none
    closed := fun _ => false
    sessions := []
    sessions_by_host := fun _ => []
    phone := fun _ => .absent
    host := fun _ => .absent
    opened := opened }

def set_phone (r : ReservationService) (c : ConnectionId) (point : PhonePoint) :
    ReservationService := { r with phone := Function.update r.phone c point }

def set_host (r : ReservationService) (e : EndpointId) (point : HostPoint) :
    ReservationService := { r with host := Function.update r.host e point }

/-- `session_id in self._sessions`. -/
def has_session (r : ReservationService) (session_id : Text) : Bool :=
  r.sessions.any fun s => s.session_id = session_id

/-- `_release_reserved_session`, which passes over the errors of the store. -/
def release_reserved_session (r : ReservationService) (now : Seconds) (host_id session_id : Text) :
    ReservationService :=
  match r.db.release_host_session now host_id session_id with
  | .error _ => r
  | .ok (_, db) => { r with db := db }

/-- `_open_phone_session` from its first lock to its second. -/
def reserve_session (r : ReservationService) (now : Seconds) (c : ConnectionId)
    (hello : ClientHello) (authorization : PhoneAuthorization) : ReservationService :=
  match r.hosts hello.host_id with
  | none => r.set_phone c .ended
  | some host =>
    if r.closed host || r.has_session hello.session_id then r.set_phone c .ended
    else
      match r.db.reserve_host_session now hello.host_id hello.session_id with
      | .error _ => r.set_phone c .ended
      | .ok (true, db) => { r with db := db }.set_phone c .ended
      | .ok (false, db) =>
        let r := { r with db := db }
        match claim_rendezvous policy now authorization hello.host_id r.claims with
        | .error _ =>
          (r.release_reserved_session now hello.host_id hello.session_id).set_phone c .ended
        | .ok claims => { r with claims := claims }.set_phone c (.reserved hello authorization host)

/-- `_open_phone_session` from its second lock on. -/
def commit_session (r : ReservationService) (now : Seconds) (c : ConnectionId)
    (hello : ClientHello) (authorization : PhoneAuthorization) (host : EndpointId) :
    ReservationService :=
  if r.hosts hello.host_id ≠ some host || r.closed host || r.has_session hello.session_id then
    (r.release_reserved_session now hello.host_id hello.session_id).set_phone c .ended
  else
    let session : LiveSession :=
      { session_id := hello.session_id
        host_id := hello.host_id
        host := host
        phone := c
        closed := false }
    let opening : Opening :=
      { authorization := authorization
        session := session
        registered := r.hosts hello.host_id }
    let r := { r with
      sessions := r.sessions ++ [session]
      sessions_by_host := Function.update r.sessions_by_host hello.host_id
        (r.sessions_by_host hello.host_id ++ [hello.session_id])
      opened := r.opened ++ [opening] }
    r.set_phone c (.serving hello.session_id)

/-- `_close_session`, to the end of its release. -/
def close_session (r : ReservationService) (now : Seconds) (session_id : Text) :
    ReservationService :=
  match r.sessions.find? fun s => s.session_id = session_id with
  | none => r
  | some session =>
    let r := { r with sessions := r.sessions.filter fun s => s.session_id ≠ session_id }
    if session.closed then r
    else
      let r := { r with
        sessions_by_host := Function.update r.sessions_by_host session.host_id
          ((r.sessions_by_host session.host_id).filter (· ≠ session_id)) }
      r.release_reserved_session now session.host_id session.session_id

/-- A step of a phone's handler. -/
def phone_turn (r : ReservationService) (now : Seconds) (c : ConnectionId) : ReservationService :=
  match r.phone c with
  | .looking hello authorization => r.reserve_session policy now c hello authorization
  | .reserved hello authorization host => r.commit_session now c hello authorization host
  | .serving session_id => (r.close_session now session_id).set_phone c .ended
  | _ => r

/-- The handler of a phone is cancelled where it awaits. -/
def cancel_phone (r : ReservationService) (now : Seconds) (c : ConnectionId) : ReservationService :=
  match r.phone c with
  | .absent => r
  | .reserved hello _ _ =>
    (r.release_reserved_session now hello.host_id hello.session_id).set_phone c .ended
  | .serving session_id => (r.close_session now session_id).set_phone c .ended
  | _ => r.set_phone c .ended

/-- The first frame of a phone. -/
def phone_hello (r : ReservationService) (now : Seconds) (c : ConnectionId) (hello : ClientHello) :
    ReservationService :=
  match r.phone c with
  | .connected =>
    match verify_phone_authorization policy r.db now hello with
    | .error _ => r.set_phone c .ended
    | .ok authorization => r.set_phone c (.looking hello authorization)
  | _ => r

/-- `_register_host` under the lock; the handler of a host that leaves takes it out. -/
def host_turn (r : ReservationService) (e : EndpointId) : ReservationService :=
  match r.host e with
  | .verified host_id =>
    if (r.hosts host_id).isSome then r.set_host e .ended
    else { r with hosts := Function.update r.hosts host_id (some e) }.set_host e (.serving host_id)
  | .serving host_id =>
    { r with hosts := Function.update r.hosts host_id none }.set_host e .ended
  | _ => r

/-- What an operator and the service itself ask of the admission store besides. -/
inductive OperatorCall where
  | issue_invitation (ttl_seconds max_sessions max_bytes_per_day : ℤ)
      (token secret : UrlSafeToken)
  | claim_invitation (invitation host_public_key_b64 : Text) (token : UrlSafeToken)
  | revoke_invitation (invite_id : Text)
  | expire_due_invitations
  | revoke_host (host_id : Text)
  | record_host_bytes (host_id : Text) (byte_count : ℤ)
  deriving DecidableEq

def OperatorCall.call : OperatorCall → AdmissionCall
  | issue_invitation ttl max_sessions max_bytes token secret =>
    .issue_invitation ttl max_sessions max_bytes token secret
  | claim_invitation invitation key token => .claim_invitation invitation key token
  | revoke_invitation invite_id => .revoke_invitation invite_id
  | expire_due_invitations => .expire_due_invitations
  | revoke_host host_id => .revoke_host host_id
  | record_host_bytes host_id byte_count => .record_host_bytes host_id byte_count

inductive ServiceStep where
  | phone_connects (c : ConnectionId)
  | phone_hello (c : ConnectionId) (hello : ClientHello)
  | phone_turn (c : ConnectionId)
  | cancel_phone (c : ConnectionId)
  | host_connects (e : EndpointId)
  /-- `issue_session_capability` and `verify_session_capability` have accepted it. -/
  | host_verified (e : EndpointId) (host_id : Text)
  | host_turn (e : EndpointId)
  | close_endpoint (e : EndpointId)
  | close_session (session_id : Text)
  | drain
  /-- The process ends, in whatever state, and another one starts on its stores. -/
  | restart
  | operator (call : OperatorCall)

def step (r : ReservationService) (s : Seconds × ServiceStep) : ReservationService :=
  let now := s.1
  match s.2 with
  | .phone_connects c =>
    if r.phone c = .absent ∧ ¬ r.draining then r.set_phone c .connected else r
  | .phone_hello c hello => r.phone_hello policy now c hello
  | .phone_turn c => r.phone_turn policy now c
  | .cancel_phone c => r.cancel_phone now c
  | .host_connects e =>
    if r.host e = .absent ∧ ¬ r.draining then r.set_host e .connected else r
  | .host_verified e host_id =>
    if r.host e = .connected then r.set_host e (.verified host_id) else r
  | .host_turn e => r.host_turn e
  | .close_endpoint e => { r with closed := Function.update r.closed e true }
  | .close_session session_id => r.close_session now session_id
  | .drain => { r with draining := true }
  | .restart => start (r.db.reconcile_active_sessions now).2 r.claims r.opened
  | .operator call =>
    { r with db := (AdmissionLedger.step secrets ⟨r.db, []⟩ (now, call.call)).db }

def run (steps : List (Seconds × ServiceStep)) (r : ReservationService) : ReservationService :=
  steps.foldl (step policy secrets) r

end ReservationService

end ClaudeCodeBridge.Model.Relay
