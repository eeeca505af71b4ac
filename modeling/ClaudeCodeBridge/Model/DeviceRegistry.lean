import ClaudeCodeBridge.Model.RelayCrypto
import ClaudeCodeBridge.Program.Outcomes

/-!
# Paired devices

`lib/mobile_gateway/pairing.py`: the devices file and the calls that read and replace it,
from any number of `MobileGatewayPairingStore`s on one directory.  A step is a read or a
replacement of the whole file, or the taking of a store's lock, which keeps out the other
threads of that store only.  A lock that nothing waits for any more is given back within
the step that ends its block.

Tokens are numbered in the order in which they are drawn; the hash of one is taken to be
the token.  What a claim reads of the pairing log comes with it, and the presence, the
terminals and the push token that a revoked device loses are left out.
-/

set_option autoImplicit false

namespace ClaudeCodeBridge.Model.Pairing

open Program

/-- `MobileGatewayPairingError`. -/
structure PairingError where
  message : String
  status_code : ℕ
  reason : String
  deriving DecidableEq

abbrev Token := ℕ

structure DeviceRecord where
  device_id : Text
  token_hash : Token
  scopes : List Text
  last_seen_at : Option ℕ
  revoked_at : Option ℕ
  deriving DecidableEq

/-- The first element that satisfies `p`, replaced. -/
def updateFirst {α : Type} (p : α → Bool) (f : α → α) : List α → List α
  | [] => []
  | x :: xs => if p x then f x :: xs else x :: updateFirst p f xs

/-- `authenticate_device` between its read and its write. -/
def authenticated (devices : List DeviceRecord) (token : Token) (required_scopes : List Text)
    (now : ℕ) : Except PairingError (DeviceRecord × List DeviceRecord) := do
  let record ← valueOr (devices.find? fun record => record.token_hash = token)
    ⟨"invalid device token", 401, "invalid_token"⟩
  refuseIf record.revoked_at.isSome ⟨"device token revoked", 401, "revoked"⟩
  refuseIf (required_scopes.any fun scope => scope ∉ record.scopes)
    ⟨"device scope denied", 403, "missing_scope"⟩
  let seen := fun record : DeviceRecord => { record with last_seen_at := some now }
  return (seen record, updateFirst (fun record => record.token_hash = token) seen devices)

/-- `_revoke_device_record` between its read and its write. -/
def revoked (devices : List DeviceRecord) (device_id : Text) (now : ℕ) :
    Except PairingError (DeviceRecord × List DeviceRecord) := do
  let record ← valueOr (devices.find? fun record => record.device_id = device_id)
    ⟨"device not found", 404, "not_found"⟩
  let revoke := fun record : DeviceRecord =>
    { record with revoked_at := some (record.revoked_at.getD now) }
  return (revoke record, updateFirst (fun record => record.device_id = device_id) revoke devices)

/-- The check of `claim_pairing` that the device's id is free. -/
def device_id_free (devices : List DeviceRecord) (device_id : Text) : Except PairingError Unit :=
  refuseIf (devices.any fun record => record.device_id = device_id ∧ record.revoked_at.isNone)
    ⟨"device_id already exists", 409, "device_id_exists"⟩

/-- The devices that `claim_pairing` writes. -/
def claimed (devices : List DeviceRecord) (device_id : Text) (token : Token) (scopes : List Text) :
    List DeviceRecord :=
  (devices.filter fun record => record.device_id ≠ device_id) ++ [{
    device_id := device_id
    token_hash := token
    scopes := scopes
    last_seen_at := none
    revoked_at := none }]

abbrev ThreadId := ℕ

abbrev StoreId := ℕ

inductive StoreCall where
  | authenticate_device (token : Token) (required_scopes : List Text)
  | revoke_device (device_id : Text) (token : Token)
  | revoke_device_locally (device_id : Text)
  /-- With the scopes of the pairing, when its code can be claimed, and the device's id. -/
  | claim_pairing (scopes : Option (List Text)) (device_id : Text)
  deriving DecidableEq

/-- A call of `authenticate_device`, and the device that the caller wants to revoke then. -/
structure Authentication where
  token : Token
  required_scopes : List Text
  revokes : Option Text
  /-- A revocation of the token's device had returned before the call. -/
  late : Bool
  deriving DecidableEq

/-- The devices as they were read, and whose revocation had been written by then. -/
structure DeviceRead where
  devices : List DeviceRecord
  revoked_tokens : List Token
  deriving DecidableEq

/-- Where a thread's call is: before its store's lock, before a read, and before the write
of the devices it has made of those that it read. -/
inductive CallPoint where
  | idle
  | authenticating (call : Authentication)
  | authenticating_read (call : Authentication)
  | authenticating_write (call : Authentication) (read : DeviceRead) (record : DeviceRecord)
      (devices : List DeviceRecord)
  | revoking (device_id : Text)
  | revoking_read (device_id : Text)
  | revoking_write (read : DeviceRead) (record : DeviceRecord) (devices : List DeviceRecord)
  | claiming (scopes : Option (List Text)) (device_id : Text)
  /-- Before the first of two reads; the token is drawn. -/
  | claiming_check (scopes : List Text) (device_id : Text) (token : Token)
  | claiming_read (scopes : List Text) (device_id : Text) (token : Token)
  | claiming_write (read : DeviceRead) (device_id : Text) (token : Token)
      (devices : List DeviceRecord)

structure Registry where
  devices : List DeviceRecord
  /-- How many tokens have been drawn. -/
  drawn : ℕ
  locks : StoreId → Option ThreadId
  thread : ThreadId → CallPoint
  /-- The tokens of the devices that calls have revoked. -/
  revoked_tokens : List Token
  /-- The successful authentications, with whether they began after a revocation. -/
  accepted : List (Token × Bool)

namespace Registry

def empty : Registry :=
  { devices := []
    drawn := 0
    locks := fun _ => none
    thread := fun _ => .idle
    revoked_tokens := []
    accepted := [] }

def goto (r : Registry) (i : ThreadId) (point : CallPoint) : Registry :=
  { r with thread := Function.update r.thread i point }

-- the store whose call a thread makes
variable (store_of : ThreadId → StoreId)

def read (r : Registry) : DeviceRead :=
  { devices := r.devices, revoked_tokens := r.revoked_tokens }

/-- The lock of the thread's store is free, and taken. -/
def lock (r : Registry) (i : ThreadId) (point : CallPoint) : Registry :=
  match r.locks (store_of i) with
  | some _ => r
  | none => { r with locks := Function.update r.locks (store_of i) (some i) }.goto i point

/-- The block of the lock ends. -/
def unlock (r : Registry) (i : ThreadId) (point : CallPoint) : Registry :=
  { r with locks := Function.update r.locks (store_of i) none }.goto i point

def begin_call (r : Registry) (i : ThreadId) (call : StoreCall) : Registry :=
  match call with
  | .authenticate_device token required_scopes =>
    r.goto i (.authenticating ⟨token, required_scopes, none, token ∈ r.revoked_tokens⟩)
  | .revoke_device device_id token =>
    r.goto i (.authenticating ⟨token, [], some device_id, token ∈ r.revoked_tokens⟩)
  | .revoke_device_locally device_id => r.goto i (.revoking device_id)
  | .claim_pairing scopes device_id => r.goto i (.claiming scopes device_id)

/-- The next step of a thread's call. -/
def turn (r : Registry) (now : ℕ) (i : ThreadId) : Registry :=
  match r.thread i with
  | .idle => r
  | .authenticating call => r.lock store_of i (.authenticating_read call)
  | .authenticating_read call =>
    match authenticated r.devices call.token call.required_scopes now with
    | .error _ => r.unlock store_of i .idle
    | .ok (record, devices) => r.goto i (.authenticating_write call r.read record devices)
  | .authenticating_write call _ record devices =>
    let r := { r with devices := devices, accepted := r.accepted ++ [(call.token, call.late)] }
    match call.revokes with
    | none => r.unlock store_of i .idle
    | some device_id =>
      r.unlock store_of i (if record.device_id = device_id then .revoking device_id else .idle)
  | .revoking device_id => r.lock store_of i (.revoking_read device_id)
  | .revoking_read device_id =>
    match revoked r.devices device_id now with
    | .error _ => r.unlock store_of i .idle
    | .ok (record, devices) => r.goto i (.revoking_write r.read record devices)
  | .revoking_write _ record devices =>
    { r with devices := devices, revoked_tokens := r.revoked_tokens ++ [record.token_hash] }.unlock
      store_of i .idle
  | .claiming scopes device_id =>
    match scopes with
    | none => r.goto i .idle
    | some scopes =>
      match r.locks (store_of i) with
      | some _ => r
      | none =>
        { r with drawn := r.drawn + 1 }.lock store_of i (.claiming_check scopes device_id r.drawn)
  | .claiming_check scopes device_id token =>
    match device_id_free r.devices device_id with
    | .error _ => r.unlock store_of i .idle
    | .ok _ => r.goto i (.claiming_read scopes device_id token)
  | .claiming_read scopes device_id token =>
    r.goto i (.claiming_write r.read device_id token (claimed r.devices device_id token scopes))
  | .claiming_write _ _ _ devices => { r with devices := devices }.unlock store_of i .idle

inductive RegistryStep where
  | call (i : ThreadId) (call : StoreCall)
  | turn (now : ℕ) (i : ThreadId)

def step (r : Registry) : RegistryStep → Registry
  | .call i call =>
    match r.thread i with
    | .idle => r.begin_call i call
    | _ => r
  | .turn now i => r.turn store_of now i

def run (steps : List RegistryStep) (r : Registry) : Registry := steps.foldl (step store_of) r

end Registry

end ClaudeCodeBridge.Model.Pairing
