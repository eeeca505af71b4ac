import ClaudeCodeBridge.Program.Dict
import ClaudeCodeBridge.Program.JsonText

/-!
# The relay's sealed channel

`lib/mobile_gateway/relay_crypto.py`: envelopes, the key schedule's two sessions, and
`seal`, `open` and `close`.  Texts are Python texts, so that they may hold surrogates.
Base64 and the reading of integers from texts are parameters: nothing here rests on them.

The cipher is ideal.  `Encryption` records what was encrypted under which key, nonce and
associated data, and `decrypt` finds nothing but such records; the ciphertexts themselves
are whatever the parameter `encrypt` makes of them.  A `Channel` is a phone session and a
host session of one key schedule with a network between them that delivers any envelope
to anyone at any time.
-/

set_option autoImplicit false

namespace ClaudeCodeBridge.Model.Relay

open Program

def relay_protocol_version : ℤ := 2
def relay_key_id : Text := asciiText "ccb-relay-v2-session"
def relay_max_sequence : ℕ := 2 ^ 64 - 1

inductive RelayCryptoError where
  | relay (text : String)
  /-- `relay v2 envelope contains non-envelope fields: <field>`. -/
  | non_envelope_field (field : Text)
  /-- An exception of the cipher itself. -/
  | cipher
  deriving DecidableEq

/-- A JSON value; of a number or a container the code reads `str`, `bool` and `int`. -/
inductive JsonValue where
  | null
  | text (value : Text)
  | other (shown : Text) (truthy : Bool) (int : Option ℤ)
  deriving DecidableEq

/-- What the standard library does with texts and bytes. -/
structure Encodings where
  b64 : Bytes → Text
  b64decode : Text → Option Bytes
  int_of_text : Text → Option ℤ

def isSpace (c : Fin 0x110000) : Bool :=
  let n := c.val
  (9 ≤ n && n ≤ 13) || (28 ≤ n && n ≤ 32) || n = 0x85 || n = 0xA0 || n = 0x1680
    || (0x2000 ≤ n && n ≤ 0x200A) || n = 0x2028 || n = 0x2029 || n = 0x202F || n = 0x205F
    || n = 0x3000

def strip (text : Text) : Text :=
  ((text.dropWhile isSpace).reverse.dropWhile isSpace).reverse

theorem strip_eq_self {text : Text} (h : ∀ c ∈ text, isSpace c = false) : strip text = text := by
  have hdrop : ∀ {l : Text}, (∀ c ∈ l, isSpace c = false) → l.dropWhile isSpace = l := by
    intro l hl
    cases l with
    | nil => rfl
    | cons c l =>
      rw [List.dropWhile_cons, hl c List.mem_cons_self]
      rfl
  unfold strip
  rw [hdrop h, hdrop (fun c hc => h c (List.mem_reverse.mp hc)), List.reverse_reverse]

/-- `str(value or '')`. -/
def strOrEmpty : JsonValue → Text
  | .null => []
  | .text value => value
  | .other shown truthy _ => if truthy then shown else []

def required_text (value : JsonValue) (name : String) : Except RelayCryptoError Text :=
  let text := strip (strOrEmpty value)
  if text = [] then .error (.relay s!"relay v2 field is required: {name}") else .ok text

variable (encodings : Encodings)

def b64decode (text : Text) : Except RelayCryptoError Bytes :=
  match encodings.b64decode (strip text) with
  | some bytes => .ok bytes
  | none => .error (.relay "relay v2 field must be base64url")

def required_base64_text (value : JsonValue) (name : String) : Except RelayCryptoError Text := do
  let text ← required_text value name
  let _ ← b64decode encodings text
  return text

/-- `int(value)`. -/
def intOf : JsonValue → Option ℤ
  | .null => none
  | .text value => encodings.int_of_text value
  | .other _ _ int => int

def sequence_int (value : JsonValue) (name : String) : Except RelayCryptoError ℤ :=
  match intOf encodings value with
  | none => .error (.relay s!"relay v2 field must be positive integer: {name}")
  | some parsed =>
    if parsed < 1 then .error (.relay s!"relay v2 field must be positive integer: {name}")
    else if parsed > relay_max_sequence then
      .error (.relay s!"relay v2 sequence exceeds uint64: {name}")
    else .ok parsed

inductive RelayDirection where
  | phone_to_host | host_to_phone
  deriving DecidableEq

def RelayDirection.value : RelayDirection → Text
  | phone_to_host => asciiText "phone_to_host"
  | host_to_phone => asciiText "host_to_phone"

structure RelayV2Envelope where
  session_id : Text
  seq : ℤ
  direction : RelayDirection
  op : Text
  nonce_b64 : Text
  ciphertext_b64 : Text
  key_id : Text
  schema_version : ℤ
  deriving DecidableEq

def relay_clear_envelope_fields : List Text :=
  ["schema_version", "session_id", "seq", "direction", "op", "nonce_b64", "ciphertext_b64",
    "key_id"].map asciiText

def valueOf (payload : Dict Text JsonValue) (key : String) : JsonValue :=
  (payload.get (asciiText key)).getD .null

/-- `_direction`. -/
def direction_of (value : JsonValue) : Except RelayCryptoError RelayDirection := do
  let text ← required_text value "direction"
  if text = RelayDirection.phone_to_host.value then return .phone_to_host
  else if text = RelayDirection.host_to_phone.value then return .host_to_phone
  else throw (.relay "relay v2 direction invalid")

def JsonValue.ofInt (n : ℤ) : JsonValue := .other [] (n ≠ 0) (some n)

def RelayV2Envelope.validate (envelope : RelayV2Envelope) : Except RelayCryptoError Unit := do
  if envelope.schema_version ≠ relay_protocol_version then
    throw (.relay "relay v2 envelope schema_version mismatch")
  let _ ← required_text (.text envelope.session_id) "session_id"
  let _ ← sequence_int encodings (.ofInt envelope.seq) "seq"
  let _ ← required_text (.text envelope.op) "op"
  let _ ← required_base64_text encodings (.text envelope.nonce_b64) "nonce_b64"
  let _ ← required_base64_text encodings (.text envelope.ciphertext_b64) "ciphertext_b64"
  if envelope.key_id ≠ relay_key_id then
    throw (.relay "relay v2 envelope key_id mismatch")

def RelayV2Envelope.to_json (envelope : RelayV2Envelope) :
    Except RelayCryptoError (Dict Text JsonValue) := do
  envelope.validate encodings
  return ⟨[(asciiText "schema_version", .ofInt envelope.schema_version),
    (asciiText "session_id", .text envelope.session_id),
    (asciiText "seq", .ofInt envelope.seq),
    (asciiText "direction", .text envelope.direction.value),
    (asciiText "op", .text envelope.op),
    (asciiText "nonce_b64", .text envelope.nonce_b64),
    (asciiText "ciphertext_b64", .text envelope.ciphertext_b64),
    (asciiText "key_id", .text envelope.key_id)], show relay_clear_envelope_fields.Nodup by decide⟩

/-- The first of some texts by code points, as `sorted` puts it. -/
def firstText (first : Text) (rest : List Text) : Text :=
  rest.foldl (fun least text => if text < least then text else least) first

def RelayV2Envelope.from_json (payload : Dict Text JsonValue) :
    Except RelayCryptoError RelayV2Envelope := do
  match (payload.items.map Prod.fst).filter fun key => key ∉ relay_clear_envelope_fields with
  | unknown :: others => throw (.non_envelope_field (firstText unknown others))
  | [] =>
    let session_id ← required_text (valueOf payload "session_id") "session_id"
    let seq ← sequence_int encodings (valueOf payload "seq") "seq"
    let direction ← direction_of (valueOf payload "direction")
    let op ← required_text (valueOf payload "op") "op"
    let nonce_b64 ← required_base64_text encodings (valueOf payload "nonce_b64") "nonce_b64"
    let ciphertext_b64 ←
      required_base64_text encodings (valueOf payload "ciphertext_b64") "ciphertext_b64"
    let key_id ← required_text (valueOf payload "key_id") "key_id"
    let envelope : RelayV2Envelope :=
      { session_id := session_id
        seq := seq
        direction := direction
        op := op
        nonce_b64 := nonce_b64
        ciphertext_b64 := ciphertext_b64
        key_id := key_id
        schema_version := (intOf encodings (valueOf payload "schema_version")).getD 0 }
    envelope.validate encodings
    return envelope

/-- `n.to_bytes(8, 'big')`. -/
def to_bytes (n : ℕ) : Bytes :=
  (List.range 8).reverse.map fun i => UInt8.ofNat (n / 256 ^ i % 256)

def nonce (nonce_prefix_bytes : Bytes) (seq : ℤ) : Except RelayCryptoError Bytes := do
  if nonce_prefix_bytes.length ≠ 4 then throw (.relay "relay v2 nonce prefix invalid")
  let seq ← sequence_int encodings (.ofInt seq) "seq"
  return nonce_prefix_bytes ++ to_bytes seq.toNat

/-- `relay_v2_aad`, for a direction by its value. -/
def relay_v2_aad (session_id : Text) (seq : ℤ) (direction op key_id : Text) : Bytes :=
  ascii "\x7b\"direction\":" ++ (quoted direction
    ++ (ascii ",\"key_id\":" ++ (quoted key_id
      ++ (ascii ",\"op\":" ++ (quoted op
        ++ (ascii ",\"schema_version\":2,\"seq\":" ++ (decimalInt seq
          ++ (ascii ",\"session_id\":" ++ (quoted session_id
            ++ ascii "\x7d")))))))))

structure Encryption where
  key : Bytes
  nonce : Bytes
  aad : Bytes
  plaintext : Bytes
  ciphertext : Bytes
  deriving DecidableEq

/-- It succeeds for what was encrypted under the same key, nonce and associated data. -/
def decrypt (log : List Encryption) (key nonce ciphertext aad : Bytes) : Option Bytes :=
  (log.find? fun e =>
    e.key = key && e.nonce = nonce && e.aad = aad && e.ciphertext = ciphertext).map
      fun e => e.plaintext

structure RelayCryptoSession where
  session_id : Text
  send_direction : RelayDirection
  receive_direction : RelayDirection
  send_key : Bytes
  receive_key : Bytes
  send_nonce_prefix_bytes : Bytes
  receive_nonce_prefix_bytes : Bytes
  next_send_seq : ℕ
  next_receive_seq : ℕ
  closed : Bool
  deriving DecidableEq

def wipe (key : Bytes) : Bytes := key.map fun _ => 0

namespace RelayCryptoSession

def close (s : RelayCryptoSession) : RelayCryptoSession :=
  { s with send_key := wipe s.send_key, receive_key := wipe s.receive_key, closed := true }

variable (encrypt : Bytes → Bytes → Bytes → Bytes → Option Bytes)

/-- `seal`, once a sequence number is taken; `encrypt` is applied to the key, the nonce,
the plaintext and the associated data, and raises where it is `none`. -/
def sealFrame (s : RelayCryptoSession) (sequence : ℕ) (op : Text) (plaintext : Bytes) :
    Except RelayCryptoError (RelayV2Envelope × Encryption) := do
  let nonce ← nonce encodings s.send_nonce_prefix_bytes sequence
  let aad := relay_v2_aad s.session_id sequence s.send_direction.value op relay_key_id
  match encrypt s.send_key nonce plaintext aad with
  | none => throw .cipher
  | some ciphertext =>
    return (
      { session_id := s.session_id
        seq := sequence
        direction := s.send_direction
        op := op
        nonce_b64 := encodings.b64 nonce
        ciphertext_b64 := encodings.b64 ciphertext
        key_id := relay_key_id
        schema_version := relay_protocol_version },
      { key := s.send_key
        nonce := nonce
        aad := aad
        plaintext := plaintext
        ciphertext := ciphertext })

/-- `seal`, with the session it leaves. -/
def seal_message (s : RelayCryptoSession) (op : Text) (plaintext : Bytes) :
    Except RelayCryptoError (RelayV2Envelope × Encryption) × RelayCryptoSession :=
  if s.closed then (.error (.relay "relay v2 session is closed"), s)
  else if s.next_send_seq > relay_max_sequence then
    (.error (.relay "relay v2 sequence exhausted"), s.close)
  else
    (s.sealFrame encodings encrypt s.next_send_seq op plaintext,
      { s with next_send_seq := s.next_send_seq + 1 })

/-- What `open` is given. -/
inductive Incoming where
  | envelope (frame : RelayV2Envelope)
  | json (payload : Dict Text JsonValue)
  deriving DecidableEq

def frameOf : Incoming → Except RelayCryptoError RelayV2Envelope
  | .envelope frame => .ok frame
  | .json payload => RelayV2Envelope.from_json encodings payload

/-- `open`, for a frame and the sequence number it should have. -/
def openFrame (s : RelayCryptoSession) (log : List Encryption) (frame : RelayV2Envelope) :
    Except RelayCryptoError Bytes := do
  if frame.session_id ≠ s.session_id then throw (.relay "relay v2 session mismatch")
  if frame.direction ≠ s.receive_direction then throw (.relay "relay v2 direction mismatch")
  if frame.seq ≠ s.next_receive_seq then
    throw (.relay "relay v2 sequence replay or reorder rejected")
  let received ← b64decode encodings frame.nonce_b64
  let expected_nonce ← nonce encodings s.receive_nonce_prefix_bytes frame.seq
  if received ≠ expected_nonce then throw (.relay "relay v2 nonce mismatch")
  let aad := relay_v2_aad frame.session_id frame.seq frame.direction.value frame.op frame.key_id
  match encodings.b64decode (strip frame.ciphertext_b64) with
  | none => throw (.relay "relay v2 ciphertext authentication failed")
  | some ciphertext =>
    match decrypt log s.receive_key received ciphertext aad with
    | none => throw (.relay "relay v2 ciphertext authentication failed")
    | some plaintext => return plaintext

/-- `open`, with the session it leaves, and the accepted frame's `op` beside the result. -/
def open_envelope (s : RelayCryptoSession) (log : List Encryption) (incoming : Incoming) :
    Except RelayCryptoError (Text × Bytes) × RelayCryptoSession :=
  if s.closed then (.error (.relay "relay v2 session is closed"), s)
  else if s.next_receive_seq > relay_max_sequence then
    (.error (.relay "relay v2 sequence exhausted"), s.close)
  else
    match frameOf encodings incoming with
    | .error e => (.error e, s)
    | .ok frame =>
      match s.openFrame encodings log frame with
      | .error e => (.error e, s)
      | .ok plaintext =>
        (.ok (frame.op, plaintext), { s with next_receive_seq := s.next_receive_seq + 1 })

end RelayCryptoSession

inductive Role where
  | phone | host
  deriving DecidableEq

def Role.peer : Role → Role
  | phone => host
  | host => phone

def Role.direction : Role → RelayDirection
  | phone => .phone_to_host
  | host => .host_to_phone

/-- The lengths are those of the slices of the derived bytes. -/
structure RelayV2KeySchedule where
  session_id : Text
  key : RelayDirection → Bytes
  nonce_prefix_bytes : RelayDirection → Bytes
  key_length : ∀ d, (key d).length = 32
  nonce_prefix_length : ∀ d, (nonce_prefix_bytes d).length = 4

def RelayV2KeySchedule.session (schedule : RelayV2KeySchedule) (role : Role) :
    Except RelayCryptoError RelayCryptoSession := do
  let session_id ← required_text (.text schedule.session_id) "session_id"
  return {
    session_id := session_id
    send_direction := role.direction
    receive_direction := role.peer.direction
    send_key := schedule.key role.direction
    receive_key := schedule.key role.peer.direction
    send_nonce_prefix_bytes := schedule.nonce_prefix_bytes role.direction
    receive_nonce_prefix_bytes := schedule.nonce_prefix_bytes role.peer.direction
    next_send_seq := 1
    next_receive_seq := 1
    closed := false }

/-- The two sessions, what each role sealed and accepted, and the encryptions of others. -/
structure Channel where
  session : Role → RelayCryptoSession
  sealed : Role → List (RelayV2Envelope × Encryption)
  accepted : Role → List (Text × Bytes)
  foreign : List Encryption

def RelayV2KeySchedule.start (schedule : RelayV2KeySchedule) : Except RelayCryptoError Channel := do
  let phone ← schedule.session .phone
  let host ← schedule.session .host
  return {
    session := fun role => match role with
      | .phone => phone
      | .host => host
    sealed := fun _ => []
    accepted := fun _ => []
    foreign := [] }

namespace Channel

/-- All encryptions made so far. -/
def log (c : Channel) : List Encryption :=
  (c.sealed .phone ++ c.sealed .host).map Prod.snd ++ c.foreign

/-- `(op, plaintext)` of a sealed frame. -/
def message (frame : RelayV2Envelope × Encryption) : Text × Bytes :=
  (frame.1.op, frame.2.plaintext)

/-- What may happen: a call of a role, the delivery of any envelope whatever, or an
encryption in another session. -/
inductive Step where
  | send (role : Role) (op : Text) (plaintext : Bytes)
  | deliver (role : Role) (incoming : RelayCryptoSession.Incoming)
  | close (role : Role)
  | foreign (encryption : Encryption)

variable (encrypt : Bytes → Bytes → Bytes → Bytes → Option Bytes)

/-- A key of the schedule is not used elsewhere. -/
def step (schedule : RelayV2KeySchedule) (c : Channel) : Step → Channel
  | .send role op plaintext =>
    let outcome := (c.session role).seal_message encodings encrypt op plaintext
    let c := { c with session := Function.update c.session role outcome.2 }
    match outcome.1 with
    | .error _ => c
    | .ok frame => { c with sealed := Function.update c.sealed role (c.sealed role ++ [frame]) }
  | .deliver role incoming =>
    let outcome := (c.session role).open_envelope encodings c.log incoming
    let c := { c with session := Function.update c.session role outcome.2 }
    match outcome.1 with
    | .error _ => c
    | .ok message =>
      { c with accepted := Function.update c.accepted role (c.accepted role ++ [message]) }
  | .close role =>
    { c with session := Function.update c.session role (c.session role).close }
  | .foreign encryption =>
    if encryption.key = schedule.key .phone_to_host
        ∨ encryption.key = schedule.key .host_to_phone then c
    else { c with foreign := c.foreign ++ [encryption] }

def run (schedule : RelayV2KeySchedule) (steps : List Step) (c : Channel) : Channel :=
  steps.foldl (step encodings encrypt schedule) c

end Channel

end ClaudeCodeBridge.Model.Relay
