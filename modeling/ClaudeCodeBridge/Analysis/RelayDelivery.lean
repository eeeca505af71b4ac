import ClaudeCodeBridge.Analysis.RelayChannel
import ClaudeCodeBridge.Program.Outcomes
import Mathlib.Data.List.DropRight

/-!
# Honest delivery over a relay channel

What one session sealed and wrote as JSON, opened in order by its peer.  The envelope
comes back with its texts stripped (`from_json_to_json`), so that the associated data of
the receiver are those of the sender just for an operation without white space at its
ends (`open_sealed`).
-/

set_option autoImplicit false

namespace ClaudeCodeBridge.Analysis.Relay

open Program
open Model.Relay

theorem strip_sublist (text : Text) : (strip text).Sublist text :=
  (List.rdropWhile_prefix isSpace _).sublist.trans (List.dropWhile_suffix isSpace).sublist

@[simp] theorem strip_strip (text : Text) : strip (strip text) = strip text := by
  have hbegins : strip text <+: text.dropWhile isSpace := List.rdropWhile_prefix isSpace _
  have hhead : (strip text).dropWhile isSpace = strip text := by
    rw [List.dropWhile_eq_self_iff]
    intro hpos
    rw [hbegins.getElem hpos]
    exact List.dropWhile_get_zero_not isSpace text (hpos.trans_le hbegins.length_le)
  calc strip (strip text) = (strip text).rdropWhile isSpace := by
        rw [strip, hhead, List.rdropWhile]
    _ = strip text := List.rdropWhile_idempotent isSpace _

theorem utf16_sublist_inj {text other : Text} (hsub : text.Sublist other)
    (h : utf16 text = utf16 other) : text = other := by
  induction hsub with
  | slnil => rfl
  | @cons text other c hsub ih =>
    have hle : (utf16 text).length ≤ (utf16 other).length := (hsub.flatMap utf16Point).length_le
    have hpos : 0 < (utf16Point c).length := by
      unfold utf16Point
      split <;> simp
    have hlength := congrArg List.length h
    rw [utf16, utf16, List.flatMap_cons, List.length_append] at hlength
    simp only [utf16] at hle
    omega
  | @cons_cons text other c hsub ih =>
    rw [utf16, utf16, List.flatMap_cons, List.flatMap_cons] at h
    rw [ih (List.append_cancel_left h)]

variable {encodings : Encodings} {encrypt : Bytes → Bytes → Bytes → Bytes → Option Bytes}
  {envelope : RelayV2Envelope} {payload : Dict Text JsonValue}

theorem required_text_ok {text value : Text} {name : String} :
    required_text (.text text) name = .ok value ↔ strip text ≠ [] ∧ strip text = value := by
  unfold required_text strOrEmpty
  by_cases hempty : strip text = [] <;> simp [hempty]

theorem required_base64_text_ok {text value : Text} {name : String} :
    required_base64_text encodings (.text text) name = .ok value ↔
      strip text ≠ [] ∧ strip text = value ∧
        ∃ bytes, encodings.b64decode (strip text) = some bytes := by
  unfold required_base64_text b64decode
  simp only [bind_ok, required_text_ok, pure_ok]
  constructor
  · rintro ⟨v, ⟨hne, rfl⟩, bytes, hbytes, rfl⟩
    rw [strip_strip] at hbytes
    split at hbytes
    · exact ⟨hne, rfl, _, ‹_›⟩
    · cases hbytes
  · rintro ⟨hne, rfl, bytes, hbytes⟩
    exact ⟨_, ⟨hne, rfl⟩, bytes, by rw [strip_strip, hbytes], rfl⟩

theorem sequence_int_ok {n m : ℤ} {name : String} :
    sequence_int encodings (.ofInt n) name = .ok m ↔ 1 ≤ n ∧ n ≤ relay_max_sequence ∧ n = m := by
  unfold sequence_int intOf JsonValue.ofInt
  by_cases hlow : n < 1
  · simp [hlow]
  · by_cases hhigh : n > relay_max_sequence
    · simp [hlow, hhigh]
    · simp [hlow, hhigh, not_lt.mp hlow, not_lt.mp hhigh]

theorem validate_ok :
    envelope.validate encodings = .ok () ↔
      envelope.schema_version = relay_protocol_version ∧ strip envelope.session_id ≠ [] ∧
      (1 ≤ envelope.seq ∧ envelope.seq ≤ relay_max_sequence) ∧ strip envelope.op ≠ [] ∧
      (strip envelope.nonce_b64 ≠ [] ∧
        ∃ bytes, encodings.b64decode (strip envelope.nonce_b64) = some bytes) ∧
      (strip envelope.ciphertext_b64 ≠ [] ∧
        ∃ bytes, encodings.b64decode (strip envelope.ciphertext_b64) = some bytes) ∧
      envelope.key_id = relay_key_id := by
  unfold RelayV2Envelope.validate
  by_cases hversion : envelope.schema_version = relay_protocol_version
  case neg => simp [hversion]
  by_cases hkey : envelope.key_id = relay_key_id
  case neg => simp [hversion, hkey]
  simp [hversion, hkey, required_text_ok, required_base64_text_ok, sequence_int_ok, -bind_pure_comp]

def stripped (envelope : RelayV2Envelope) : RelayV2Envelope :=
  { envelope with
    session_id := strip envelope.session_id
    op := strip envelope.op
    nonce_b64 := strip envelope.nonce_b64
    ciphertext_b64 := strip envelope.ciphertext_b64 }

theorem from_json_to_json (h : envelope.to_json encodings = .ok payload) :
    RelayV2Envelope.from_json encodings payload = .ok (stripped envelope) := by
  unfold RelayV2Envelope.to_json at h
  obtain ⟨_, hvalid, h⟩ := bind_ok.mp h
  cases h
  have hunknown : ∀ fields : List Text, fields = relay_clear_envelope_fields →
      fields.filter (fun key => key ∉ relay_clear_envelope_fields) = [] := by
    rintro fields rfl
    decide
  obtain ⟨hversion, hsession, hseq, hop, hnonce, hciphertext, hkey⟩ := validate_ok.mp hvalid
  have hdirection : direction_of (.text envelope.direction.value) = .ok envelope.direction := by
    cases envelope.direction <;> decide
  unfold RelayV2Envelope.from_json
  split
  · rename_i heq
    cases heq.symm.trans (hunknown _ rfl)
  refine bind_ok.mpr ⟨_, required_text_ok.mpr ⟨hsession, rfl⟩,
    bind_ok.mpr ⟨_, sequence_int_ok.mpr ⟨hseq.1, hseq.2, rfl⟩,
      bind_ok.mpr ⟨_, hdirection,
        bind_ok.mpr ⟨_, required_text_ok.mpr ⟨hop, rfl⟩,
          bind_ok.mpr ⟨_, required_base64_text_ok.mpr ⟨hnonce.1, rfl, hnonce.2⟩,
            bind_ok.mpr ⟨_, required_base64_text_ok.mpr ⟨hciphertext.1, rfl, hciphertext.2⟩,
              bind_ok.mpr ⟨relay_key_id, ?_, bind_ok.mpr ⟨(), validate_ok.mpr ?_, ?_⟩⟩⟩⟩⟩⟩⟩⟩
  · rw [hkey]
    exact required_text_ok.mpr ⟨by decide, by decide⟩
  · simp only [strip_strip]
    exact ⟨hversion, hsession, hseq, hop, hnonce, hciphertext, trivial⟩
  · simp [stripped, hkey, intOf, JsonValue.ofInt]
    rfl

variable {schedule : RelayV2KeySchedule} {session_id op : Text} {role : Role}
  {sender receiver : RelayCryptoSession} {plaintext : Bytes} {log : List Encryption}

theorem decrypt_of_mem (hnodup : (log.map Encryption.nonce).Nodup) {e : Encryption}
    (hmem : e ∈ log) (aad : Bytes) :
    decrypt log e.key e.nonce e.ciphertext aad = if e.aad = aad then some e.plaintext else none := by
  unfold decrypt
  cases hfind : log.find? fun e' =>
    e'.key = e.key && e'.nonce = e.nonce && e'.aad = aad && e'.ciphertext = e.ciphertext with
  | none =>
    have hne := List.find?_eq_none.mp hfind e hmem
    have haad : e.aad ≠ aad := by simpa using hne
    rw [if_neg haad, Option.map_none]
  | some e' =>
    have hmatch := List.find?_some hfind
    simp only [Bool.and_eq_true, decide_eq_true_eq] at hmatch
    have heq : e' = e := List.inj_on_of_nodup_map hnodup (List.mem_of_find?_eq_some hfind) hmem
      hmatch.1.1.2
    rw [← hmatch.1.2, heq, if_pos rfl, Option.map_some]

/-- Base64 is undone by its decoder, and has no white space. -/
structure Base64 (encodings : Encodings) : Prop where
  strip_b64 : ∀ bytes, strip (encodings.b64 bytes) = encodings.b64 bytes
  b64decode_b64 : ∀ bytes, encodings.b64decode (encodings.b64 bytes) = some bytes

/-- Two sessions of one schedule between which the next number is the same. -/
structure Paired (schedule : RelayV2KeySchedule) (session_id : Text) (role : Role)
    (sender receiver : RelayCryptoSession) : Prop where
  sends : Keyed schedule session_id role sender
  receives : Keyed schedule session_id role.peer receiver
  open_sender : sender.closed = false
  open_receiver : receiver.closed = false
  number : receiver.next_receive_seq = sender.next_send_seq
  strip_session_id : strip session_id = session_id

variable {frame : RelayV2Envelope × Encryption}

theorem seal_ok (hopen : sender.closed = false)
    (h : (sender.seal_message encodings encrypt op plaintext).1 = .ok frame) :
    1 ≤ sender.next_send_seq ∧ sender.next_send_seq ≤ relay_max_sequence ∧
      (sender.seal_message encodings encrypt op plaintext).2 =
        { sender with next_send_seq := sender.next_send_seq + 1 } ∧
      ∃ ciphertext,
        frame.2 =
          { key := sender.send_key
            nonce := sender.send_nonce_prefix_bytes ++ to_bytes sender.next_send_seq
            aad := relay_v2_aad sender.session_id sender.next_send_seq
              sender.send_direction.value op relay_key_id
            plaintext := plaintext
            ciphertext := ciphertext } ∧
        frame.1 =
          { session_id := sender.session_id
            seq := sender.next_send_seq
            direction := sender.send_direction
            op := op
            nonce_b64 := encodings.b64 frame.2.nonce
            ciphertext_b64 := encodings.b64 ciphertext
            key_id := relay_key_id
            schema_version := relay_protocol_version } := by
  unfold RelayCryptoSession.seal_message at h ⊢
  rw [if_neg (by simp [hopen])] at h ⊢
  split at h
  · cases h
  · rename_i hnumber
    rw [if_neg hnumber]
    unfold RelayCryptoSession.sealFrame at h
    obtain ⟨bytes, hnonce, h⟩ := bind_ok.mp h
    obtain ⟨hlow, _, hbytes⟩ := nonce_ok hnonce
    rw [Int.toNat_natCast] at hbytes
    dsimp only at h
    split at h
    · cases h
    · rename_i ciphertext _
      cases h
      exact ⟨by omega, not_lt.mp hnumber, rfl, ciphertext, by rw [hbytes], by rw [hbytes]⟩

theorem aad_strip_iff {seq : ℤ} {direction : Text} :
    relay_v2_aad session_id seq direction op relay_key_id =
      relay_v2_aad session_id seq direction (strip op) relay_key_id ↔ strip op = op := by
  constructor
  · intro h
    exact utf16_sublist_inj (strip_sublist op) (relay_v2_aad_inj h).2.2.2.1.symm
  · intro h
    rw [h]

/-- **A sealed message is opened just if its operation has no white space at its ends.** -/
theorem open_sealed (hencodings : Base64 encodings)
    (hpaired : Paired schedule session_id role sender receiver)
    (hseal : (sender.seal_message encodings encrypt op plaintext).1 = .ok frame)
    (hjson : frame.1.to_json encodings = .ok payload)
    (hnodup : (log.map Encryption.nonce).Nodup) (hmem : frame.2 ∈ log) :
    receiver.open_envelope encodings log (.json payload) =
      if strip op = op then
        (.ok (op, plaintext), { receiver with next_receive_seq := receiver.next_receive_seq + 1 })
      else (.error (.relay "relay v2 ciphertext authentication failed"), receiver) := by
  obtain ⟨hlow, hhigh, _, ciphertext, hencryption, henvelope⟩ := seal_ok hpaired.open_sender hseal
  have hnonce : nonce encodings receiver.receive_nonce_prefix_bytes sender.next_send_seq =
      .ok frame.2.nonce := by
    unfold nonce
    rw [hpaired.receives.receive_nonce_prefix_bytes, peer_peer, schedule.nonce_prefix_length]
    simp only [ne_eq, not_true_eq_false, if_false]
    refine bind_ok.mpr ⟨_, sequence_int_ok.mpr ⟨by omega, by omega, rfl⟩, ?_⟩
    rw [hencryption, hpaired.sends.send_nonce_prefix_bytes, Int.toNat_natCast]
    rfl
  have hdecrypt := decrypt_of_mem hnodup hmem (relay_v2_aad session_id sender.next_send_seq
    role.direction.value (strip op) relay_key_id)
  have haad : frame.2.aad = relay_v2_aad session_id sender.next_send_seq role.direction.value op
      relay_key_id := by
    rw [hencryption, hpaired.sends.session_id, hpaired.sends.send_direction]
  have hciphertext : frame.2.ciphertext = ciphertext := by rw [hencryption]
  have hplaintext : frame.2.plaintext = plaintext := by rw [hencryption]
  rw [haad, hciphertext, hplaintext] at hdecrypt
  simp only [aad_strip_iff] at hdecrypt
  have hstripped : stripped frame.1 =
      { session_id := session_id
        seq := sender.next_send_seq
        direction := role.direction
        op := strip op
        nonce_b64 := encodings.b64 frame.2.nonce
        ciphertext_b64 := encodings.b64 ciphertext
        key_id := relay_key_id
        schema_version := relay_protocol_version } := by
    rw [henvelope]
    simp only [stripped, hpaired.sends.session_id, hpaired.strip_session_id,
      hpaired.sends.send_direction, hencodings.strip_b64]
  have hreceived : b64decode encodings (encodings.b64 frame.2.nonce) = .ok frame.2.nonce := by
    unfold b64decode
    rw [hencodings.strip_b64, hencodings.b64decode_b64]
  have hkey : receiver.receive_key = frame.2.key := by
    rw [hencryption, hpaired.receives.receive_key hpaired.open_receiver, peer_peer,
      hpaired.sends.send_key hpaired.open_sender]
  have hopen : receiver.openFrame encodings log (stripped frame.1) =
      if strip op = op then .ok plaintext
      else .error (.relay "relay v2 ciphertext authentication failed") := by
    rw [hstripped]
    simp only [RelayCryptoSession.openFrame, hpaired.receives.session_id,
      hpaired.receives.receive_direction, peer_peer, hpaired.number, ne_eq, not_true_eq_false,
      if_false]
    rw [hreceived]
    simp only [bind, Except.bind, hnonce]
    simp only [not_true_eq_false, if_false, hencodings.strip_b64, hencodings.b64decode_b64,
      hkey, hdecrypt]
    by_cases hop : strip op = op
    · rw [if_pos hop, if_pos hop]
      rfl
    · rw [if_neg hop, if_neg hop]
      rfl
  unfold RelayCryptoSession.open_envelope
  rw [if_neg (by simp [hpaired.open_receiver]), if_neg (by rw [hpaired.number]; omega)]
  simp only [RelayCryptoSession.frameOf, from_json_to_json hjson, hopen]
  by_cases hop : strip op = op
  · simp [hop, stripped, henvelope]
  · simp [hop]

def sealAll (encodings : Encodings) (encrypt : Bytes → Bytes → Bytes → Bytes → Option Bytes)
    (sender : RelayCryptoSession) :
    List (Text × Bytes) → Except RelayCryptoError (List (Dict Text JsonValue × Encryption))
  | [] => .ok []
  | (op, plaintext) :: messages => do
    let outcome := sender.seal_message encodings encrypt op plaintext
    let frame ← outcome.1
    let payload ← frame.1.to_json encodings
    let frames ← sealAll encodings encrypt outcome.2 messages
    return (payload, frame.2) :: frames

def openAll (encodings : Encodings) (log : List Encryption) (receiver : RelayCryptoSession) :
    List (Dict Text JsonValue) → Except RelayCryptoError (List Bytes)
  | [] => .ok []
  | payload :: payloads => do
    let outcome := receiver.open_envelope encodings log (.json payload)
    let message ← outcome.1
    let plaintexts ← openAll encodings log outcome.2 payloads
    return message.2 :: plaintexts

variable {messages : List (Text × Bytes)} {frames : List (Dict Text JsonValue × Encryption)}

theorem paired_next (h : Paired schedule session_id role sender receiver) :
    Paired schedule session_id role
      { sender with next_send_seq := sender.next_send_seq + 1 }
      { receiver with next_receive_seq := receiver.next_receive_seq + 1 } :=
  { sends := { h.sends with }
    receives := { h.receives with }
    open_sender := h.open_sender
    open_receiver := h.open_receiver
    number := congrArg (· + 1) h.number
    strip_session_id := h.strip_session_id }

theorem nonces_of_sealAll (hopen : sender.closed = false)
    (h : sealAll encodings encrypt sender messages = .ok frames) :
    (∀ e ∈ frames.map Prod.snd, ∃ number, sender.next_send_seq ≤ number ∧
      number ≤ relay_max_sequence ∧
      e.nonce = sender.send_nonce_prefix_bytes ++ to_bytes number) ∧
    ((frames.map Prod.snd).map Encryption.nonce).Nodup := by
  induction messages generalizing sender frames with
  | nil =>
    cases h
    exact ⟨fun e he => absurd he List.not_mem_nil, List.nodup_nil⟩
  | cons message messages ih =>
    obtain ⟨frame, hframe, h⟩ := bind_ok.mp h
    obtain ⟨payload, _, h⟩ := bind_ok.mp h
    obtain ⟨rest, hrest, h⟩ := bind_ok.mp h
    cases h
    obtain ⟨_, hhigh, hnext, ciphertext, hencryption, _⟩ := seal_ok hopen hframe
    rw [hnext] at hrest
    have hopen_next : ({ sender with next_send_seq := sender.next_send_seq + 1 } :
        RelayCryptoSession).closed = false := hopen
    obtain ⟨hlater, hnodup⟩ := ih hopen_next hrest
    have hnonce : frame.2.nonce =
        sender.send_nonce_prefix_bytes ++ to_bytes sender.next_send_seq := by
      rw [hencryption]
    constructor
    · intro e he
      rcases List.mem_cons.mp he with rfl | he
      · exact ⟨_, le_refl _, hhigh, hnonce⟩
      · obtain ⟨number, hle, hmax, hnumber⟩ := hlater e he
        exact ⟨number, (Nat.le_succ _).trans hle, hmax, hnumber⟩
    · refine List.nodup_cons.mpr ⟨fun hrepeated => ?_, hnodup⟩
      obtain ⟨e, he, heq⟩ := List.mem_map.mp hrepeated
      obtain ⟨number, hle, hmax, hnumber⟩ := hlater e he
      have hsame := to_bytes_injective hmax hhigh
        (List.append_cancel_left ((hnumber.symm.trans heq).trans hnonce))
      have hlt : sender.next_send_seq + 1 ≤ number := hle
      omega

theorem openAll_iff (hencodings : Base64 encodings)
    (hpaired : Paired schedule session_id role sender receiver)
    (hsealed : sealAll encodings encrypt sender messages = .ok frames)
    (hnodup : (log.map Encryption.nonce).Nodup) (hmem : ∀ e ∈ frames.map Prod.snd, e ∈ log) :
    openAll encodings log receiver (frames.map Prod.fst) = .ok (messages.map Prod.snd) ↔
      ∀ message ∈ messages, strip message.1 = message.1 := by
  induction messages generalizing sender receiver frames with
  | nil =>
    cases hsealed
    exact ⟨fun _ message hmessage => absurd hmessage List.not_mem_nil, fun _ => rfl⟩
  | cons message messages ih =>
    obtain ⟨frame, hframe, hsealed⟩ := bind_ok.mp hsealed
    obtain ⟨payload, hpayload, hsealed⟩ := bind_ok.mp hsealed
    obtain ⟨rest, hrest, hsealed⟩ := bind_ok.mp hsealed
    cases hsealed
    rw [(seal_ok hpaired.open_sender hframe).2.2.1] at hrest
    have hopen := open_sealed hencodings hpaired hframe hpayload hnodup (hmem _ (by simp))
    rw [List.forall_mem_cons]
    by_cases hop : strip message.1 = message.1
    · rw [if_pos hop] at hopen
      have hrecursive := ih (paired_next hpaired) hrest fun e he => hmem e (by simp_all)
      rw [← hrecursive]
      simp only [List.map_cons, openAll, hopen, bind_ok, pure_ok, List.cons.injEq, hop, true_and]
      constructor
      · rintro ⟨_, _, plaintexts, hplaintexts, _, rfl⟩
        exact hplaintexts
      · intro hplaintexts
        exact ⟨_, rfl, _, hplaintexts, rfl, rfl⟩
    · rw [if_neg hop] at hopen
      simp [openAll, hopen, hop, bind, Except.bind]

theorem keyed_session {s : RelayCryptoSession} (h : schedule.session role = .ok s) :
    Keyed schedule (strip schedule.session_id) role s ∧ s.closed = false ∧
      s.next_send_seq = 1 ∧ s.next_receive_seq = 1 := by
  unfold RelayV2KeySchedule.session at h
  obtain ⟨session_id, hsession, h⟩ := bind_ok.mp h
  cases h
  refine ⟨⟨(required_text_ok.mp hsession).2.symm, rfl, rfl, rfl, rfl, fun _ => rfl, fun _ => rfl⟩,
    rfl, rfl, rfl⟩

/-- **What one session of a schedule sealed and wrote, its peer opens in order just if no
operation has white space at its ends.** -/
theorem relay_delivers (encodings : Encodings)
    (encrypt : Bytes → Bytes → Bytes → Bytes → Option Bytes) (hencodings : Base64 encodings)
    (schedule : RelayV2KeySchedule) (role : Role) (sender receiver : RelayCryptoSession)
    (hsender : schedule.session role = .ok sender)
    (hreceiver : schedule.session role.peer = .ok receiver) (messages : List (Text × Bytes))
    (frames : List (Dict Text JsonValue × Encryption))
    (hsealed : sealAll encodings encrypt sender messages = .ok frames) :
    openAll encodings (frames.map Prod.snd) receiver (frames.map Prod.fst) =
        .ok (messages.map Prod.snd) ↔
      ∀ message ∈ messages, strip message.1 = message.1 := by
  obtain ⟨hsends, hopen, hsend, _⟩ := keyed_session hsender
  obtain ⟨hreceives, hopen', _, hreceive⟩ := keyed_session hreceiver
  exact openAll_iff hencodings ⟨hsends, hreceives, hopen, hopen', hreceive.trans hsend.symm,
    strip_strip _⟩ hsealed (nonces_of_sealAll hopen hsealed).2 fun _ he => he

/-- The phone's session of the example, and the host's. -/
def exampleSession (role : Role) : RelayCryptoSession := exampleChannel.session role

def exampleSealed (op : Text) : List (Dict Text JsonValue × Encryption) :=
  match sealAll plainEncodings plainEncrypt (exampleSession .phone) [(op, [7])] with
  | .error _ => []
  | .ok frames => frames

theorem plainEncodings_base64 : Base64 plainEncodings := by
  refine ⟨fun bytes => strip_eq_self fun c hc => ?_, base64Decode_base64⟩
  have hrange := mem_base64 hc
  simp only [isSpace, Bool.or_eq_false_iff, Bool.and_eq_false_iff, decide_eq_false_iff_not]
  omega

theorem relay_delivers_attach :
    openAll plainEncodings ((exampleSealed (asciiText "attach")).map Prod.snd)
        (exampleSession .host) ((exampleSealed (asciiText "attach")).map Prod.fst) =
        .ok [[7]] ↔
      ∀ message ∈ [(asciiText "attach", ([7] : Bytes))], strip message.1 = message.1 :=
  relay_delivers plainEncodings plainEncrypt plainEncodings_base64 exampleSchedule .phone
    (exampleSession .phone) (exampleSession .host) (by decide) (by decide)
    [(asciiText "attach", [7])] (exampleSealed (asciiText "attach")) (by decide)

/-- An operation that starts with a space is sealed, and not opened. -/
theorem relay_spaced_undelivered :
    exampleSchedule.session .phone = .ok (exampleSession .phone) ∧
    exampleSchedule.session .host = .ok (exampleSession .host) ∧
    sealAll plainEncodings plainEncrypt (exampleSession .phone) [(asciiText " attach", [7])] =
      .ok (exampleSealed (asciiText " attach")) ∧
    openAll plainEncodings ((exampleSealed (asciiText " attach")).map Prod.snd)
        (exampleSession .host) ((exampleSealed (asciiText " attach")).map Prod.fst) =
      .error (.relay "relay v2 ciphertext authentication failed") := by
  decide

end ClaudeCodeBridge.Analysis.Relay
