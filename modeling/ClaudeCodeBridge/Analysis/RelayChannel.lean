import ClaudeCodeBridge.Program.Base64
import ClaudeCodeBridge.Model.RelayCrypto

/-!
# What a relay channel delivers

One `Line` leads from each role to its peer: what was sealed is numbered upwards
(`Line.frames`, `Line.increasing`) and what was accepted is its beginning (`Line.heard`).
The associated data bind a ciphertext to its line, number and operation
(`relay_v2_aad_inj`), so that an accepted frame is the next one of its own line
(`line_accept`), whatever the network did.  Operations are compared by their UTF-16
units: the encoding of a text does not tell a pair of surrogates from the character that
they encode (`relay_aad_collision`).
-/

set_option autoImplicit false

namespace ClaudeCodeBridge.Analysis.Relay

open Program
open Model.Relay

variable {encodings : Encodings} {encrypt : Bytes → Bytes → Bytes → Bytes → Option Bytes}

variable {op : Text} {seq : ℤ}

theorem relay_v2_aad_inj {session_id session_id' direction direction' op' key_id key_id' : Text}
    {seq' : ℤ} (h : relay_v2_aad session_id seq direction op key_id =
      relay_v2_aad session_id' seq' direction' op' key_id') :
    utf16 session_id = utf16 session_id' ∧ seq = seq' ∧ utf16 direction = utf16 direction' ∧
      utf16 op = utf16 op' ∧ utf16 key_id = utf16 key_id' := by
  unfold relay_v2_aad at h
  obtain ⟨hdirection, h⟩ := quoted_append_inj (List.append_cancel_left h)
  obtain ⟨hkey, h⟩ := quoted_append_inj (List.append_cancel_left h)
  obtain ⟨hop, h⟩ := quoted_append_inj (List.append_cancel_left h)
  have hnumber := List.append_cancel_left h
  have hcomma : ascii ",\"session_id\":" = 0x2C :: ascii "\"session_id\":" := by decide
  rw [hcomma, List.cons_append, List.cons_append] at hnumber
  obtain ⟨hseq, h⟩ := decimalInt_append_inj hnumber
  obtain ⟨hsession, _⟩ := quoted_append_inj (List.append_cancel_left h)
  exact ⟨hsession, hseq, hdirection, hop, hkey⟩

theorem direction_value_inj {d e : RelayDirection} (h : utf16 d.value = utf16 e.value) : d = e := by
  cases d <;> cases e <;> first | rfl | exact absurd h (by decide)

theorem to_bytes_injective {n m : ℕ} (hn : n ≤ relay_max_sequence) (hm : m ≤ relay_max_sequence)
    (h : to_bytes n = to_bytes m) : n = m := by
  have hbyte : ∀ a b : ℕ, UInt8.ofNat (a % 256) = UInt8.ofNat (b % 256) → a % 256 = b % 256 := by
    intro a b hab
    have hval := congrArg UInt8.toNat hab
    rw [UInt8.toNat_ofNat', UInt8.toNat_ofNat'] at hval
    omega
  have hall : ∀ i < 8, n / 256 ^ i % 256 = m / 256 ^ i % 256 := by
    intro i hi
    have hmem : i ∈ (List.range 8).reverse := by
      rw [List.mem_reverse, List.mem_range]
      exact hi
    exact hbyte _ _ (List.map_inj_left.mp h i hmem)
  -- from the last byte up, equal remainders make equal remainders of the next power
  have hmod : ∀ i ≤ 8, n % 256 ^ i = m % 256 ^ i := by
    intro i
    induction i with
    | zero => intro _; rw [pow_zero, Nat.mod_one, Nat.mod_one]
    | succ i ih =>
      intro hi
      rw [pow_succ, Nat.mod_mul, Nat.mod_mul, ih (by omega), hall i (by omega)]
  have hlast := hmod 8 (le_refl 8)
  have hbound : relay_max_sequence < 256 ^ 8 := by norm_num [relay_max_sequence]
  rw [Nat.mod_eq_of_lt (by omega), Nat.mod_eq_of_lt (by omega)] at hlast
  exact hlast

theorem nonce_ok {nonce_prefix_bytes bytes : Bytes}
    (h : nonce encodings nonce_prefix_bytes seq = .ok bytes) :
    1 ≤ seq ∧ seq ≤ relay_max_sequence ∧ bytes = nonce_prefix_bytes ++ to_bytes seq.toNat := by
  unfold nonce at h
  by_cases hlength : nonce_prefix_bytes.length = 4
  · by_cases hlow : seq < 1
    · simp [hlength, sequence_int, intOf, JsonValue.ofInt, hlow, bind, Except.bind] at h
    · by_cases hhigh : seq > relay_max_sequence
      · simp [hlength, sequence_int, intOf, JsonValue.ofInt, hlow, hhigh, bind, Except.bind] at h
      · simp [hlength, sequence_int, intOf, JsonValue.ofInt, hlow, hhigh, bind, Except.bind,
          pure, Except.pure] at h
        exact ⟨by omega, by omega, h.symm⟩
  · simp [hlength, bind, Except.bind, throw, throwThe, MonadExceptOf.throw] at h

/-- The encryption behind a frame that `sender` numbered `sequence`. -/
structure Frames (schedule : RelayV2KeySchedule) (session_id : Text) (role : Role) (limit : ℕ)
    (frame : RelayV2Envelope × Encryption) : Prop where
  number : ∃ sequence : ℕ, frame.1.seq = sequence ∧ 1 ≤ sequence ∧
    sequence ≤ relay_max_sequence ∧ sequence < limit ∧
    frame.2.nonce = schedule.nonce_prefix_bytes role.direction ++ to_bytes sequence
  key : frame.2.key = schedule.key role.direction
  aad : frame.2.aad =
    relay_v2_aad session_id frame.1.seq role.direction.value frame.1.op relay_key_id

/-- A session of the schedule, which has its keys until it is closed. -/
structure Keyed (schedule : RelayV2KeySchedule) (session_id : Text) (role : Role)
    (s : RelayCryptoSession) : Prop where
  session_id : s.session_id = session_id
  send_direction : s.send_direction = role.direction
  receive_direction : s.receive_direction = role.peer.direction
  send_nonce_prefix_bytes : s.send_nonce_prefix_bytes = schedule.nonce_prefix_bytes role.direction
  receive_nonce_prefix_bytes :
    s.receive_nonce_prefix_bytes = schedule.nonce_prefix_bytes role.peer.direction
  send_key : s.closed = false → s.send_key = schedule.key role.direction
  receive_key : s.closed = false → s.receive_key = schedule.key role.peer.direction

variable {schedule : RelayV2KeySchedule} {session_id : Text} {role : Role}
  {s : RelayCryptoSession}

theorem keyed_close (h : Keyed schedule session_id role s) :
    Keyed schedule session_id role s.close :=
  { h with
    send_key := fun hopen => absurd hopen (by simp [RelayCryptoSession.close])
    receive_key := fun hopen => absurd hopen (by simp [RelayCryptoSession.close]) }

variable {plaintext : Bytes} {frame : RelayV2Envelope × Encryption}

theorem sealFrame_ok (hkeyed : Keyed schedule session_id role s) (hopen : s.closed = false)
    {sequence : ℕ} (h : s.sealFrame encodings encrypt sequence op plaintext = .ok frame) :
    Frames schedule session_id role (sequence + 1) frame ∧ frame.1.seq = sequence ∧
      Channel.message frame = (op, plaintext) := by
  unfold RelayCryptoSession.sealFrame at h
  cases hnonce : nonce encodings s.send_nonce_prefix_bytes sequence with
  | error e => simp [hnonce, bind, Except.bind] at h
  | ok bytes =>
    obtain ⟨hlow, hhigh, hbytes⟩ := nonce_ok hnonce
    simp only [hnonce, bind, Except.bind] at h
    split at h
    · simp [throw, throwThe, MonadExceptOf.throw] at h
    · have hframe := Except.ok.inj h
      subst hframe
      refine ⟨⟨⟨sequence, rfl, by omega, by omega, by omega, ?_⟩, hkeyed.send_key hopen, ?_⟩,
        rfl, rfl⟩
      · rw [← hkeyed.send_nonce_prefix_bytes]
        exact hbytes
      · simp only [hkeyed.session_id, hkeyed.send_direction]

theorem decrypt_ok {log : List Encryption} {key bytes ciphertext aad : Bytes}
    (h : decrypt log key bytes ciphertext aad = some plaintext) :
    ∃ e ∈ log, e.key = key ∧ e.nonce = bytes ∧ e.aad = aad ∧ e.plaintext = plaintext := by
  unfold decrypt at h
  obtain ⟨e, hfind, hplaintext⟩ := Option.map_eq_some_iff.mp h
  have hmatch := List.find?_some hfind
  simp only [Bool.and_eq_true, decide_eq_true_eq] at hmatch
  exact ⟨e, List.mem_of_find?_eq_some hfind, hmatch.1.1.1, hmatch.1.1.2, hmatch.1.2, hplaintext⟩

/-- What `open` accepts: a frame with the expected number for which there is an encryption
under the receiver's key with its associated data. -/
theorem openFrame_ok {log : List Encryption} {frame : RelayV2Envelope}
    (h : s.openFrame encodings log frame = .ok plaintext) :
    frame.seq = s.next_receive_seq ∧ ∃ e ∈ log, e.key = s.receive_key ∧
      e.aad = relay_v2_aad s.session_id s.next_receive_seq s.receive_direction.value frame.op
        frame.key_id ∧
      e.plaintext = plaintext := by
  unfold RelayCryptoSession.openFrame at h
  by_cases hsession : frame.session_id = s.session_id
  case neg => simp [hsession, bind, Except.bind, throw, throwThe, MonadExceptOf.throw] at h
  by_cases hdirection : frame.direction = s.receive_direction
  case neg =>
    simp [hsession, hdirection, bind, Except.bind, throw, throwThe, MonadExceptOf.throw] at h
  by_cases hseq : frame.seq = s.next_receive_seq
  case neg =>
    simp [hsession, hdirection, hseq, bind, Except.bind, throw, throwThe, MonadExceptOf.throw] at h
  refine ⟨hseq, ?_⟩
  simp only [hsession, hdirection, hseq, ne_eq, not_true_eq_false, if_false, bind, Except.bind,
    pure, Except.pure] at h
  split at h
  · exact absurd h (by simp)
  · split at h
    · exact absurd h (by simp)
    · split at h
      · exact absurd h (by simp [throw, throwThe, MonadExceptOf.throw])
      · split at h
        · exact absurd h (by simp [throw, throwThe, MonadExceptOf.throw])
        · split at h
          · exact absurd h (by simp [throw, throwThe, MonadExceptOf.throw])
          · rename_i hdecrypt
            obtain ⟨e, hmem, hkey, _, haad, hplaintext⟩ := decrypt_ok hdecrypt
            exact ⟨e, hmem, hkey, haad, hplaintext.trans (Except.ok.inj h)⟩

/-- **An `open` that raises leaves the session as it was**, except that an exhausted
session is closed. -/
theorem open_error {log : List Encryption} {incoming : RelayCryptoSession.Incoming}
    {e : RelayCryptoError} (h : (s.open_envelope encodings log incoming).1 = .error e) :
    (s.open_envelope encodings log incoming).2 =
      if ¬ s.closed ∧ s.next_receive_seq > relay_max_sequence then s.close else s := by
  unfold RelayCryptoSession.open_envelope at h ⊢
  by_cases hclosed : s.closed = true
  · simp [hclosed]
  · by_cases hseq : s.next_receive_seq > relay_max_sequence
    · simp [hclosed, hseq]
    · simp only [hclosed, hseq, if_false, Bool.false_eq_true, and_false] at h ⊢
      split
      · rfl
      · rename_i frame hframe
        simp only [hframe] at h
        split
        · rfl
        · rename_i plaintext hopen
          simp [hopen] at h

/-- An operation by its UTF-16 units, with the plaintext. -/
def heard (message : Text × Bytes) : List ℕ × Bytes := (utf16 message.1, message.2)

/-- What leads from a role to its peer: the frames it sealed, the messages the peer
accepted, the next number of each. -/
structure Line (schedule : RelayV2KeySchedule) (session_id : Text) (role : Role)
    (sealed : List (RelayV2Envelope × Encryption)) (accepted : List (Text × Bytes))
    (next_send next_receive : ℕ) : Prop where
  frames : ∀ frame ∈ sealed, Frames schedule session_id role next_send frame
  increasing : sealed.Pairwise fun f g => f.1.seq < g.1.seq
  heard : ∃ firsts rest, sealed = firsts ++ rest ∧
    accepted.map heard = firsts.map (fun f => heard (Channel.message f)) ∧
    firsts.length + 1 = next_receive ∧ next_receive ≤ next_send ∧
    (∀ f ∈ firsts, f.1.seq < next_receive) ∧ ∀ f ∈ rest, (next_receive : ℤ) ≤ f.1.seq

variable {sealed : List (RelayV2Envelope × Encryption)} {accepted : List (Text × Bytes)}
  {next_send next_receive : ℕ}

theorem frames_mono {limit limit' : ℕ}
    (h : Frames schedule session_id role limit frame) (hle : limit ≤ limit') :
    Frames schedule session_id role limit' frame := by
  obtain ⟨sequence, hseq, hlow, hhigh, hlimit, hnonce⟩ := h.number
  exact ⟨⟨sequence, hseq, hlow, hhigh, by omega, hnonce⟩, h.key, h.aad⟩

section

variable (h : Line schedule session_id role sealed accepted next_send next_receive)

include h

theorem line_skip : Line schedule session_id role sealed accepted (next_send + 1) next_receive := by
  obtain ⟨firsts, rest, hsplit, hheard, hlength, hle, hfirsts, hrest⟩ := h.heard
  exact
    { frames := fun frame hmem => frames_mono (h.frames frame hmem) (Nat.le_succ next_send)
      increasing := h.increasing
      heard := ⟨firsts, rest, hsplit, hheard, hlength, by omega, hfirsts, hrest⟩ }

theorem line_send (hframe : Frames schedule session_id role (next_send + 1) frame)
    (hseq : frame.1.seq = next_send) :
    Line schedule session_id role (sealed ++ [frame]) accepted (next_send + 1) next_receive := by
  obtain ⟨firsts, rest, hsplit, hheard, hlength, hle, hfirsts, hrest⟩ := h.heard
  refine ⟨?_, ?_, firsts, rest ++ [frame], ?_, hheard, hlength, by omega, hfirsts, ?_⟩
  · intro f hf
    rcases List.mem_append.mp hf with hf | hf
    · exact frames_mono (h.frames f hf) (Nat.le_succ next_send)
    · rw [List.mem_singleton.mp hf]
      exact hframe
  · refine List.pairwise_append.mpr ⟨h.increasing, List.pairwise_singleton _ _, ?_⟩
    intro f hf g hg
    rw [List.mem_singleton.mp hg, hseq]
    obtain ⟨sequence, hfseq, _, _, hlimit, _⟩ := (h.frames f hf).number
    omega
  · rw [hsplit, List.append_assoc]
  · intro f hf
    rcases List.mem_append.mp hf with hf | hf
    · exact hrest f hf
    · rw [List.mem_singleton.mp hf, hseq]
      omega

/-- **A frame with the expected number is the next one of its line.** -/
theorem line_accept
    (hmem : frame ∈ sealed) (hseq : frame.1.seq = next_receive) {message : Text × Bytes}
    (hmessage : Relay.heard message = Relay.heard (Channel.message frame)) :
    Line schedule session_id role sealed (accepted ++ [message]) next_send (next_receive + 1) := by
  obtain ⟨firsts, rest, hsplit, hheard, hlength, hle, hfirsts, hrest⟩ := h.heard
  obtain ⟨sequence, hnumber, _, _, hlimit, _⟩ := (h.frames frame hmem).number
  have hmemrest : frame ∈ rest := by
    rw [hsplit] at hmem
    rcases List.mem_append.mp hmem with hmem | hmem
    · have hlt := hfirsts frame hmem
      omega
    · exact hmem
  cases rest with
  | nil => exact absurd hmemrest List.not_mem_nil
  | cons next rest =>
    have hincreasing := h.increasing
    rw [hsplit] at hincreasing
    have hsorted := List.pairwise_cons.mp (List.pairwise_append.mp hincreasing).2.1
    have hnext : frame = next := by
      rcases List.mem_cons.mp hmemrest with heq | hlater
      · exact heq
      · have hlt := hsorted.1 frame hlater
        have hge := hrest next List.mem_cons_self
        omega
    subst hnext
    refine ⟨h.frames, h.increasing, firsts ++ [frame], rest, ?_, ?_, ?_, by omega, ?_, ?_⟩
    · rw [hsplit, List.append_assoc]
      rfl
    · rw [List.map_append, List.map_append, hheard, List.map_singleton, List.map_singleton,
        hmessage]
    · rw [List.length_append, List.length_singleton]
      omega
    · intro f hf
      rcases List.mem_append.mp hf with hf | hf
      · have hlt := hfirsts f hf
        omega
      · rw [List.mem_singleton.mp hf, hseq]
        omega
    · intro f hf
      have hlt := hsorted.1 f hf
      omega

end

/-- The invariant of a channel. -/
structure ChannelOk (schedule : RelayV2KeySchedule) (session_id : Text) (c : Channel) : Prop where
  keyed : ∀ role, Keyed schedule session_id role (c.session role)
  line : ∀ role, Line schedule session_id role (c.sealed role) (c.accepted role.peer)
    (c.session role).next_send_seq (c.session role.peer).next_receive_seq
  foreign : ∀ e ∈ c.foreign, ∀ direction, e.key ≠ schedule.key direction

@[simp] theorem peer_peer (role : Role) : role.peer.peer = role := by cases role <;> rfl

theorem peer_ne (role : Role) : role.peer ≠ role := by cases role <;> decide

theorem role_or_peer (role other : Role) : other = role ∨ other = role.peer := by
  cases role <;> cases other <;> decide

variable {c : Channel}

theorem channelOk_update (h : ChannelOk schedule session_id c) (role : Role)
    {s' : RelayCryptoSession} {sealed' : List (RelayV2Envelope × Encryption)}
    {accepted' : List (Text × Bytes)} (hkeyed : Keyed schedule session_id role s')
    (hout : Line schedule session_id role sealed' (c.accepted role.peer) s'.next_send_seq
      (c.session role.peer).next_receive_seq)
    (hin : Line schedule session_id role.peer (c.sealed role.peer) accepted'
      (c.session role.peer).next_send_seq s'.next_receive_seq) :
    ChannelOk schedule session_id
      { session := Function.update c.session role s'
        sealed := Function.update c.sealed role sealed'
        accepted := Function.update c.accepted role accepted'
        foreign := c.foreign } := by
  refine ⟨?_, ?_, h.foreign⟩
  · intro other
    rcases role_or_peer role other with rfl | rfl
    · simp only [Function.update_self]
      exact hkeyed
    · simp only [Function.update_of_ne (peer_ne role)]
      exact h.keyed role.peer
  · intro other
    rcases role_or_peer role other with rfl | rfl
    · simp only [Function.update_self, Function.update_of_ne (peer_ne other)]
      exact hout
    · simp only [peer_peer, Function.update_self, Function.update_of_ne (peer_ne role)]
      exact hin

theorem on_line (h : ChannelOk schedule session_id c) {e : Encryption} (hmem : e ∈ c.log)
    {sender : Role} {key_id : Text} (hkey : e.key = schedule.key sender.direction)
    (haad : e.aad = relay_v2_aad session_id seq sender.direction.value op key_id) :
    ∃ frame ∈ c.sealed sender, frame.1.seq = seq ∧ frame.2 = e ∧ utf16 frame.1.op = utf16 op := by
  have hframe : ∃ role, ∃ frame ∈ c.sealed role, frame.2 = e := by
    rcases List.mem_append.mp hmem with hown | hforeign
    · obtain ⟨frame, hframe, heq⟩ := List.mem_map.mp hown
      rcases List.mem_append.mp hframe with hphone | hhost
      · exact ⟨.phone, frame, hphone, heq⟩
      · exact ⟨.host, frame, hhost, heq⟩
    · exact absurd hkey (h.foreign e hforeign sender.direction)
  obtain ⟨role, frame, hframe, rfl⟩ := hframe
  have hown := (h.line role).frames frame hframe
  rw [hown.aad] at haad
  obtain ⟨_, hseq, hdirection, hop, _⟩ := relay_v2_aad_inj haad
  have hrole : role = sender := by
    have hvalue := direction_value_inj hdirection
    cases role <;> cases sender <;> first | rfl | exact absurd hvalue (by decide)
  subst hrole
  exact ⟨frame, hframe, hseq, rfl, hop⟩

/-- **Every step keeps the invariant of a channel.** -/
theorem channel_step (h : ChannelOk schedule session_id c) (step : Channel.Step) :
    ChannelOk schedule session_id (c.step encodings encrypt schedule step) := by
  cases step with
  | send role op plaintext =>
    have hkeyed := h.keyed role
    have hout := h.line role
    have hin := h.line role.peer
    rw [peer_peer] at hin
    have hsame := channelOk_update h role (keyed_close hkeyed) hout hin
    simp only [Channel.step, RelayCryptoSession.seal_message]
    by_cases hclosed : (c.session role).closed = true
    · simp only [hclosed, if_true, Function.update_eq_self]
      exact h
    · rw [Bool.not_eq_true] at hclosed
      by_cases hseq : (c.session role).next_send_seq > relay_max_sequence
      · simp only [hclosed, hseq, if_true, Bool.false_eq_true, if_false]
        simpa only [Function.update_eq_self] using hsame
      · simp only [hclosed, hseq, Bool.false_eq_true, if_false]
        have hkeyed' : Keyed schedule session_id role
            { c.session role with next_send_seq := (c.session role).next_send_seq + 1 } :=
          { hkeyed with }
        split
        · have hskip := channelOk_update h role hkeyed' (line_skip hout) hin
          simp only [hclosed, Function.update_eq_self] at hskip
          exact hskip
        · rename_i frame hframe
          obtain ⟨hsealed, hnumber, _⟩ := sealFrame_ok hkeyed hclosed hframe
          have hsend := channelOk_update h role hkeyed' (line_send hout hsealed hnumber) hin
          simp only [hclosed, Function.update_eq_self] at hsend
          exact hsend
  | deliver role incoming =>
    have hkeyed := h.keyed role
    have hout := h.line role
    have hin := h.line role.peer
    rw [peer_peer] at hin
    simp only [Channel.step, RelayCryptoSession.open_envelope]
    by_cases hclosed : (c.session role).closed = true
    · simp only [hclosed, if_true, Function.update_eq_self]
      exact h
    · rw [Bool.not_eq_true] at hclosed
      by_cases hseq : (c.session role).next_receive_seq > relay_max_sequence
      · simp only [hclosed, hseq, if_true, Bool.false_eq_true, if_false]
        have hsame := channelOk_update h role (keyed_close hkeyed) hout hin
        simpa only [Function.update_eq_self] using hsame
      · simp only [hclosed, hseq, Bool.false_eq_true, if_false]
        cases hincoming : RelayCryptoSession.frameOf encodings incoming with
        | error e => simpa only [Function.update_eq_self] using h
        | ok frame =>
          cases hopen : (c.session role).openFrame encodings c.log frame with
          | error e => simpa only [hopen, Function.update_eq_self] using h
          | ok plaintext =>
            obtain ⟨_, e, hmem, hkey, haad, hplaintext⟩ := openFrame_ok hopen
            rw [hkeyed.receive_key hclosed] at hkey
            rw [hkeyed.session_id, hkeyed.receive_direction] at haad
            obtain ⟨sent, hsent, hsentseq, rfl, hop⟩ := on_line h hmem hkey haad
            have hmessage : heard (frame.op, plaintext) = heard (Channel.message sent) := by
              simp only [heard, Channel.message, hop, hplaintext]
            have hkeyed' : Keyed schedule session_id role
                { c.session role with
                  next_receive_seq := (c.session role).next_receive_seq + 1 } :=
              { hkeyed with }
            have haccept := channelOk_update h role hkeyed' hout
              (line_accept hin hsent hsentseq hmessage)
            simp only [hclosed, Function.update_eq_self] at haccept
            simp only [hopen]
            exact haccept
  | close role =>
    have hin := h.line role.peer
    rw [peer_peer] at hin
    have hclose := channelOk_update h role (keyed_close (h.keyed role)) (h.line role) hin
    simpa only [Channel.step, Function.update_eq_self] using hclose
  | foreign encryption =>
    simp only [Channel.step]
    split
    · exact h
    · rename_i hkey
      refine ⟨h.keyed, h.line, fun e he => ?_⟩
      rcases List.mem_append.mp he with he | he
      · exact h.foreign e he
      · rw [List.mem_singleton.mp he]
        intro direction heq
        cases direction with
        | phone_to_host => exact hkey (.inl heq)
        | host_to_phone => exact hkey (.inr heq)

theorem channel_run (steps : List Channel.Step) (h : ChannelOk schedule session_id c) :
    ChannelOk schedule session_id (c.run encodings encrypt schedule steps) := by
  induction steps generalizing c with
  | nil => exact h
  | cons step steps ih => exact ih (channel_step h step)

theorem channel_start (hstart : schedule.start = .ok c) :
    (∃ session_id, ChannelOk schedule session_id c) ∧
      (∀ role, c.sealed role = [] ∧ c.accepted role = []) := by
  unfold RelayV2KeySchedule.start RelayV2KeySchedule.session at hstart
  cases hsession : required_text (.text schedule.session_id) "session_id" with
  | error e => simp [hsession, bind, Except.bind] at hstart
  | ok session_id =>
    simp only [hsession, bind, Except.bind, pure, Except.pure, Except.ok.injEq] at hstart
    subst hstart
    refine ⟨⟨session_id, ?_, ?_, fun e he => absurd he List.not_mem_nil⟩, fun _ => ⟨rfl, rfl⟩⟩
    · intro role
      cases role with
      | phone | host => exact ⟨rfl, rfl, rfl, rfl, rfl, fun _ => rfl, fun _ => rfl⟩
    · intro role
      have hempty : Line schedule session_id role [] [] 1 1 :=
        ⟨fun f hf => absurd hf List.not_mem_nil, List.Pairwise.nil, [], [], rfl, rfl, rfl,
          le_refl 1, fun f hf => absurd hf List.not_mem_nil, fun f hf => absurd hf List.not_mem_nil⟩
      cases role with
      | phone => exact hempty
      | host => exact hempty

def sent (c : Channel) (role : Role) : List (Text × Bytes) :=
  (c.sealed role).map Channel.message

theorem accepted_of_sent (h : ChannelOk schedule session_id c) (role : Role) :
    (c.accepted role.peer).map heard <+: (sent c role).map heard := by
  obtain ⟨firsts, rest, hsplit, hheard, _⟩ := (h.line role).heard
  rw [hheard, sent, hsplit, List.map_append, List.map_append, List.map_map]
  exact List.prefix_append _ _

/-- Two frames of a channel with the same key and nonce have the same number and, if the
two lines differ in key or nonce prefix, the same sender. -/
theorem nonce_reused (h : ChannelOk schedule session_id c) {role other : Role}
    {f g : RelayV2Envelope × Encryption} (hf : f ∈ c.sealed role) (hg : g ∈ c.sealed other)
    (hnonce : f.2.nonce = g.2.nonce) :
    f.1.seq = g.1.seq ∧
      schedule.nonce_prefix_bytes role.direction = schedule.nonce_prefix_bytes other.direction := by
  obtain ⟨m, hm, _, hmmax, _, hmnonce⟩ := ((h.line role).frames f hf).number
  obtain ⟨n, hn, _, hnmax, _, hnnonce⟩ := ((h.line other).frames g hg).number
  rw [hmnonce, hnnonce] at hnonce
  have hlength : (schedule.nonce_prefix_bytes role.direction).length =
      (schedule.nonce_prefix_bytes other.direction).length := by
    rw [schedule.nonce_prefix_length, schedule.nonce_prefix_length]
  obtain ⟨hfront, hbytes⟩ := List.append_inj hnonce hlength
  have hmn := to_bytes_injective hmmax hnmax hbytes
  refine ⟨?_, hfront⟩
  rw [hm, hn, hmn]

theorem nonces_on_line (h : ChannelOk schedule session_id c) (role : Role) :
    ((c.sealed role).map fun f => (f.2.key, f.2.nonce)).Nodup := by
  refine List.pairwise_map.mpr ((h.line role).increasing.imp_of_mem ?_)
  intro f g hf hg hlt heq
  have hseq := (nonce_reused h hf hg (Prod.mk.inj heq).2).1
  omega

/-- Distinct directions of a schedule have different keys or different nonce prefixes. -/
def Apart (schedule : RelayV2KeySchedule) : Prop :=
  schedule.key .phone_to_host ≠ schedule.key .host_to_phone ∨
    schedule.nonce_prefix_bytes .phone_to_host ≠ schedule.nonce_prefix_bytes .host_to_phone

theorem nonces_nodup (h : ChannelOk schedule session_id c) (hapart : Apart schedule) :
    ((c.sealed .phone ++ c.sealed .host).map fun f => (f.2.key, f.2.nonce)).Nodup := by
  rw [List.map_append]
  refine List.nodup_append.mpr ⟨nonces_on_line h .phone, nonces_on_line h .host, ?_⟩
  intro a ha b hb hab
  obtain ⟨f, hf, rfl⟩ := List.mem_map.mp ha
  obtain ⟨g, hg, rfl⟩ := List.mem_map.mp hb
  obtain ⟨hkey, hnonce⟩ := Prod.mk.inj hab
  rw [((h.line .phone).frames f hf).key, ((h.line .host).frames g hg).key] at hkey
  rcases hapart with hkeys | hprefixes
  · exact hkeys hkey
  · exact hprefixes (nonce_reused h hf hg hnonce).2

theorem heard_injective {messages others : List (Text × Bytes)}
    (hmessages : ∀ m ∈ messages, Unpaired m.1) (hothers : ∀ m ∈ others, Unpaired m.1)
    (h : messages.map heard <+: others.map heard) : messages <+: others := by
  induction messages generalizing others with
  | nil => exact List.nil_prefix
  | cons m messages ih =>
    cases others with
    | nil => exact absurd (List.prefix_nil.mp h) (by simp)
    | cons n others =>
      rw [List.map_cons, List.map_cons, List.cons_prefix_cons] at h
      have hop := utf16_injective (hmessages m List.mem_cons_self)
        (hothers n List.mem_cons_self) (Prod.mk.inj h.1).1
      have hmn : m = n := Prod.ext hop (Prod.mk.inj h.1).2
      rw [hmn, List.cons_prefix_cons]
      refine ⟨rfl, ih (fun m hm => hmessages m (List.mem_cons_of_mem _ hm))
        (fun m hm => hothers m (List.mem_cons_of_mem _ hm)) h.2⟩

/-- **A relay channel delivers beginnings of what was sealed and never repeats a nonce.**
For texts without a high surrogate directly before a low one, the messages accepted are a
prefix of those sealed and the associated data determine their fields; an `open` that
raises leaves the session as it was unless it closes an exhausted one.
SOURCE: lib/mobile_gateway/relay_crypto.py:188-319 -/
theorem relay_channel_safe (encodings : Encodings)
    (encrypt : Bytes → Bytes → Bytes → Bytes → Option Bytes) (schedule : RelayV2KeySchedule)
    (start : Channel) (hstart : schedule.start = .ok start) (steps : List Channel.Step) :
    (∀ role, (((start.run encodings encrypt schedule steps).accepted role.peer).map heard <+:
        (sent (start.run encodings encrypt schedule steps) role).map heard)) ∧
    (∀ role,
      (∀ m ∈ (start.run encodings encrypt schedule steps).accepted role.peer, Unpaired m.1) →
      (∀ m ∈ sent (start.run encodings encrypt schedule steps) role, Unpaired m.1) →
      (start.run encodings encrypt schedule steps).accepted role.peer <+:
        sent (start.run encodings encrypt schedule steps) role) ∧
    (∀ role, (((start.run encodings encrypt schedule steps).sealed role).map
        fun f => (f.2.key, f.2.nonce)).Nodup) ∧
    (Apart schedule → (((start.run encodings encrypt schedule steps).sealed .phone
        ++ (start.run encodings encrypt schedule steps).sealed .host).map
          fun f => (f.2.key, f.2.nonce)).Nodup) ∧
    (∀ session_id session_id' direction direction' op op' key_id key_id' (seq seq' : ℤ),
      (∀ text ∈ [session_id, session_id', direction, direction', op, op', key_id, key_id'],
        Unpaired text) →
      relay_v2_aad session_id seq direction op key_id =
        relay_v2_aad session_id' seq' direction' op' key_id' →
      session_id = session_id' ∧ seq = seq' ∧ direction = direction' ∧ op = op' ∧
        key_id = key_id') ∧
    (∀ (s : RelayCryptoSession) log incoming e,
      (s.open_envelope encodings log incoming).1 = .error e →
      (s.open_envelope encodings log incoming).2 =
        if ¬ s.closed ∧ s.next_receive_seq > relay_max_sequence then s.close else s) := by
  obtain ⟨⟨session_id, hok⟩, _⟩ := channel_start hstart
  have hrun : ChannelOk schedule session_id (start.run encodings encrypt schedule steps) :=
    channel_run steps hok
  refine ⟨fun role => accepted_of_sent hrun role, ?_, nonces_on_line hrun,
    nonces_nodup hrun, ?_, fun s log incoming e h => open_error h⟩
  · intro role haccepted hsent
    exact heard_injective haccepted hsent (accepted_of_sent hrun role)
  · intro session_id session_id' direction direction' op op' key_id key_id' seq seq' hunpaired h
    obtain ⟨hsession, hseq, hdirection, hop, hkey⟩ := relay_v2_aad_inj h
    have hinj : ∀ {t u : Text}, Unpaired t → Unpaired u → utf16 t = utf16 u → t = u :=
      utf16_injective
    exact ⟨hinj (hunpaired _ (by simp)) (hunpaired _ (by simp)) hsession, hseq,
      hinj (hunpaired _ (by simp)) (hunpaired _ (by simp)) hdirection,
      hinj (hunpaired _ (by simp)) (hunpaired _ (by simp)) hop,
      hinj (hunpaired _ (by simp)) (hunpaired _ (by simp)) hkey⟩

/-- No text of an example stands for an integer. -/
def plainEncodings : Encodings :=
  { b64 := base64, b64decode := base64Decode, int_of_text := fun _ => none }

/-- A cipher that seals nothing, for ChaCha20-Poly1305: each text opens to itself. -/
def plainEncrypt (_key _nonce plaintext _aad : Bytes) : Option Bytes := some plaintext

def exampleSchedule : RelayV2KeySchedule :=
  { session_id := asciiText "session"
    key := fun d => if d = .phone_to_host then List.replicate 32 1 else List.replicate 32 2
    nonce_prefix_bytes := fun _ => [0, 0, 0, 1]
    key_length := fun d => by cases d <;> rfl
    nonce_prefix_length := fun _ => rfl }

/-- The channel of `exampleSchedule` before anything is sent. -/
def exampleChannel : Channel :=
  let session := fun role : Role =>
    { session_id := asciiText "session"
      send_direction := role.direction
      receive_direction := role.peer.direction
      send_key := exampleSchedule.key role.direction
      receive_key := exampleSchedule.key role.peer.direction
      send_nonce_prefix_bytes := exampleSchedule.nonce_prefix_bytes role.direction
      receive_nonce_prefix_bytes := exampleSchedule.nonce_prefix_bytes role.peer.direction
      next_send_seq := 1
      next_receive_seq := 1
      closed := false : RelayCryptoSession }
  { session := session
    sealed := fun _ => []
    accepted := fun _ => []
    foreign := [] }

theorem exampleChannel_start : exampleSchedule.start = .ok exampleChannel := by
  have hsession : required_text (.text exampleSchedule.session_id) "session_id" =
      .ok (asciiText "session") := by decide
  unfold RelayV2KeySchedule.start RelayV2KeySchedule.session
  rw [hsession]
  simp only [bind, Except.bind, pure, Except.pure, exampleChannel, Except.ok.injEq,
    Channel.mk.injEq, and_self, and_true]
  funext role
  cases role <;> rfl

/-- A pair of surrogates, and the character that they encode. -/
def surrogates : Text := [0xD800, 0xDC00]
def encoded : Text := [0x10000]

/-- The phone seals under the pair of surrogates, and the network writes the character. -/
def rewritten : List Channel.Step :=
  [.send .phone surrogates [7],
    .deliver .host (.envelope
      { session_id := asciiText "session"
        seq := 1
        direction := .phone_to_host
        op := encoded
        nonce_b64 := plainEncodings.b64 ([0, 0, 0, 1] ++ to_bytes 1)
        ciphertext_b64 := plainEncodings.b64 [7]
        key_id := relay_key_id
        schema_version := relay_protocol_version })]

def exhausted : RelayCryptoSession :=
  { exampleChannel.session .host with next_receive_seq := relay_max_sequence + 1 }

theorem relay_channel_safe_rewritten :
    ((exampleChannel.run plainEncodings plainEncrypt exampleSchedule rewritten).accepted
        (Role.peer .phone)).map heard <+:
      (sent (exampleChannel.run plainEncodings plainEncrypt exampleSchedule rewritten)
        .phone).map heard :=
  (relay_channel_safe plainEncodings plainEncrypt exampleSchedule exampleChannel
    exampleChannel_start rewritten).1 .phone

/-- A host accepts what was not sealed, two operations have the same associated data, and
an `open` that raises closes the session it leaves. -/
theorem relay_aad_collision :
    ¬ (exampleChannel.run plainEncodings plainEncrypt exampleSchedule rewritten).accepted .host <+:
        sent (exampleChannel.run plainEncodings plainEncrypt exampleSchedule rewritten) .phone ∧
    surrogates ≠ encoded ∧
    relay_v2_aad (asciiText "session") 1 (asciiText "phone_to_host") surrogates relay_key_id =
      relay_v2_aad (asciiText "session") 1 (asciiText "phone_to_host") encoded relay_key_id ∧
    (exhausted.open_envelope plainEncodings [] (.json ⟨[], .nil⟩)).1 =
      .error (.relay "relay v2 sequence exhausted") ∧
    (exhausted.open_envelope plainEncodings [] (.json ⟨[], .nil⟩)).2 ≠ exhausted := by
  refine ⟨by decide +kernel, by decide, by decide +kernel, ?_, by decide +kernel⟩
  decide

end ClaudeCodeBridge.Analysis.Relay
