import ClaudeCodeBridge.Analysis.RelayChannel
import ClaudeCodeBridge.Model.RelaySender
import ClaudeCodeBridge.Program.Moves

/-!
# The sealed stream of a session

An envelope has its numbers before its frame is written.  The send lock keeps the frames in
the order of their numbers, and a task that is cut off in between leaves a gap.  Without
such a cut the frames of an open session are numbered without a gap, from 1 by `seal` and
from 3 in the relay's own frames, where 1 and 2 are those of the handshake.

The ladder: what a seal leaves (`seal_cases`); what a turn keeps (`kept_turn`); the runs
(`sender_run`); the result (`sealed_stream_in_order`).
-/

set_option autoImplicit false

namespace ClaudeCodeBridge.Analysis.Relay

open Program
open Model.Relay

variable {encodings : Encodings} {encrypt : Bytes → Bytes → Bytes → Bytes → Option Bytes}
  {schedule : RelayV2KeySchedule} {session_id : Text} {s : RelaySender} {i : TaskId}

/-- The cipher raises for none of the messages of the session. -/
def Encrypts (encrypt : Bytes → Bytes → Bytes → Bytes → Option Bytes)
    (schedule : RelayV2KeySchedule) (session_id : Text) : Prop :=
  ∀ (nonce plaintext : Bytes) (seq : ℤ), nonce.length = 12 →
    plaintext.length ≤ relay_stream_max_message_bytes →
    (encrypt (schedule.key .host_to_phone) nonce plaintext
      (relay_v2_aad session_id seq RelayDirection.host_to_phone.value relay_inner_operation
        relay_key_id)).isSome

theorem inOrder_append {crypto_seq outer_seq : ℕ} {frames : List EnvelopeFrame}
    {frame : EnvelopeFrame} (h : InOrder crypto_seq outer_seq frames)
    (hcrypto : frame.envelope.seq = crypto_seq + frames.length)
    (houter : frame.seq = outer_seq + frames.length) :
    InOrder crypto_seq outer_seq (frames ++ [frame]) := by
  induction frames generalizing crypto_seq outer_seq with
  | nil => exact ⟨hcrypto, houter, trivial⟩
  | cons first rest ih =>
    obtain ⟨hfirst, hfirst', hrest⟩ := h
    refine ⟨hfirst, hfirst', ih hrest ?_ ?_⟩
    · rw [hcrypto, List.length_cons]
      push_cast
      omega
    · rw [houter, List.length_cons]
      omega

def pending : SendPoint → List EnvelopeFrame
  | .writing frame => [frame]
  | _ => []

def Inside : SendPoint → Prop
  | .writing _ => True
  | .draining => True
  | _ => False

def stream (s : RelaySender) : List EnvelopeFrame :=
  match s.send_lock with
  | none => s.written
  | some i => s.written ++ pending (s.task i)

structure SenderKept (schedule : RelayV2KeySchedule) (session_id : Text) (s : RelaySender) :
    Prop where
  keyed : Keyed schedule session_id .host s.crypto
  pos : 1 ≤ s.crypto.next_send_seq
  inside : ∀ i, Inside (s.task i) ↔ s.send_lock = some i
  /-- Until the session is closed. -/
  order : s.closed = false → InOrder 1 3 (stream s)
  next_send : s.closed = false → s.crypto.next_send_seq = 1 + (stream s).length
  next_outer : s.closed = false → s.next_outer_seq = 3 + (stream s).length

theorem kept_start {crypto : RelayCryptoSession} (hsession : schedule.session .host = .ok crypto) :
    SenderKept schedule crypto.session_id (.start crypto) := by
  unfold RelayV2KeySchedule.session at hsession
  cases htext : required_text (.text schedule.session_id) "session_id" with
  | error e => simp [htext, bind, Except.bind] at hsession
  | ok session_id =>
    simp only [htext, bind, Except.bind, pure, Except.pure, Except.ok.injEq] at hsession
    subst hsession
    refine ⟨⟨rfl, rfl, rfl, rfl, rfl, fun _ => rfl, fun _ => rfl⟩, Nat.le_refl _, ?_, ?_, ?_, ?_⟩
    · intro i
      simp [RelaySender.start, Inside]
    · intro _
      exact trivial
    · intro _
      rfl
    · intro _
      rfl

theorem nonce_numbered (encodings : Encodings) {nonce_prefix_bytes : Bytes} {sequence : ℕ}
    (hlength : nonce_prefix_bytes.length = 4) (hlow : 1 ≤ sequence)
    (hhigh : sequence ≤ relay_max_sequence) :
    ∃ bytes, nonce encodings nonce_prefix_bytes sequence = .ok bytes ∧ bytes.length = 12 := by
  have hlow' : ¬ (sequence : ℤ) < 1 := by omega
  have hhigh' : ¬ (sequence : ℤ) > relay_max_sequence := by omega
  refine ⟨nonce_prefix_bytes ++ to_bytes sequence, ?_, ?_⟩
  · unfold nonce
    simp [hlength, sequence_int, intOf, JsonValue.ofInt, hlow', hhigh', bind, Except.bind, pure,
      Except.pure]
  · rw [List.length_append, hlength]
    simp [to_bytes]

/-- A seal that succeeds gives the next number, and one that raises takes none. -/
theorem seal_cases (encodings : Encodings) {crypto : RelayCryptoSession}
    (hkeyed : Keyed schedule session_id .host crypto)
    (hencrypts : Encrypts encrypt schedule session_id) (hpos : 1 ≤ crypto.next_send_seq)
    (message : InnerBytes) :
    let outcome := crypto.seal_message encodings encrypt relay_inner_operation message.bytes
    Keyed schedule session_id .host outcome.2 ∧
    ((∃ e, outcome.1 = .error e) ∧ outcome.2.next_send_seq = crypto.next_send_seq ∨
      ∃ frame, outcome.1 = .ok frame ∧ frame.1.seq = crypto.next_send_seq ∧
        outcome.2.next_send_seq = crypto.next_send_seq + 1) := by
  intro outcome
  by_cases hclosed : crypto.closed = true
  · have houtcome : outcome = (.error (.relay "relay v2 session is closed"), crypto) :=
      if_pos hclosed
    rw [houtcome]
    exact ⟨hkeyed, .inl ⟨⟨_, rfl⟩, rfl⟩⟩
  · by_cases hmax : crypto.next_send_seq > relay_max_sequence
    · have houtcome : outcome = (.error (.relay "relay v2 sequence exhausted"), crypto.close) :=
        (if_neg hclosed).trans (if_pos hmax)
      rw [houtcome]
      exact ⟨keyed_close hkeyed, .inl ⟨⟨_, rfl⟩, rfl⟩⟩
    · have houtcome : outcome = (crypto.sealFrame encodings encrypt crypto.next_send_seq
          relay_inner_operation message.bytes,
          { crypto with next_send_seq := crypto.next_send_seq + 1 }) :=
        (if_neg hclosed).trans (if_neg hmax)
      have hopen : crypto.closed = false := Bool.not_eq_true _ ▸ hclosed
      have hframe : ∃ frame, crypto.sealFrame encodings encrypt crypto.next_send_seq
          relay_inner_operation message.bytes = .ok frame := by
        have hfour : crypto.send_nonce_prefix_bytes.length = 4 := by
          rw [hkeyed.send_nonce_prefix_bytes]
          exact schedule.nonce_prefix_length _
        obtain ⟨bytes, hnonce, hlength⟩ :=
          nonce_numbered encodings hfour hpos (Nat.le_of_not_lt hmax)
        have hcipher := hencrypts bytes message.bytes crypto.next_send_seq hlength message.length_le
        obtain ⟨ciphertext, hciphertext⟩ := Option.isSome_iff_exists.mp hcipher
        unfold RelayCryptoSession.sealFrame
        rw [hkeyed.session_id, hkeyed.send_direction, hkeyed.send_key hopen]
        rw [hnonce]
        simp only [bind, Except.bind]
        have hciphertext' : encrypt (schedule.key Role.host.direction) bytes message.bytes
            (relay_v2_aad session_id crypto.next_send_seq Role.host.direction.value
              relay_inner_operation relay_key_id) = some ciphertext := hciphertext
        rw [hciphertext']
        exact ⟨_, rfl⟩
      obtain ⟨frame, hframe⟩ := hframe
      obtain ⟨_, hseq, _⟩ := sealFrame_ok hkeyed hopen hframe
      rw [houtcome]
      exact ⟨{ hkeyed with }, .inr ⟨frame, hframe, hseq, rfl⟩⟩

variable {s' : RelaySender}

section

variable (h : SenderKept schedule session_id s)

include h

/-- A task moves outside of the lock, and no frame is written. -/
theorem kept_outside {point : SendPoint}
    (hm : Moved s.task s'.task i point) (hpoint : ¬ Inside point) (hbefore : ¬ Inside (s.task i))
    (hkeyed : Keyed schedule session_id .host s'.crypto)
    (hnext : s'.crypto.next_send_seq = s.crypto.next_send_seq)
    (houter : s'.next_outer_seq = s.next_outer_seq) (hclosed : s'.closed = s.closed)
    (hlock : s'.send_lock = s.send_lock) (hwritten : s'.written = s.written) :
    SenderKept schedule session_id s' := by
  have hinside : ∀ j, Inside (s'.task j) ↔ s'.send_lock = some j := by
    intro j
    rw [hlock, ← h.inside j]
    rcases hm.cases j with ⟨rfl, hself⟩ | ⟨_, hother⟩
    · rw [hself]
      exact iff_of_false hpoint hbefore
    · rw [hother]
  have hstream : stream s' = stream s := by
    unfold stream
    rw [hlock, hwritten]
    cases hholder : s.send_lock with
    | none => rfl
    | some k =>
      have hne : k ≠ i := by
        rintro rfl
        exact hbefore ((h.inside k).mpr hholder)
      dsimp only
      rw [hm.other k hne]
  refine ⟨hkeyed, ?_, hinside, ?_, ?_, ?_⟩
  · rw [hnext]
    exact h.pos
  · rw [hclosed, hstream]
    exact h.order
  · rw [hclosed, hstream, hnext]
    exact h.next_send
  · rw [hclosed, hstream, houter]
    exact h.next_outer

/-- The task that holds the lock leaves it, and its frame is written. -/
theorem kept_release (hinside : Inside (s.task i))
    (hpending : s.closed = true ∨ pending (s.task i) = []) :
    SenderKept schedule session_id (s.release i) := by
  have hholder := (h.inside i).mp hinside
  have hm : Moved s.task (s.release i).task i .idle := moved_update _ _ _
  have hinside' : ∀ j, Inside ((s.release i).task j) ↔ (s.release i).send_lock = some j := by
    intro j
    refine iff_of_false ?_ (by simp [RelaySender.release, RelaySender.goto])
    rcases hm.cases j with ⟨rfl, hself⟩ | ⟨hne, hother⟩
    · rw [hself]
      exact fun h => h
    · rw [hother, h.inside j, hholder]
      intro heq
      exact hne (Option.some.inj heq).symm
  have hstream : s.closed = false → stream (s.release i) = stream s := by
    intro hopen
    rcases hpending with hclosed | hnone
    · rw [hopen] at hclosed
      cases hclosed
    · unfold stream
      rw [hholder]
      dsimp only
      rw [hnone, List.append_nil]
      rfl
  refine ⟨h.keyed, h.pos, hinside', ?_, ?_, ?_⟩
  · intro hopen
    rw [hstream hopen]
    exact h.order hopen
  · intro hopen
    rw [hstream hopen]
    exact h.next_send hopen
  · intro hopen
    rw [hstream hopen]
    exact h.next_outer hopen

theorem kept_written {frame : EnvelopeFrame} (hi : s.task i = .writing frame) :
    SenderKept schedule session_id
      ({ s with written := s.written ++ [frame] }.goto i .draining) := by
  have hholder : s.send_lock = some i := (h.inside i).mp (by rw [hi]; trivial)
  have hm : Moved s.task (Function.update s.task i .draining) i .draining := moved_update _ _ _
  have hstream : stream ({ s with written := s.written ++ [frame] }.goto i .draining) =
      stream s := by
    unfold stream RelaySender.goto
    dsimp only
    rw [hholder]
    dsimp only
    rw [hm.self, hi]
    exact List.append_nil _
  refine ⟨h.keyed, h.pos, ?_, ?_, ?_, ?_⟩
  · intro j
    show Inside (Function.update s.task i .draining j) ↔ s.send_lock = some j
    rw [← h.inside j]
    rcases hm.cases j with ⟨rfl, hself⟩ | ⟨_, hother⟩
    · rw [hself, hi]
      exact Iff.rfl
    · rw [hother]
  · intro hopen
    rw [hstream]
    exact h.order hopen
  · intro hopen
    rw [hstream]
    exact h.next_send hopen
  · intro hopen
    rw [hstream]
    exact h.next_outer hopen

theorem kept_sealed (hencrypts : Encrypts encrypt schedule session_id) {message : Option InnerBytes}
    (hi : s.task i = .waiting message) (hfree : s.send_lock = none) :
    SenderKept schedule session_id (s.sealed encodings encrypt i message) := by
  have hout : ¬ Inside (s.task i) := by
    rw [hi]
    exact fun h => h
  cases message with
  | none => exact kept_outside h (moved_update ..) (fun h => h) hout h.keyed rfl rfl rfl rfl rfl
  | some message =>
    obtain ⟨hkeyed, hcases⟩ := seal_cases encodings h.keyed hencrypts h.pos message
    unfold RelaySender.sealed
    dsimp only at hkeyed hcases ⊢
    generalize s.crypto.seal_message encodings encrypt relay_inner_operation message.bytes =
      outcome at hkeyed hcases ⊢
    obtain ⟨result, crypto⟩ := outcome
    dsimp only at hkeyed hcases ⊢
    rcases hcases with ⟨⟨e, rfl⟩, hnext⟩ | ⟨⟨envelope, encryption⟩, rfl, hseq, hnext⟩
    · exact kept_outside h (moved_update ..) (fun h => h) hout hkeyed hnext rfl rfl rfl rfl
    · have hstream : stream s = s.written := by
        unfold stream
        rw [hfree]
      have hm : Moved s.task (Function.update s.task i (.writing ⟨s.next_outer_seq, envelope⟩)) i
        (.writing ⟨s.next_outer_seq, envelope⟩) := moved_update _ _ _
      have hstream' : stream ({ s with
          crypto := crypto
          next_outer_seq := s.next_outer_seq + 1
          send_lock := some i }.goto i (.writing ⟨s.next_outer_seq, envelope⟩)) =
            stream s ++ [⟨s.next_outer_seq, envelope⟩] := by
        rw [hstream]
        unfold stream RelaySender.goto
        dsimp only
        rw [hm.self]
        rfl
      refine ⟨hkeyed, ?_, ?_, ?_, ?_, ?_⟩
      · show 1 ≤ crypto.next_send_seq
        omega
      · intro j
        show Inside (Function.update s.task i _ j) ↔ some i = some j
        rcases hm.cases j with ⟨rfl, hself⟩ | ⟨hne, hother⟩
        · rw [hself]
          exact iff_of_true trivial rfl
        · rw [hother, h.inside j, hfree]
          refine iff_of_false (by simp) ?_
          intro heq
          exact hne (Option.some.inj heq).symm
      · intro hopen
        rw [hstream']
        apply inOrder_append (h.order hopen)
        · rw [hseq, h.next_send hopen]
          push_cast
          omega
        · exact h.next_outer hopen
      · intro hopen
        show crypto.next_send_seq = _
        rw [hstream', hnext, h.next_send hopen, List.length_append, List.length_singleton]
        omega
      · intro hopen
        show s.next_outer_seq + 1 = _
        rw [hstream', h.next_outer hopen, List.length_append, List.length_singleton]
        omega

theorem kept_turn (hencrypts : Encrypts encrypt schedule session_id) (i : TaskId) :
    SenderKept schedule session_id (s.turn encodings encrypt i) := by
  unfold RelaySender.turn
  cases hi : s.task i with
  | idle => exact h
  | waiting message =>
    dsimp only
    cases hfree : s.send_lock with
    | some _ => exact h
    | none => exact kept_sealed h hencrypts hi hfree
  | writing frame => exact kept_written h hi
  | draining =>
    apply kept_release h
    · rw [hi]
      trivial
    · rw [hi]
      exact .inr rfl

theorem kept_cut (i : TaskId) (huncut : s.closed = true ∨ pending (s.task i) = []) :
    SenderKept schedule session_id (s.cut i) := by
  unfold RelaySender.cut
  cases hi : s.task i with
  | idle => exact h
  | waiting message =>
    have hout : ¬ Inside (s.task i) := by
      rw [hi]
      exact fun h => h
    exact kept_outside h (moved_update ..) (fun h => h) hout h.keyed rfl rfl rfl rfl rfl
  | writing frame | draining => exact kept_release h (by rw [hi]; trivial) huncut

end

/-- A task is cut off between a seal and the write of its frame, while the session is open. -/
def Severs (s : RelaySender) : RelaySender.Step → Prop
  | .cut i => s.closed = false ∧ pending (s.task i) ≠ []
  | _ => False

def UnseveredRun (encodings : Encodings) (encrypt : Bytes → Bytes → Bytes → Bytes → Option Bytes) :
    List RelaySender.Step → RelaySender → Prop
  | [], _ => True
  | c :: steps, s =>
    ¬ Severs s c ∧ UnseveredRun encodings encrypt steps (s.step encodings encrypt c)

theorem kept_step (h : SenderKept schedule session_id s)
    (hencrypts : Encrypts encrypt schedule session_id) (c : RelaySender.Step)
    (hc : ¬ Severs s c) : SenderKept schedule session_id (s.step encodings encrypt c) := by
  cases c with
  | send i message =>
    simp only [RelaySender.step]
    cases hi : s.task i with
    | idle =>
      dsimp only
      split
      · exact h
      · have hout : ¬ Inside (s.task i) := by
          rw [hi]
          exact fun h => h
        exact kept_outside h (moved_update ..) (fun h => h) hout h.keyed rfl rfl rfl rfl rfl
    | waiting message | writing frame | draining => exact h
  | turn i => exact kept_turn h hencrypts i
  | cut i =>
    apply kept_cut h
    cases hclosed : s.closed with
    | true => exact .inl rfl
    | false =>
      right
      by_contra hpending
      exact hc ⟨hclosed, hpending⟩
  | close =>
    have hnever : ∀ {P : Prop}, true = false → P := fun h => by cases h
    exact ⟨h.keyed, h.pos, h.inside, hnever, hnever, hnever⟩
  | close_crypto =>
    simp only [RelaySender.step]
    split
    · rename_i hclosed
      have hnever : ∀ {P : Prop}, s.closed = false → P := fun h => by simp [h] at hclosed
      exact ⟨keyed_close h.keyed, h.pos, h.inside, hnever, hnever, hnever⟩
    · exact h
  | close_ws => exact ⟨h.keyed, h.pos, h.inside, h.order, h.next_send, h.next_outer⟩

theorem sender_run (steps : List RelaySender.Step) (h : SenderKept schedule session_id s)
    (hencrypts : Encrypts encrypt schedule session_id)
    (hrun : UnseveredRun encodings encrypt steps s) :
    SenderKept schedule session_id (s.run encodings encrypt steps) := by
  unfold RelaySender.run
  induction steps generalizing s with
  | nil => exact h
  | cons c steps ih => exact ih (kept_step h hencrypts c hrun.1) hrun.2

theorem inOrder_first {crypto_seq outer_seq : ℕ} {frames rest : List EnvelopeFrame}
    (h : InOrder crypto_seq outer_seq (frames ++ rest)) : InOrder crypto_seq outer_seq frames := by
  induction frames generalizing crypto_seq outer_seq with
  | nil => trivial
  | cons frame frames ih => exact ⟨h.1, h.2.1, ih h.2.2⟩

/-- In a run in which no task is cut off between a seal and the write of its frame, the
frames that an open session has written have the numbers from 1 on of `seal`, and the
numbers from 3 on of the relay. -/
theorem sealed_stream_in_order (encodings : Encodings)
    (encrypt : Bytes → Bytes → Bytes → Bytes → Option Bytes) (schedule : RelayV2KeySchedule)
    (crypto : RelayCryptoSession) (hsession : schedule.session .host = .ok crypto)
    (hencrypts : Encrypts encrypt schedule crypto.session_id) (steps : List RelaySender.Step)
    (hrun : UnseveredRun encodings encrypt steps (.start crypto))
    (hopen : ((RelaySender.start crypto).run encodings encrypt steps).closed = false) :
    InOrder 1 3 ((RelaySender.start crypto).run encodings encrypt steps).written := by
  have h := sender_run steps (kept_start hsession) hencrypts hrun
  have horder := h.order hopen
  unfold stream at horder
  split at horder
  · exact horder
  · exact inOrder_first horder

section Runs

/-- The host's session of `exampleSchedule`. -/
def exampleHost : RelayCryptoSession := exampleChannel.session .host

theorem exampleHost_session : exampleSchedule.session .host = .ok exampleHost := by
  have hsession : required_text (.text exampleSchedule.session_id) "session_id" =
      .ok (asciiText "session") := by decide
  unfold RelayV2KeySchedule.session
  rw [hsession]
  rfl

def exampleMessage : InnerBytes := ⟨ascii "\x7b\x7d", by decide⟩

/-- Two tasks send at once. -/
def sentTogether : List RelaySender.Step :=
  [.send 0 (some exampleMessage), .send 1 (some exampleMessage), .turn 0, .turn 1, .turn 0,
    .turn 0, .turn 1, .turn 1]

theorem sealed_stream_in_order_together :
    InOrder 1 3 ((RelaySender.start exampleHost).run plainEncodings plainEncrypt
      sentTogether).written :=
  sealed_stream_in_order plainEncodings plainEncrypt exampleSchedule exampleHost
    exampleHost_session (fun _ _ _ _ _ => rfl) sentTogether
    ⟨id, id, id, id, id, id, id, id, trivial⟩ rfl

/-- A task sends, then it is cut off with a second frame, and another task sends. -/
def severed : List RelaySender.Step :=
  [.send 0 (some exampleMessage), .turn 0, .turn 0, .turn 0,
    .send 0 (some exampleMessage), .turn 0, .cut 0,
    .send 1 (some exampleMessage), .turn 1, .turn 1]

/-- The numbers of the frame that was not written are missing from the stream of the open
session, whose first frame has the relay's number 3. -/
theorem severed_leaves_gap :
    let s := (RelaySender.start exampleHost).run plainEncodings plainEncrypt severed
    s.closed = false ∧ s.written.map (fun frame => (frame.envelope.seq, frame.seq)) =
      [(1, 3), (3, 5)] ∧ ¬ InOrder 1 1 s.written := by
  have hnumbers : (((RelaySender.start exampleHost).run plainEncodings plainEncrypt
      severed).written.map fun frame => (frame.envelope.seq, frame.seq)) = [(1, 3), (3, 5)] := by
    decide
  refine ⟨rfl, hnumbers, ?_⟩
  intro horder
  generalize ((RelaySender.start exampleHost).run plainEncodings plainEncrypt severed).written =
    frames at hnumbers horder
  cases frames with
  | nil => cases hnumbers
  | cons frame frames =>
    have hfirst : frame.seq = 3 := congrArg Prod.snd (List.cons.inj hnumbers).1
    rw [horder.2.1] at hfirst
    cases hfirst

end Runs

end ClaudeCodeBridge.Analysis.Relay
