import ClaudeCodeBridge.Model.RelayStreams

/-!
# The credit of streams

Credit is spent before data are sent, and restored before its window is announced.  So the
data that are written never exceed the credit that was received, and a peer that keeps to
the windows that were written, and gives back no more than the data that were written, is
never refused for credit.

The ladder: what is on its way about a stream (`StreamKept`); the steps of its producer
(`StreamKept.produce_step`); the steps of the read loop (`session_step`); what a peer keeps to
(`Compliant`, `fair_step`); the runs (`stream_credit`).
-/

set_option autoImplicit false

namespace ClaudeCodeBridge.Analysis.Relay

open Program
open Model.Relay

variable {config : StreamConfig} {s s' : HostSession} {id : StreamId} {stream : HostStream}
  {reader reader' : ReaderPoint}

def dataOf : HostMessage → ℕ
  | .stream_data size => size
  | _ => 0

def windowOf : HostMessage → ℕ
  | .stream_window credit_bytes => credit_bytes
  | _ => 0

def produced : ProducerPoint → HostMessage
  | .sending message _ => message
  | _ => .stream_close .completed

/-- The message that the read loop sends about a stream. -/
def answered (reader : ReaderPoint) (id : StreamId) : HostMessage :=
  match reader with
  | .sending j message _ => if j = id then message else .stream_close .completed
  | _ => .stream_close .completed

/-- The credit that the read loop is about to add. -/
def crediting (reader : ReaderPoint) (id : StreamId) : ℕ :=
  match reader with
  | .crediting j credit_bytes => if j = id then credit_bytes.bytes else 0
  | _ => 0

def Awaiting (reader : ReaderPoint) (id : StreamId) : Prop :=
  match reader with
  | .awaiting_ready j _ => j = id
  | _ => False

def Forwarding (reader : ReaderPoint) (id : StreamId) : Prop :=
  match reader with
  | .forwarding j _ => j = id
  | _ => False

/-- The producer is still to announce the stream's window. -/
def Ungranted : ProducerPoint → Prop
  | .opening => True
  | .opened => True
  | .waiting _ .opened => True
  | .sending _ .opened => True
  | _ => False

structure StreamKept (reader : ReaderPoint) (id : StreamId) (stream : HostStream) : Prop where
  nonneg : 0 ≤ stream.outbound_credit
  le_max : stream.outbound_credit ≤ relay_stream_max_window_bytes
  open_le : stream.open_credit ≤ relay_stream_max_window_bytes
  spent : stream.sent + dataOf (produced stream.producer) + dataOf (answered reader id) +
    stream.outbound_credit + crediting reader id ≤ stream.open_credit + stream.received_credit
  announced : stream.granted + windowOf (produced stream.producer) +
    windowOf (answered reader id) ≤ stream.inbound_credit + stream.received
  ungranted : Ungranted stream.producer → stream.granted + windowOf (produced stream.producer) +
    windowOf (answered reader id) = 0 ∧ ¬ Forwarding reader id ∧
    (stream.ready = true → stream.listed = false ∧ ¬ Awaiting reader id)
  upload : stream.operation = .file_upload → ¬ Ungranted stream.producer

/-- Nothing about the stream is under way in the read loop. -/
structure Quiet (reader : ReaderPoint) (id : StreamId) : Prop where
  data : dataOf (answered reader id) = 0
  window : windowOf (answered reader id) = 0
  credit : crediting reader id = 0
  awaiting : ¬ Awaiting reader id
  forwarding : ¬ Forwarding reader id

theorem StreamKept.quiet (h : StreamKept reader id stream) (hquiet : Quiet reader' id) :
    StreamKept reader' id stream := by
  obtain ⟨hdata, hwindow, hcredit, hawaiting, hforwarding⟩ := hquiet
  refine ⟨h.nonneg, h.le_max, h.open_le, ?_, ?_, ?_, h.upload⟩
  · rw [hdata, hcredit]
    have := h.spent
    omega
  · rw [hwindow]
    have := h.announced
    omega
  · intro hungranted
    obtain ⟨hnone, _, hready⟩ := h.ungranted hungranted
    refine ⟨?_, hforwarding, ?_⟩
    · rw [hwindow]
      omega
    · intro hr
      exact ⟨(hready hr).1, hawaiting⟩

theorem quiet_read (id : StreamId) : Quiet .read id :=
  ⟨rfl, rfl, rfl, fun h => h, fun h => h⟩

theorem quiet_joining (j id : StreamId) : Quiet (.joining j) id :=
  ⟨rfl, rfl, rfl, fun h => h, fun h => h⟩

theorem answered_other {j : StreamId} {message : HostMessage} {next : ReaderNext} (hne : j ≠ id) :
    answered (.sending j message next) id = .stream_close .completed := if_neg hne

theorem answered_self {message : HostMessage} {next : ReaderNext} :
    answered (.sending id message next) id = message := if_pos rfl

theorem quiet_notice {message : HostMessage} (hdata : dataOf message = 0)
    (hwindow : windowOf message = 0) (j id : StreamId) (next : ReaderNext) :
    Quiet (.sending j message next) id := by
  by_cases hj : j = id
  · rw [hj]
    refine ⟨?_, ?_, rfl, fun h => h, fun h => h⟩
    · rw [answered_self]
      exact hdata
    · rw [answered_self]
      exact hwindow
  · refine ⟨?_, ?_, rfl, fun h => h, fun h => h⟩
    · rw [answered_other hj]
      rfl
    · rw [answered_other hj]
      rfl

theorem quiet_other {j : StreamId} (message : HostMessage) (next : ReaderNext) (hne : id ≠ j) :
    Quiet (.sending j message next) id := by
  refine ⟨?_, ?_, rfl, fun h => h, fun h => h⟩
  · rw [answered_other (Ne.symm hne)]
    rfl
  · rw [answered_other (Ne.symm hne)]
    rfl

theorem StreamKept.moves (h : StreamKept reader id stream) {point : ProducerPoint}
    (hdata : dataOf (produced point) ≤ dataOf (produced stream.producer))
    (hwindow : windowOf (produced point) ≤ windowOf (produced stream.producer))
    (hungranted : Ungranted point → Ungranted stream.producer) :
    StreamKept reader id { stream with producer := point } := by
  refine ⟨h.nonneg, h.le_max, h.open_le, ?_, ?_, ?_, fun hop hpoint => ?_⟩
  · have := h.spent
    dsimp only
    omega
  · have := h.announced
    dsimp only
    omega
  rotate_left
  · exact h.upload hop (hungranted hpoint)
  · intro hpoint
    obtain ⟨hnone, hforwarding, hready⟩ := h.ungranted (hungranted hpoint)
    refine ⟨?_, hforwarding, hready⟩
    dsimp only
    omega

theorem StreamKept.fail (h : StreamKept reader id stream) (session_closed : Bool) :
    StreamKept reader id (stream.fail session_closed) := by
  unfold HostStream.fail
  split
  · exact h.moves (Nat.zero_le _) (Nat.zero_le _) (fun h => h.elim)
  · exact h.moves (Nat.zero_le _) (Nat.zero_le _) (fun h => h.elim)

theorem StreamKept.unsent (h : StreamKept reader id stream) (session_closed : Bool)
    (next : ProducerNext) : StreamKept reader id (stream.unsent session_closed next) := by
  unfold HostStream.unsent
  split
  · exact h.moves (Nat.zero_le _) (Nat.zero_le _) (fun h => h.elim)
  · exact h.moves (Nat.zero_le _) (Nat.zero_le _) (fun h => h.elim)
  · exact h.fail session_closed

theorem StreamKept.produce (h : StreamKept reader id stream) (session_closed : Bool) (size : ℕ)
    {next : ProducerNext} (hnext : next = .opened → Ungranted stream.producer) :
    StreamKept reader id (stream.produce session_closed size next) := by
  unfold HostStream.produce
  split
  · exact h.fail session_closed
  · apply h.moves (Nat.zero_le _) (Nat.zero_le _)
    intro hpoint
    cases next with
    | opened => exact hnext rfl
    | granted | running | ended | finishing => exact hpoint.elim

theorem StreamKept.grant (h : StreamKept reader id stream) (hungranted : Ungranted stream.producer)
    {next : ProducerNext} (hnext : next ≠ .opened) :
    StreamKept reader id (stream.grant next) := by
  obtain ⟨hnone, _, _⟩ := h.ungranted hungranted
  have hgranted : ¬ Ungranted (stream.grant next).producer := by
    cases next with
    | opened => exact absurd rfl hnext
    | granted | running | ended | finishing => exact fun h => h
  refine ⟨h.nonneg, h.le_max, h.open_le, ?_, ?_, fun hpoint => absurd hpoint hgranted,
    fun _ => hgranted⟩
  · have hdata : dataOf (produced (stream.grant next).producer) = 0 := rfl
    have hspent := h.spent
    rw [hdata]
    dsimp only [HostStream.grant]
    omega
  · have hwindow : windowOf (produced (stream.grant next).producer) = stream.inbound_credit := rfl
    rw [hwindow]
    dsimp only [HostStream.grant]
    omega

theorem wrote_eq (stream : HostStream) (message : HostMessage) :
    stream.wrote message = { stream with
      sent := stream.sent + dataOf message
      granted := stream.granted + windowOf message } := by
  cases message with
  | stream_data size | stream_window credit_bytes | stream_close code | error code => rfl

theorem StreamKept.wrote (h : StreamKept reader id stream) {message : HostMessage}
    {next : ProducerNext} (hsending : stream.producer = .sending message next) :
    StreamKept reader id ((stream.wrote message).goto_next next) := by
  have hspent := h.spent
  have hannounced := h.announced
  have hungranted := h.ungranted
  have hupload := h.upload
  rw [hsending] at hspent hannounced hungranted hupload
  have hsent : dataOf (produced (.sending message next)) = dataOf message := rfl
  have hgranted : windowOf (produced (.sending message next)) = windowOf message := rfl
  rw [hsent] at hspent
  rw [hgranted] at hannounced hungranted
  have hkept : ∀ point, dataOf (produced point) = 0 → windowOf (produced point) = 0 →
      (Ungranted point → next = .opened) →
      StreamKept reader id { stream.wrote message with producer := point } := by
    intro point hdata hwindow hpoint
    rw [wrote_eq]
    refine ⟨h.nonneg, h.le_max, h.open_le, ?_, ?_, ?_, ?_⟩
    · dsimp only
      rw [hdata]
      push_cast
      omega
    · dsimp only
      rw [hwindow]
      omega
    · intro hstill
      rw [hpoint hstill] at hungranted
      obtain ⟨hnone, hrest⟩ := hungranted trivial
      refine ⟨?_, hrest⟩
      dsimp only
      rw [hwindow]
      omega
    · intro hop hstill
      rw [hpoint hstill] at hupload
      exact hupload hop trivial
  cases next with
  | opened => exact hkept _ rfl rfl fun _ => rfl
  | granted | running | ended | finishing => exact hkept _ rfl rfl fun h => h.elim

/-- The producer spends credit on its data. -/
theorem StreamKept.reserve (h : StreamKept reader id stream) {size : ℕ} {next : ProducerNext}
    (hwaiting : stream.producer = .waiting size next) (hle : size ≤ stream.outbound_credit) :
    StreamKept reader id { stream with
      outbound_credit := stream.outbound_credit - size
      producer := .sending (.stream_data size) next } := by
  have hspent := h.spent
  have hannounced := h.announced
  have hungranted := h.ungranted
  have hle_max := h.le_max
  have hupload := h.upload
  rw [hwaiting] at hspent hannounced hungranted hupload
  have hbefore : Ungranted (.sending (.stream_data size) next) →
      Ungranted (.waiting size next) := by
    intro hpoint
    cases next with
    | opened => trivial
    | granted | running | ended | finishing => exact hpoint.elim
  refine ⟨?_, ?_, h.open_le, ?_, ?_, fun hpoint => hungranted (hbefore hpoint),
    fun hop hpoint => hupload hop (hbefore hpoint)⟩
  · dsimp only
    omega
  · dsimp only
    omega
  · simp only [produced, dataOf] at hspent ⊢
    omega
  · simp only [produced, windowOf] at hannounced ⊢
    omega

theorem StreamKept.finish (h : StreamKept reader id stream) (hawaiting : ¬ Awaiting reader id) :
    StreamKept reader id stream.finish := by
  refine ⟨h.nonneg, h.le_max, h.open_le, h.spent, h.announced, ?_, h.upload⟩
  intro hpoint
  obtain ⟨hnone, hforwarding, _⟩ := h.ungranted hpoint
  exact ⟨hnone, hforwarding, fun _ => ⟨rfl, hawaiting⟩⟩

theorem StreamKept.cancel (h : StreamKept reader id stream) :
    StreamKept reader id stream.cancel := by
  unfold HostStream.cancel
  split
  · exact h
  · exact h
  · exact h.moves (Nat.zero_le _) (Nat.zero_le _) (fun h => h.elim)
  · exact h.moves (Nat.zero_le _) (Nat.zero_le _) (fun h => h.elim)

theorem StreamKept.stop (h : StreamKept reader id stream) (listed closed ready : Bool) :
    StreamKept reader id { stream with
      listed := listed
      closed := closed
      ready := ready
      producer := .done } := by
  have hdone : StreamKept reader id { stream with producer := .done } :=
    h.moves (Nat.zero_le _) (Nat.zero_le _) (fun h => h.elim)
  exact ⟨hdone.nonneg, hdone.le_max, hdone.open_le, hdone.spent, hdone.announced,
    fun h => h.elim, fun _ h => h⟩

theorem StreamKept.produce_step (h : StreamKept reader id stream) (session_closed : Bool)
    (event : ProducerEvent) : StreamKept reader id (stream.produce_step session_closed event) := by
  unfold HostStream.produce_step
  cases hproducer : stream.producer with
  | absent => exact h
  | done => exact h
  | opening =>
    have hopening : Ungranted stream.producer := by
      rw [hproducer]
      trivial
    dsimp only
    split
    · exact h.grant hopening (by decide)
    · split
      · exact h.produce session_closed _ fun _ => hopening
      · exact h.fail session_closed
    · exact h.moves (Nat.zero_le _) (Nat.zero_le _) (fun h => h.elim)
  | opened =>
    have hopened : Ungranted stream.producer := by
      rw [hproducer]
      trivial
    dsimp only
    split
    · exact h.grant hopened (by decide)
    · exact h.fail session_closed
  | running =>
    dsimp only
    split
    · exact h
    · exact h.produce session_closed _ (fun h => by cases h)
    · split
      · exact h.moves (Nat.zero_le _) (Nat.zero_le _) (fun h => h.elim)
      · exact h.moves (Nat.zero_le _) (Nat.zero_le _) (fun h => h.elim)
    · exact h.fail session_closed
  | waiting size next =>
    dsimp only
    split
    · split
      · exact h.fail session_closed
      · split
        · rename_i hle
          exact h.reserve hproducer hle
        · exact h
    · exact h.fail session_closed
  | sending message next =>
    dsimp only
    split
    · exact h.wrote hproducer
    · have hkept := (h.wrote hproducer).unsent session_closed next
      cases next with
      | opened | granted | running | ended | finishing => exact hkept
    · exact h.unsent session_closed next
  | finishing =>
    dsimp only
    split
    · exact h.stop false true true
    · exact h.stop stream.listed stream.closed stream.ready

def SessionKept (s : HostSession) : Prop :=
  ∀ id stream, s.streams id = some stream → StreamKept s.reader id stream

theorem get_some (hget : s.get id = some stream) :
    s.streams id = some stream ∧ stream.listed = true := by
  unfold HostSession.get at hget
  rw [Option.filter_eq_some_iff] at hget
  exact hget

theorem kept_put (h : SessionKept s) (hstream : StreamKept reader id stream)
    (hquiet : ∀ j, j ≠ id → Quiet reader j) :
    SessionKept ((s.put id stream).read_at reader) := by
  intro j other hother
  by_cases hj : j = id
  · have hsame : some stream = some other := by
      rw [← hother, hj]
      exact (Function.update_self id (some stream) s.streams).symm
    rw [← Option.some.inj hsame, hj]
    exact hstream
  · have hkept : s.streams j = some other := by
      rw [← hother]
      exact (Function.update_of_ne hj (some stream) s.streams).symm
    exact (h j other hkept).quiet (hquiet j hj)

theorem kept_read_at (h : SessionKept s) (hquiet : ∀ j, Quiet reader j) :
    SessionKept (s.read_at reader) :=
  fun j other hother => (h j other hother).quiet (hquiet j)

theorem kept_answer (h : SessionKept s) {message : HostMessage} (hdata : dataOf message = 0)
    (hwindow : windowOf message = 0) : SessionKept (s.answer id message) :=
  kept_read_at h fun j => quiet_notice hdata hwindow id j .read

theorem kept_join (h : SessionKept s) (hstream : StreamKept reader id stream) :
    SessionKept (s.join id stream) :=
  kept_put h (hstream.quiet (quiet_joining id id)).cancel fun j _ => quiet_joining id j

theorem kept_finish_stream (h : SessionKept s) (notice : Option StreamCode) :
    SessionKept (s.finish_stream id notice) := by
  unfold HostSession.finish_stream
  split
  · split
    · exact kept_read_at h quiet_read
    · exact kept_answer h rfl rfl
  · rename_i stream hget
    have hstream := h id stream (get_some hget).1
    split
    · have hread : StreamKept .read id stream.finish :=
        (hstream.quiet (quiet_read id)).finish fun h => h
      exact kept_join h hread
    · rename_i code
      have hquiet : ∀ j, Quiet (.sending id (.stream_close code) .join) j :=
        fun j => quiet_notice rfl rfl id j .join
      refine kept_put h ?_ fun j _ => hquiet j
      exact (hstream.quiet (hquiet id)).finish fun h => h

theorem StreamKept.take (h : StreamKept reader id stream) (size : ℕ)
    (hle : size ≤ stream.inbound_credit) :
    StreamKept reader id { stream with
      received := stream.received + size
      inbound_credit := stream.inbound_credit - size } := by
  refine ⟨h.nonneg, h.le_max, h.open_le, h.spent, ?_, h.ungranted, h.upload⟩
  have := h.announced
  dsimp only
  omega

theorem StreamKept.give (h : StreamKept reader id stream) (hsilent : ¬ Ungranted stream.producer)
    (size : ℕ) (next : ReaderNext) (buffer : Option ℕ) :
    StreamKept (.sending id (.stream_window size) next) id { stream with
      upload_buffer := buffer
      inbound_credit := stream.inbound_credit + size } := by
  refine ⟨h.nonneg, h.le_max, h.open_le, ?_, ?_, fun hpoint => absurd hpoint hsilent,
    fun _ => hsilent⟩
  · have hdata : dataOf (answered (.sending id (.stream_window size) next) id) = 0 := by
      rw [answered_self]
      rfl
    have hcredit : crediting (.sending id (.stream_window size) next) id = 0 := rfl
    rw [hdata, hcredit]
    have := h.spent
    dsimp only
    omega
  · have hwindow : windowOf (answered (.sending id (.stream_window size) next) id) = size := by
      rw [answered_self]
      rfl
    rw [hwindow]
    have := h.announced
    dsimp only
    omega

theorem StreamKept.receive (h : StreamKept reader id stream) (size : ℕ) :
    StreamKept reader id { stream with received := stream.received + size } := by
  refine ⟨h.nonneg, h.le_max, h.open_le, h.spent, ?_, h.ungranted, h.upload⟩
  have := h.announced
  dsimp only
  omega

theorem StreamKept.await (h : StreamKept .read id stream) (hlisted : stream.listed = true)
    (size : ℕ) : StreamKept (.awaiting_ready id size) id stream := by
  refine ⟨h.nonneg, h.le_max, h.open_le, h.spent, h.announced, ?_, h.upload⟩
  intro hpoint
  obtain ⟨hnone, _, hready⟩ := h.ungranted hpoint
  refine ⟨hnone, fun h => h, fun hr => ?_⟩
  rw [(hready hr).1] at hlisted
  exact absurd hlisted (by decide)

/-- A stream whose first window is on its way, or still to be sent. -/
theorem kept_opened {operation : StreamOperation} {credit_bytes : Credit}
    {producer : ProducerPoint} {ready : Bool} {buffer : Option ℕ}
    (hdata : dataOf (produced producer) + dataOf (answered reader id) = 0)
    (hcredit : crediting reader id = 0)
    (hwindow : windowOf (produced producer) + windowOf (answered reader id) ≤
      config.stream_window.bytes)
    (hungranted : Ungranted producer → windowOf (produced producer) +
      windowOf (answered reader id) = 0 ∧ ¬ Forwarding reader id ∧ ready = false)
    (hupload : operation = .file_upload → ¬ Ungranted producer) :
    StreamKept reader id { HostStream.opened config operation credit_bytes with
      upload_buffer := buffer
      ready := ready
      producer := producer } := by
  have hle := credit_bytes.le_max
  refine ⟨Int.natCast_nonneg _, Int.ofNat_le.mpr hle, hle, ?_, ?_, ?_, hupload⟩
  · dsimp only [HostStream.opened]
    rw [hcredit]
    omega
  · dsimp only [HostStream.opened]
    omega
  · intro hpoint
    obtain ⟨hnone, hforwarding, hready⟩ := hungranted hpoint
    refine ⟨?_, hforwarding, fun h => ?_⟩
    · dsimp only [HostStream.opened]
      omega
    · rw [hready] at h
      exact absurd h Bool.false_ne_true

section

variable (h : SessionKept s)

include h

theorem kept_changed (hread : s.reader = .read)
    (hstream : StreamKept .read id stream) : SessionKept (s.put id stream) := by
  have hput := kept_put h hstream fun j _ => quiet_read j
  rw [← hread] at hput
  exact hput

theorem kept_open_stream (hread : s.reader = .read)
    (operation : StreamOperation) (credit_bytes : Credit) (metadata : Bool) :
    SessionKept (s.open_stream config id operation credit_bytes metadata) := by
  unfold HostSession.open_stream
  split
  · exact kept_answer h rfl rfl
  · have hids : SessionKept { s with stream_ids := insert id s.stream_ids } := h
    dsimp only
    split
    · exact kept_answer hids rfl rfl
    · split
      · exact kept_answer hids rfl rfl
      · split
        · split
          · -- the window of an upload is sent at once
            have hanswered : answered (.sending id
                (.stream_window config.stream_window.bytes) .read) id =
                .stream_window config.stream_window.bytes := answered_self
            refine kept_put hids (kept_opened ?_ rfl ?_ (fun h => h.elim) (fun _ h => h))
              fun j hj => quiet_other _ _ hj
            · dsimp only [HostStream.opened]
              rw [hanswered]
              rfl
            · dsimp only [HostStream.opened]
              rw [hanswered]
              exact le_of_eq (Nat.zero_add _)
          · refine kept_answer (kept_changed hids hread ?_) rfl rfl
            exact kept_opened rfl rfl (Nat.zero_le _) (fun h => h.elim) (fun _ h => h)
        · rename_i hupload
          apply kept_changed hids hread
          apply kept_opened rfl rfl (Nat.zero_le _)
          · intro _
            exact ⟨rfl, fun h => h, rfl⟩
          · intro hop
            exact absurd hop hupload

theorem kept_file_upload_data (hstream : StreamKept reader id stream)
    (hsilent : ¬ Ungranted stream.producer) (size : ℕ) (chunk : Option ℕ) (eof : Bool) :
    SessionKept (s.file_upload_data id stream size chunk eof) := by
  unfold HostSession.file_upload_data
  split
  · split
    · exact kept_finish_stream h _
    · apply kept_put h
      · exact hstream.give hsilent size _ _
      · intro j hj
        exact quiet_other _ _ hj
  · exact kept_finish_stream h _

theorem kept_stream_data (hread : s.reader = .read) (size : ℕ)
    (chunk : Option ℕ) (eof : Bool) : SessionKept (s.stream_data id size chunk eof) := by
  unfold HostSession.stream_data
  split
  · exact kept_answer h rfl rfl
  · rename_i stream hget
    obtain ⟨hsome, hlisted⟩ := get_some hget
    have hstream := h id stream hsome
    rw [hread] at hstream
    split
    · exact kept_answer h rfl rfl
    · dsimp only
      split
      · exact kept_finish_stream (kept_changed h hread (hstream.receive size)) _
      · rename_i hle
        have htaken := hstream.take size (Nat.le_of_not_lt hle)
        have hput := kept_changed h hread htaken
        split
        · rename_i hop
          exact kept_file_upload_data hput htaken (hstream.upload hop) size chunk eof
        · exact kept_put h (htaken.await hlisted size) fun j hj =>
            ⟨rfl, rfl, rfl, Ne.symm hj, fun h => h⟩
        · exact kept_finish_stream hput _

theorem kept_stream_window (hread : s.reader = .read)
    (credit_bytes : Credit) : SessionKept (s.stream_window id credit_bytes) := by
  unfold HostSession.stream_window
  split
  · exact h
  · rename_i stream hget
    have hstream := h id stream (get_some hget).1
    rw [hread] at hstream
    split
    · exact h
    · apply kept_put h
      · refine ⟨hstream.nonneg, hstream.le_max, hstream.open_le, ?_, hstream.announced,
          hstream.ungranted, hstream.upload⟩
        have hspent := hstream.spent
        have hcredit : crediting (.crediting id credit_bytes) id = credit_bytes.bytes := if_pos rfl
        have hnone : crediting .read id = 0 := rfl
        have hsame : answered (.crediting id credit_bytes) id = answered .read id := rfl
        rw [hnone] at hspent
        rw [hcredit, hsame]
        dsimp only
        push_cast
        omega
      · intro j hj
        exact ⟨rfl, rfl, if_neg (Ne.symm hj), fun h => h, fun h => h⟩

theorem kept_dispatch (hread : s.reader = .read) (id : StreamId)
    (message : PeerMessage) : SessionKept (s.dispatch config id message) := by
  cases message with
  | stream_open operation credit_bytes metadata =>
    exact kept_open_stream h hread operation credit_bytes metadata
  | stream_data size chunk eof => exact kept_stream_data h hread size chunk eof
  | stream_window credit_bytes => exact kept_stream_window h hread credit_bytes
  | stream_cancel | stream_close => exact kept_finish_stream h _

/-- The message of the read loop is written, and its data are sent. -/
theorem kept_write {message : HostMessage} {next : ReaderNext}
    (hreader : s.reader = .sending id message next) :
    SessionKept ((s.write id message).read_at .read) := by
  unfold HostSession.write
  split
  · exact kept_read_at h quiet_read
  · rename_i stream hsome
    have hstream := h id stream hsome
    rw [hreader] at hstream
    have hspent := hstream.spent
    have hannounced := hstream.announced
    have hungranted := hstream.ungranted
    rw [answered_self] at hspent hannounced hungranted
    have hnone : crediting (.sending id message next) id = 0 := rfl
    rw [hnone] at hspent
    refine kept_put h ?_ fun j _ => quiet_read j
    rw [wrote_eq]
    refine ⟨hstream.nonneg, hstream.le_max, hstream.open_le, ?_, ?_, ?_, hstream.upload⟩
    · rw [(quiet_read id).data, (quiet_read id).credit]
      dsimp only
      push_cast
      omega
    · rw [(quiet_read id).window]
      dsimp only
      omega
    · intro hpoint
      obtain ⟨hzero, _, hready⟩ := hungranted hpoint
      rw [(quiet_read id).window]
      dsimp only
      exact ⟨by omega, fun h => h, fun hr => ⟨(hready hr).1, fun h => h⟩⟩

end

theorem kept_sent_next (h : SessionKept (s.read_at .read)) (next : ReaderNext) :
    SessionKept (s.sent_next id next) := by
  cases next with
  | read => exact h
  | uploaded eof =>
    unfold HostSession.sent_next
    dsimp only
    split
    · exact kept_read_at (s := s.read_at .read) h fun j => ⟨rfl, rfl, rfl, fun h => h, fun h => h⟩
    · exact h
  | close_upload =>
    exact kept_read_at (s := s.read_at .read) h fun j => quiet_notice rfl rfl id j .finish_upload
  | finish_upload => exact kept_finish_stream (s := s.read_at .read) h none
  | join =>
    unfold HostSession.sent_next
    dsimp only
    split
    · exact h
    · rename_i stream hsome
      exact kept_join (s := s.read_at .read) h (h id stream hsome)

theorem kept_unsent_next (h : SessionKept s) (next : ReaderNext) :
    SessionKept (s.unsent_next id next) := by
  have hread : SessionKept (s.read_at .read) := kept_read_at h quiet_read
  cases next with
  | read => exact hread
  | uploaded eof | close_upload | finish_upload => exact kept_finish_stream h _
  | join => exact kept_sent_next hread .join

theorem kept_add_credit {credit_bytes : Credit} (h : SessionKept s)
    (hreader : s.reader = .crediting id credit_bytes) (hsome : s.streams id = some stream) :
    SessionKept (s.add_credit id stream credit_bytes) := by
  have hstream := h id stream hsome
  rw [hreader] at hstream
  have hcredit : crediting (.crediting id credit_bytes) id = credit_bytes.bytes := if_pos rfl
  unfold HostSession.add_credit
  split
  · have hanswer : SessionKept (s.answer id (.error .stream_protocol_error)) :=
      kept_answer h rfl rfl
    exact hanswer
  · rename_i hle
    have hspent := hstream.spent
    have hnonneg := hstream.nonneg
    rw [hcredit] at hspent
    refine kept_put h ?_ fun j _ => quiet_read j
    refine ⟨?_, ?_, hstream.open_le, ?_, hstream.announced, ?_, hstream.upload⟩
    · dsimp only
      omega
    · dsimp only
      omega
    · rw [(quiet_read id).data, (quiet_read id).credit]
      dsimp only
      omega
    · intro hpoint
      obtain ⟨hzero, _, hready⟩ := hstream.ungranted hpoint
      exact ⟨hzero, fun h => h, fun hr => ⟨(hready hr).1, fun h => h⟩⟩

theorem kept_send_result {size : ℕ} (h : SessionKept s) (hreader : s.reader = .waiting id size)
    (hsome : s.streams id = some stream) : SessionKept (s.send_result id stream size) := by
  have hstream := h id stream hsome
  unfold HostSession.send_result
  split
  · exact kept_finish_stream h _
  · split
    · rename_i hle
      have hspent := hstream.spent
      have hle_max := hstream.le_max
      rw [hreader] at hstream hspent
      have hself : answered (.sending id (.stream_data size) .close_upload) id =
          .stream_data size := answered_self
      refine kept_put h ?_ fun j hj => quiet_other _ _ hj
      refine ⟨?_, ?_, hstream.open_le, ?_, ?_, ?_, hstream.upload⟩
      · dsimp only
        omega
      · dsimp only
        omega
      · have hdata : dataOf (answered (.waiting id size) id) = 0 := rfl
        have hcredit : crediting (.waiting id size) id = 0 := rfl
        have hsize : dataOf (.stream_data size) = size := rfl
        have hnone : crediting (.sending id (.stream_data size) .close_upload) id = 0 := rfl
        rw [hdata, hcredit] at hspent
        rw [hself, hsize, hnone]
        dsimp only
        omega
      · rw [hself]
        exact hstream.announced
      · rw [hself]
        intro hpoint
        obtain ⟨hzero, _, hready⟩ := hstream.ungranted hpoint
        exact ⟨hzero, fun h => h, fun hr => ⟨(hready hr).1, fun h => h⟩⟩
    · exact h

theorem kept_read_step (h : SessionKept s) (event : HostSession.ReaderEvent) :
    SessionKept (s.read_step event) := by
  unfold HostSession.read_step
  split
  · exact h
  · rename_i id message next hreader
    split
    · exact kept_sent_next (kept_write h hreader) next
    · have hkept : SessionKept (((s.write id message).read_at .read).unsent_next id next) :=
        kept_unsent_next (kept_write h hreader) next
      cases next with
      | read | uploaded eof | close_upload | finish_upload | join => exact hkept
    · exact kept_unsent_next h next
  · rename_i id size hreader
    split
    · split
      · rename_i hready
        intro j stream hstreams
        have hsome : s.streams j = some stream := hstreams
        have hstream := h j stream hsome
        rw [hreader] at hstream
        by_cases hj : j = id
        · -- the window was announced before `ready`
          have hsilent : ¬ Ungranted stream.producer := by
            intro hpoint
            rw [← hj, hsome] at hready
            exact ((hstream.ungranted hpoint).2.2 hready).2 hj.symm
          exact ⟨hstream.nonneg, hstream.le_max, hstream.open_le, hstream.spent,
            hstream.announced, fun hpoint => absurd hpoint hsilent, hstream.upload⟩
        · exact hstream.quiet ⟨rfl, rfl, rfl, fun h => h, Ne.symm hj⟩
      · exact h
    · exact kept_finish_stream h _
  · rename_i id size hreader
    split
    · rename_i stream hsome
      have hstream := h id stream hsome
      rw [hreader] at hstream
      have hsilent : ¬ Ungranted stream.producer := by
        intro hpoint
        exact (hstream.ungranted hpoint).2.1 rfl
      apply kept_put h
      · exact hstream.give hsilent size .read stream.upload_buffer
      · intro j hj
        exact quiet_other _ _ hj
    · exact kept_finish_stream h _
  · rename_i id credit_bytes hreader
    split
    · exact kept_read_at h quiet_read
    · rename_i stream hsome
      exact kept_add_credit h hreader hsome
  · split
    · split
      · exact kept_finish_stream h _
      · exact kept_read_at h fun j => ⟨rfl, rfl, rfl, fun h => h, fun h => h⟩
    · exact kept_finish_stream h _
  · rename_i id size hreader
    split
    · rename_i stream hsome
      exact kept_send_result h hreader hsome
    · exact kept_finish_stream h _
  · split
    · exact kept_read_at h quiet_read
    · exact h

theorem kept_close (h : SessionKept s) : SessionKept s.close := by
  intro id stream hsome
  have hmap : (s.streams id).map HostSession.close_stream = some stream := hsome
  rw [Option.map_eq_some_iff] at hmap
  obtain ⟨before, hbefore, rfl⟩ := hmap
  have hread : StreamKept .read id before := (h id before hbefore).quiet (quiet_read id)
  unfold HostSession.close_stream
  split
  · exact (hread.finish fun h => h).cancel
  · exact hread.cancel

theorem session_start : SessionKept .start := by
  intro id stream hsome
  exact absurd hsome (by simp [HostSession.start])

theorem session_step (h : SessionKept s) (c : HostSession.Step) :
    SessionKept (HostSession.step config s c) := by
  cases c with
  | receive id message =>
    unfold HostSession.step
    dsimp only
    split
    · rename_i hread
      split
      · exact h
      · exact kept_dispatch h hread id message
    · exact h
  | read event => exact kept_read_step h event
  | produce id event =>
    unfold HostSession.step
    dsimp only
    split
    · exact h
    · rename_i stream hsome
      have hstream := (h id stream hsome).produce_step s.closed event
      intro j other hother
      by_cases hj : j = id
      · have hsame : some (stream.produce_step s.closed event) = some other := by
          rw [← hother, hj]
          exact (Function.update_self id _ s.streams).symm
        rw [← Option.some.inj hsame, hj]
        exact hstream
      · have hkept : s.streams j = some other := by
          rw [← hother]
          exact (Function.update_of_ne hj _ s.streams).symm
        exact h j other hkept
  | close => exact kept_close h

theorem session_run (steps : List HostSession.Step) (h : SessionKept s) :
    SessionKept (HostSession.run config steps s) := by
  unfold HostSession.run
  induction steps generalizing s with
  | nil => exact h
  | cons c steps ih => exact ih (session_step h c)

def KeepsTo (stream : HostStream) : PeerMessage → Prop
  | .stream_data size _ _ => stream.received + size ≤ stream.granted
  | .stream_window credit_bytes => stream.received_credit + credit_bytes.bytes ≤ stream.sent
  | _ => True

/-- The peer keeps to its credit in a message about the stream that is read.  What was
written by then is no less than what had reached the peer when it sent the message. -/
def Compliant (id : StreamId) (s : HostSession) : HostSession.Step → Prop
  | .receive j message => j = id → s.reader = .read → s.closed = false →
      ∀ stream ∈ s.get id, KeepsTo stream message
  | _ => True

def CompliantRun (config : StreamConfig) (id : StreamId) :
    List HostSession.Step → HostSession → Prop
  | [], _ => True
  | c :: steps, s =>
    Compliant id s c ∧ CompliantRun config id steps (HostSession.step config s c)

instance (stream : HostStream) (message : PeerMessage) : Decidable (KeepsTo stream message) :=
  match message with
  | .stream_open _ _ _ => isTrue trivial
  | .stream_data size _ _ =>
    inferInstanceAs (Decidable (stream.received + size ≤ stream.granted))
  | .stream_window credit_bytes =>
    inferInstanceAs (Decidable (stream.received_credit + credit_bytes.bytes ≤ stream.sent))
  | .stream_cancel => isTrue trivial
  | .stream_close => isTrue trivial

instance (id : StreamId) (s : HostSession) (c : HostSession.Step) : Decidable (Compliant id s c) :=
  match c with
  | .receive j message =>
    inferInstanceAs (Decidable (j = id → s.reader = .read → s.closed = false →
      ∀ stream ∈ s.get id, KeepsTo stream message))
  | .read _ => isTrue trivial
  | .produce _ _ => isTrue trivial
  | .close => isTrue trivial

instance decidableCompliantRun (config : StreamConfig) (id : StreamId) :
    (steps : List HostSession.Step) → (s : HostSession) → Decidable (CompliantRun config id steps s)
  | [], _ => isTrue trivial
  | _ :: steps, _ =>
    have := decidableCompliantRun config id steps
    inferInstanceAs (Decidable (_ ∧ _))

/-- The peer has given back no more than what was sent, and was not refused for credit. -/
structure FairAt (id : StreamId) (s : HostSession) : Prop where
  consumed : ∀ stream, s.streams id = some stream → stream.received_credit ≤ stream.sent
  unrefused : id ∉ s.credit_errors

/-- A stream moves on without credit of the peer. -/
structure Grows (stream stream' : HostStream) : Prop where
  sent : stream.sent ≤ stream'.sent
  received_credit : stream'.received_credit = stream.received_credit

theorem Grows.trans {first second third : HostStream} (h : Grows first second)
    (h' : Grows second third) : Grows first third :=
  ⟨le_trans h.sent h'.sent, h'.received_credit.trans h.received_credit⟩

theorem grows_refl (stream : HostStream) : Grows stream stream := ⟨le_refl _, rfl⟩

theorem grows_fail (stream : HostStream) (session_closed : Bool) :
    Grows stream (stream.fail session_closed) := by
  unfold HostStream.fail
  split
  · exact ⟨le_refl _, rfl⟩
  · exact ⟨le_refl _, rfl⟩

theorem grows_unsent (stream : HostStream) (session_closed : Bool) (next : ProducerNext) :
    Grows stream (stream.unsent session_closed next) := by
  unfold HostStream.unsent
  split
  · exact ⟨le_refl _, rfl⟩
  · exact ⟨le_refl _, rfl⟩
  · exact grows_fail stream session_closed

theorem grows_produce (stream : HostStream) (session_closed : Bool) (size : ℕ)
    (next : ProducerNext) : Grows stream (stream.produce session_closed size next) := by
  unfold HostStream.produce
  split
  · exact grows_fail stream session_closed
  · exact ⟨le_refl _, rfl⟩

theorem grows_wrote (stream : HostStream) (message : HostMessage) :
    Grows stream (stream.wrote message) := by
  rw [wrote_eq]
  exact ⟨Nat.le_add_right _ _, rfl⟩

theorem grows_goto_next (stream : HostStream) (next : ProducerNext) :
    Grows stream (stream.goto_next next) := by
  cases next with
  | opened | granted | running | ended | finishing => exact ⟨le_refl _, rfl⟩

theorem grows_cancel (stream : HostStream) : Grows stream stream.cancel := by
  unfold HostStream.cancel
  split
  · exact grows_refl stream
  · exact grows_refl stream
  · exact ⟨le_refl _, rfl⟩
  · exact ⟨le_refl _, rfl⟩

theorem grows_produce_step (stream : HostStream) (session_closed : Bool) (event : ProducerEvent) :
    Grows stream (stream.produce_step session_closed event) := by
  unfold HostStream.produce_step
  cases stream.producer with
  | absent | done => exact grows_refl stream
  | opening =>
    dsimp only
    split
    · exact ⟨le_refl _, rfl⟩
    · split
      · exact grows_produce stream session_closed _ _
      · exact grows_fail stream session_closed
    · exact ⟨le_refl _, rfl⟩
  | opened =>
    dsimp only
    split
    · exact ⟨le_refl _, rfl⟩
    · exact grows_fail stream session_closed
  | running =>
    dsimp only
    split
    · exact grows_refl stream
    · exact grows_produce stream session_closed _ _
    · split
      · exact ⟨le_refl _, rfl⟩
      · exact ⟨le_refl _, rfl⟩
    · exact grows_fail stream session_closed
  | waiting size next =>
    dsimp only
    split
    · split
      · exact grows_fail stream session_closed
      · split
        · exact ⟨le_refl _, rfl⟩
        · exact grows_refl stream
    · exact grows_fail stream session_closed
  | sending message next =>
    dsimp only
    split
    · exact (grows_wrote stream message).trans (grows_goto_next _ next)
    · exact (grows_wrote stream message).trans (grows_unsent _ session_closed next)
    · exact grows_unsent stream session_closed next
  | finishing =>
    dsimp only
    split
    · exact ⟨le_refl _, rfl⟩
    · exact ⟨le_refl _, rfl⟩

variable {j : StreamId} {stream' : HostStream}

theorem fair_put (h : FairAt id s)
    (hstream : j = id → stream.received_credit ≤ stream.sent) : FairAt id (s.put j stream) := by
  refine ⟨?_, h.unrefused⟩
  intro other hother
  have hupdate : Function.update s.streams j (some stream) id = some other := hother
  by_cases hj : id = j
  · rw [hj, Function.update_self] at hupdate
    rw [← Option.some.inj hupdate]
    exact hstream hj.symm
  · rw [Function.update_of_ne hj] at hupdate
    exact h.consumed other hupdate

theorem fair_read_at (h : FairAt id s) (reader : ReaderPoint) : FairAt id (s.read_at reader) :=
  ⟨h.consumed, h.unrefused⟩

theorem fair_grown (h : FairAt id s) (hsome : s.streams j = some stream)
    (hgrows : Grows stream stream') : FairAt id (s.put j stream') := by
  apply fair_put h
  intro hj
  rw [hj] at hsome
  have hconsumed := h.consumed stream hsome
  rw [hgrows.received_credit]
  exact le_trans hconsumed hgrows.sent

theorem fair_finish_stream (h : FairAt id s) (notice : Option StreamCode) :
    FairAt id (s.finish_stream j notice) := by
  unfold HostSession.finish_stream
  split
  · split
    · exact fair_read_at h _
    · exact fair_read_at h _
  · rename_i stream hget
    have hsome := (get_some hget).1
    have hfinish : Grows stream stream.finish := ⟨le_refl _, rfl⟩
    split
    · exact fair_read_at (fair_grown h hsome (hfinish.trans (grows_cancel _))) _
    · exact fair_read_at (fair_grown h hsome hfinish) _

theorem fair_open_stream (h : FairAt id s) (operation : StreamOperation) (credit_bytes : Credit)
    (metadata : Bool) : FairAt id (s.open_stream config j operation credit_bytes metadata) := by
  unfold HostSession.open_stream
  split
  · exact fair_read_at h _
  · have hids : FairAt id { s with stream_ids := insert j s.stream_ids } :=
      ⟨h.consumed, h.unrefused⟩
    dsimp only
    split
    · exact fair_read_at hids _
    · split
      · exact fair_read_at hids _
      · split
        · split
          · exact fair_read_at (fair_put hids fun _ => Nat.le_refl 0) _
          · exact fair_read_at (fair_put hids fun _ => Nat.le_refl 0) _
        · exact fair_put hids fun _ => Nat.le_refl 0

theorem fair_file_upload_data (h : FairAt id s) (hsome : s.streams j = some stream) (size : ℕ)
    (chunk : Option ℕ) (eof : Bool) : FairAt id (s.file_upload_data j stream size chunk eof) := by
  unfold HostSession.file_upload_data
  split
  · split
    · exact fair_finish_stream h _
    · refine fair_read_at (fair_grown h hsome ?_) _
      exact ⟨le_refl _, rfl⟩
  · exact fair_finish_stream h _

theorem StreamKept.covers (h : StreamKept reader id stream) {size : ℕ}
    (hsize : stream.received + size ≤ stream.granted) : size ≤ stream.inbound_credit := by
  have := h.announced
  omega

section

variable (h : FairAt id s)

include h

theorem fair_stream_data (hkept : SessionKept s) (size : ℕ) (chunk : Option ℕ) (eof : Bool)
    (hkeeps : j = id → ∀ stream, s.get id = some stream → stream.received + size ≤ stream.granted) :
    FairAt id (s.stream_data j size chunk eof) := by
  unfold HostSession.stream_data
  split
  · exact fair_read_at h _
  · rename_i stream hget
    have hsome := (get_some hget).1
    split
    · exact fair_read_at h _
    · dsimp only
      split
      · rename_i hmore
        have hput : FairAt id (s.put j { stream with received := stream.received + size }) :=
          fair_grown h hsome ⟨le_refl _, rfl⟩
        refine ⟨(fair_finish_stream hput _).consumed, ?_⟩
        intro hmem
        rcases List.mem_append.mp hmem with hbefore | hnew
        · exact h.unrefused hbefore
        · have hj : j = id := (List.mem_singleton.mp hnew).symm
          have hstream := hkept j stream hsome
          rw [hj] at hget
          have hcovers := hstream.covers (hkeeps hj stream hget)
          exact absurd hmore (Nat.not_lt.mpr hcovers)
      · have hput : FairAt id (s.put j { stream with
            received := stream.received + size
            inbound_credit := stream.inbound_credit - size }) :=
          fair_grown h hsome ⟨le_refl _, rfl⟩
        split
        · exact fair_file_upload_data hput (Function.update_self ..) size chunk eof
        · exact fair_read_at hput _
        · exact fair_finish_stream hput _

theorem fair_stream_window (credit_bytes : Credit)
    (hkeeps : j = id → ∀ stream, s.get id = some stream →
      stream.received_credit + credit_bytes.bytes ≤ stream.sent) :
    FairAt id (s.stream_window j credit_bytes) := by
  unfold HostSession.stream_window
  split
  · exact h
  · rename_i stream hget
    split
    · exact h
    · refine fair_read_at (fair_put h fun hj => ?_) _
      rw [hj] at hget
      exact hkeeps hj stream hget

theorem fair_dispatch (hkept : SessionKept s) (message : PeerMessage)
    (hkeeps : j = id → ∀ stream, s.get id = some stream → KeepsTo stream message) :
    FairAt id (s.dispatch config j message) := by
  cases message with
  | stream_open operation credit_bytes metadata =>
    exact fair_open_stream h operation credit_bytes metadata
  | stream_data size chunk eof => exact fair_stream_data h hkept size chunk eof hkeeps
  | stream_window credit_bytes => exact fair_stream_window h credit_bytes hkeeps
  | stream_cancel | stream_close =>
    unfold HostSession.dispatch
    exact fair_finish_stream h _

theorem fair_join {stream : HostStream} (hsome : s.streams j = some stream) :
    FairAt id (s.join j stream) :=
  fair_read_at (fair_grown h hsome (grows_cancel stream)) _

theorem fair_sent_next (next : ReaderNext) : FairAt id (s.sent_next j next) := by
  cases next with
  | read => exact fair_read_at h _
  | uploaded eof =>
    unfold HostSession.sent_next
    dsimp only
    split
    · exact fair_read_at h _
    · exact fair_read_at h _
  | close_upload => exact fair_read_at h _
  | finish_upload => exact fair_finish_stream h none
  | join =>
    unfold HostSession.sent_next
    dsimp only
    split
    · exact fair_read_at h _
    · rename_i stream hsome
      exact fair_join h hsome

theorem fair_unsent_next (next : ReaderNext) : FairAt id (s.unsent_next j next) := by
  cases next with
  | read => exact fair_read_at h _
  | uploaded eof | close_upload | finish_upload =>
    unfold HostSession.unsent_next
    exact fair_finish_stream h _
  | join =>
    unfold HostSession.unsent_next
    dsimp only
    split
    · exact fair_read_at h _
    · rename_i stream hsome
      exact fair_join h hsome

theorem fair_write (message : HostMessage) : FairAt id (s.write j message) := by
  unfold HostSession.write
  split
  · exact h
  · rename_i stream hsome
    exact fair_grown h hsome (grows_wrote stream message)

/-- Credit that was used before it came leaves the sum within what the stream was opened
with. -/
theorem fair_add_credit {credit_bytes : Credit} (hkept : SessionKept s)
    (hreader : s.reader = .crediting j credit_bytes) (hsome : s.streams j = some stream) :
    FairAt id (s.add_credit j stream credit_bytes) := by
  unfold HostSession.add_credit
  split
  · rename_i hmore
    refine ⟨h.consumed, ?_⟩
    intro hmem
    rcases List.mem_append.mp hmem with hbefore | hnew
    · exact h.unrefused hbefore
    · have hj : id = j := List.mem_singleton.mp hnew
      have hstream := hkept j stream hsome
      have hspent := hstream.spent
      have hopen := hstream.open_le
      have hcredit : crediting (.crediting j credit_bytes) j = credit_bytes.bytes := if_pos rfl
      rw [hreader, hcredit] at hspent
      rw [← hj] at hsome
      have hconsumed := h.consumed stream hsome
      omega
  · refine fair_read_at (fair_grown h hsome ?_) _
    exact ⟨le_refl _, rfl⟩

theorem fair_send_result (hsome : s.streams j = some stream) (size : ℕ) :
    FairAt id (s.send_result j stream size) := by
  unfold HostSession.send_result
  split
  · exact fair_finish_stream h _
  · split
    · refine fair_read_at (fair_grown h hsome ?_) _
      exact ⟨le_refl _, rfl⟩
    · exact h

theorem fair_read_step (hkept : SessionKept s)
    (event : HostSession.ReaderEvent) : FairAt id (s.read_step event) := by
  unfold HostSession.read_step
  split
  · exact h
  · split
    · exact fair_sent_next (fair_write h _) _
    · exact fair_unsent_next (fair_write h _) _
    · exact fair_unsent_next h _
  · split
    · split
      · exact fair_read_at h _
      · exact h
    · exact fair_finish_stream h _
  · split
    · rename_i hsome
      refine fair_read_at (fair_grown h hsome ?_) _
      exact ⟨le_refl _, rfl⟩
    · exact fair_finish_stream h _
  · rename_i hreader
    split
    · exact fair_read_at h _
    · rename_i hsome
      exact fair_add_credit h hkept hreader hsome
  · split
    · split
      · exact fair_finish_stream h _
      · exact fair_read_at h _
    · exact fair_finish_stream h _
  · split
    · rename_i hsome
      exact fair_send_result h hsome _
    · exact fair_finish_stream h _
  · split
    · exact fair_read_at h _
    · exact h

theorem fair_close : FairAt id s.close := by
  refine ⟨?_, h.unrefused⟩
  intro stream hsome
  have hmap : (s.streams id).map HostSession.close_stream = some stream := hsome
  rw [Option.map_eq_some_iff] at hmap
  obtain ⟨before, hbefore, rfl⟩ := hmap
  have hgrows : Grows before (HostSession.close_stream before) := by
    unfold HostSession.close_stream
    split
    · have hfinish : Grows before before.finish := ⟨le_refl _, rfl⟩
      exact hfinish.trans (grows_cancel _)
    · exact grows_cancel before
  rw [hgrows.received_credit]
  exact le_trans (h.consumed before hbefore) hgrows.sent

theorem fair_step (hkept : SessionKept s) (c : HostSession.Step)
    (hc : Compliant id s c) : FairAt id (HostSession.step config s c) := by
  cases c with
  | receive j message =>
    unfold HostSession.step
    dsimp only
    split
    · rename_i hread
      split
      · exact h
      · rename_i hopen
        refine fair_dispatch h hkept message fun hj => hc hj hread ?_
        exact Bool.eq_false_iff.mpr hopen
    · exact h
  | read event => exact fair_read_step h hkept event
  | produce j event =>
    unfold HostSession.step
    dsimp only
    split
    · exact h
    · rename_i stream hsome
      exact fair_grown h hsome (grows_produce_step stream s.closed event)
  | close => exact fair_close h

end

theorem fair_start (id : StreamId) : FairAt id .start := by
  refine ⟨?_, List.not_mem_nil⟩
  intro stream hsome
  exact absurd hsome (by simp [HostSession.start])

theorem fair_run (steps : List HostSession.Step) (h : FairAt id s) (hkept : SessionKept s)
    (hrun : CompliantRun config id steps s) : FairAt id (HostSession.run config steps s) := by
  unfold HostSession.run
  induction steps generalizing s with
  | nil => exact h
  | cons c steps ih => exact ih (fair_step h hkept c hrun.1) (session_step hkept c) hrun.2

/-- Of every stream, what was sent is within the credit that was received, the credit that
is left is within its bounds, and a peer that keeps to its own credit is not refused. -/
theorem stream_credit (config : StreamConfig) (steps : List HostSession.Step) (id : StreamId) :
    (∀ stream, (HostSession.run config steps .start).streams id = some stream →
      stream.sent ≤ stream.open_credit + stream.received_credit ∧
      0 ≤ stream.outbound_credit ∧
      stream.outbound_credit ≤ relay_stream_max_window_bytes) ∧
    (CompliantRun config id steps .start →
      id ∉ (HostSession.run config steps .start).credit_errors) := by
  have hkept : SessionKept (HostSession.run config steps .start) := session_run steps session_start
  refine ⟨?_, fun hrun => (fair_run steps (fair_start id) session_start hrun).unrefused⟩
  intro stream hsome
  have hstream := hkept id stream hsome
  have hspent := hstream.spent
  have hnonneg := hstream.nonneg
  exact ⟨by omega, hnonneg, hstream.le_max⟩

def exampleConfig : StreamConfig :=
  { stream_window := ⟨64, by decide, by decide⟩
    max_concurrent_streams := 4
    max_session_identities := 16 }

/-- A terminal is opened, shows its first frame, takes input, and is given credit back. -/
def terminalSteps : List HostSession.Step :=
  [.receive 1 (.stream_open .terminal ⟨10, by decide, by decide⟩ true),
    .produce 1 (.payload 6), .produce 1 .ok, .produce 1 .ok, .produce 1 .ok, .produce 1 .ok,
    .receive 1 (.stream_data 64 none false), .read .ok, .read .ok, .read .ok,
    .receive 1 (.stream_window ⟨6, by decide, by decide⟩), .read .ok]

theorem stream_credit_terminal :
    let s := HostSession.run exampleConfig terminalSteps .start
    ((s.streams 1).map fun stream => (stream.sent, stream.received, stream.outbound_credit)) =
      some (6, 64, 10) ∧ 1 ∉ s.credit_errors :=
  ⟨by decide, (stream_credit exampleConfig terminalSteps 1).2 (by decide)⟩

end ClaudeCodeBridge.Analysis.Relay
