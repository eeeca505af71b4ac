import ClaudeCodeBridge.Analysis.StreamCredit

/-!
# What a refused stream leaves

`_open_stream` inserts the stream before its operation is set up.  Every refusal takes it
out again or comes before, but for an upload: where its metadata are incomplete, or its
first window cannot be sent, the stream stays in `session.streams` (`refused_leaves`).
-/

set_option autoImplicit false

namespace ClaudeCodeBridge.Analysis.Relay

open Model.Relay

variable {config : StreamConfig} {s t : HostSession} {id : StreamId} {stream : HostStream}

def Identified (s : HostSession) : Prop := ∀ id, id ∉ s.stream_ids → s.streams id = none

theorem identified_put (h : Identified s) (hsome : s.streams id ≠ none) (stream : HostStream) :
    Identified (s.put id stream) := by
  intro j hj
  have hne : j ≠ id := by
    rintro rfl
    exact hsome (h j hj)
  exact (Function.update_of_ne hne _ _).trans (h j hj)

theorem listed_of_get (hget : s.get id = some stream) : s.streams id ≠ none := by
  intro hnone
  rw [HostSession.get, hnone] at hget
  cases hget

theorem put_ne_none (s : HostSession) (id : StreamId) (stream : HostStream) :
    (s.put id stream).streams id ≠ none := by
  simp [HostSession.put]

section

variable (h : Identified s)

include h

theorem identified_finish_stream (notice : Option StreamCode) :
    Identified (s.finish_stream id notice) := by
  unfold HostSession.finish_stream
  split
  · split <;> exact h
  · rename_i hget
    split <;> exact identified_put h (listed_of_get hget) _

theorem identified_stream_data (size : ℕ) (chunk : Option ℕ) (eof : Bool) :
    Identified (s.stream_data id size chunk eof) := by
  unfold HostSession.stream_data
  split
  · exact h
  · rename_i hget
    have hput := fun stream => identified_put h (listed_of_get hget) stream
    split
    · exact h
    dsimp only
    split
    · exact identified_finish_stream (hput _) _
    · split
      · unfold HostSession.file_upload_data
        split
        · split
          · exact identified_finish_stream (hput _) _
          · exact identified_put (hput _) (put_ne_none _ _ _) _
        · exact identified_finish_stream (hput _) _
      · exact hput _
      · exact identified_finish_stream (hput _) _

theorem identified_open_stream (operation : StreamOperation)
    (credit_bytes : Credit) (metadata : Bool) :
    Identified (s.open_stream config id operation credit_bytes metadata) := by
  have hinsert : ∀ stream, Identified
      ({ s with stream_ids := insert id s.stream_ids }.put id stream) := by
    intro stream j hj
    rw [HostSession.put, Finset.mem_insert, not_or] at hj
    exact (Function.update_of_ne hj.1 _ _).trans (h j hj.2)
  have hseen : Identified { s with stream_ids := insert id s.stream_ids } := fun j hj =>
    h j fun hmem => hj (Finset.mem_insert_of_mem hmem)
  unfold HostSession.open_stream
  split
  · exact h
  dsimp only
  split
  · exact hseen
  split
  · exact hseen
  split
  · split <;> exact hinsert _
  · exact hinsert _

theorem identified_end (next : ReaderNext) :
    Identified (s.sent_next id next) ∧ Identified (s.unsent_next id next) := by
  cases next with
  | uploaded eof => cases eof <;> exact ⟨h, identified_finish_stream h _⟩
  | join =>
    unfold HostSession.sent_next HostSession.unsent_next
    cases hstream : s.streams id with
    | none => exact ⟨h, h⟩
    | some stream =>
      have hne : s.streams id ≠ none := by simp [hstream]
      exact ⟨identified_put h hne _, identified_put h hne _⟩
  | finish_upload => exact ⟨identified_finish_stream h _, identified_finish_stream h _⟩
  | close_upload => exact ⟨h, identified_finish_stream h _⟩
  | read => exact ⟨h, h⟩

theorem identified_read_step (event : HostSession.ReaderEvent) :
    Identified (s.read_step event) := by
  have hstream : ∀ {id stream}, s.streams id = some stream → ∀ stream',
      Identified (s.put id stream') := fun hsome _ => identified_put h (by simp [hsome]) _
  unfold HostSession.read_step
  split
  · exact h
  · have hwrite : ∀ id message, Identified (s.write id message) := by
      intro id message
      unfold HostSession.write
      split
      · exact h
      · exact hstream ‹_› _
    split
    · exact (identified_end (hwrite _ _) _).1
    · exact (identified_end (hwrite _ _) _).2
    · exact (identified_end h _).2
  · split
    · split <;> exact h
    · exact identified_finish_stream h _
  · split
    · exact hstream ‹_› _
    · exact identified_finish_stream h _
  · split
    · exact h
    · unfold HostSession.add_credit
      split
      · exact h
      · exact hstream ‹_› _
  · split
    · split
      · exact identified_finish_stream h _
      · exact h
    · exact identified_finish_stream h _
  · split
    · unfold HostSession.send_result
      split
      · exact identified_finish_stream h _
      · split
        · exact hstream ‹_› _
        · exact h
    · exact identified_finish_stream h _
  · split <;> exact h

theorem identified_step (c : HostSession.Step) : Identified (HostSession.step config s c) := by
  unfold HostSession.step
  cases c with
  | receive id message =>
    dsimp only
    split
    · split
      · exact h
      · cases message with
        | stream_open operation credit_bytes metadata => exact identified_open_stream h _ _ _
        | stream_data size chunk eof => exact identified_stream_data h _ _ _
        | stream_window credit_bytes =>
          unfold HostSession.dispatch HostSession.stream_window
          dsimp only
          split
          · exact h
          · rename_i hget
            split
            · exact h
            · exact identified_put h (listed_of_get hget) _
        | stream_cancel | stream_close => exact identified_finish_stream h _
    · exact h
  | read event => exact identified_read_step h event
  | produce id event =>
    dsimp only
    split
    · exact h
    · exact identified_put h (by simp_all) _
  | close =>
    intro id hid
    exact congrArg (Option.map _) (h id hid)

end

theorem identified_run (steps : List HostSession.Step) (h : Identified s) :
    Identified (HostSession.run config steps s) := by
  unfold HostSession.run
  induction steps generalizing s with
  | nil => exact h
  | cons c steps ih => exact ih (identified_step h c)

/-- The sessions have the same streams, and so decide alike on an opening. -/
structure SameStreams (s t : HostSession) : Prop where
  get : ∀ id, t.get id = s.get id
  live : t.live = s.live
  has : ∀ operation, t.has operation = s.has operation

theorem mem_live (h : Identified s) : id ∈ s.live ↔ (s.get id).isSome = true := by
  rw [HostSession.live, Finset.mem_filter, and_iff_right_iff_imp]
  intro hget
  by_contra hid
  rw [HostSession.get, h id hid] at hget
  cases hget

theorem sameStreams (hs : Identified s) (ht : Identified t) (h : ∀ id, t.get id = s.get id) :
    SameStreams s t := by
  have hlive : t.live = s.live := by
    ext id
    rw [mem_live ht, mem_live hs, h id]
  refine ⟨h, hlive, fun operation => ?_⟩
  unfold HostSession.has
  simp only [hlive, h]

/-- Producers take steps while the read loop waits. -/
def meanwhile (config : StreamConfig) (others : List (StreamId × ProducerEvent))
    (s : HostSession) : HostSession :=
  HostSession.run config (others.map fun other => .produce other.1 other.2) s

variable {others : List (StreamId × ProducerEvent)}

theorem meanwhile_cons (other : StreamId × ProducerEvent) :
    meanwhile config (other :: others) s =
      meanwhile config others (HostSession.step config s (.produce other.1 other.2)) := rfl

theorem produce_keeps (id : StreamId) (event : ProducerEvent) :
    (HostSession.step config s (.produce id event)).stream_ids = s.stream_ids ∧
    (HostSession.step config s (.produce id event)).reader = s.reader ∧
    (HostSession.step config s (.produce id event)).closed = s.closed := by
  unfold HostSession.step
  dsimp only
  split <;> exact ⟨rfl, rfl, rfl⟩

theorem meanwhile_keeps :
    (meanwhile config others s).stream_ids = s.stream_ids ∧
    (meanwhile config others s).reader = s.reader := by
  induction others generalizing s with
  | nil => exact ⟨rfl, rfl⟩
  | cons other others ih =>
    rw [meanwhile_cons, ih.1, ih.2]
    exact ⟨(produce_keeps _ _).1, (produce_keeps _ _).2.1⟩

theorem produce_streams (id j : StreamId) (event : ProducerEvent) :
    (HostSession.step config s (.produce id event)).streams j =
      if j = id then (s.streams j).map fun stream => stream.produce_step s.closed event
      else s.streams j := by
  unfold HostSession.step
  dsimp only
  cases hid : s.streams id with
  | none =>
    dsimp only
    split
    · rename_i hj
      rw [hj, hid, Option.map_none]
    · rfl
  | some stream =>
    dsimp only [HostSession.put]
    rw [Function.update_apply]
    split
    · rename_i hj
      rw [hj, hid, Option.map_some]
    · rfl

/-- A producer looks at its own stream only. -/
theorem meanwhile_agree {j : StreamId} (hclosed : t.closed = s.closed)
    (h : t.streams j = s.streams j) :
    (meanwhile config others t).streams j = (meanwhile config others s).streams j := by
  induction others generalizing s t with
  | nil => exact h
  | cons other others ih =>
    refine ih ?_ ?_
    · rw [(produce_keeps other.1 other.2).2.2, (produce_keeps other.1 other.2).2.2, hclosed]
    · rw [produce_streams, produce_streams, h, hclosed]

theorem meanwhile_absent (hsome : s.streams id = some stream)
    (habsent : stream.producer = .absent) :
    (meanwhile config others s).streams id = some stream := by
  induction others generalizing s with
  | nil => exact hsome
  | cons other others ih =>
    refine ih ?_
    rw [produce_streams, hsome]
    split
    · rw [Option.map_some]
      unfold HostStream.produce_step
      rw [habsent]
    · rfl

/-- After `_open_stream` has come to its await: it sends an error, or the await of its grant
raises. -/
def Refused (opened : HostSession) (id : StreamId) (event : HostSession.ReaderEvent) : Prop :=
  (∃ code, opened.reader = .sending id (.error code) .read) ∨
    event ≠ .ok ∧ ∃ credit, opened.reader = .sending id (.stream_window credit) .read

/-- An upload that passes the checks, without complete metadata or with a grant that is not
sent. -/
def LeftBehind (config : StreamConfig) (s : HostSession) (id : StreamId)
    (operation : StreamOperation) (metadata : Bool) (event : HostSession.ReaderEvent) : Prop :=
  operation = .file_upload ∧ id ∉ s.stream_ids ∧
    s.stream_ids.card < config.max_session_identities ∧
    s.live.card < config.max_concurrent_streams ∧ s.has .file_upload = false ∧
    (metadata = false ∨ event ≠ .ok)

/-- An error says nothing to a stream. -/
theorem read_step_error {opened : HostSession} {code : StreamCode}
    (hreader : opened.reader = .sending id (.error code) .read) (event : HostSession.ReaderEvent)
    (j : StreamId) : (opened.read_step event).streams j = opened.streams j := by
  have hwrite : (opened.write id (.error code)).streams j = opened.streams j := by
    unfold HostSession.write
    cases hsome : opened.streams id with
    | none => rfl
    | some stream =>
      change Function.update opened.streams id (some stream) j = _
      rw [← hsome, Function.update_eq_self]
  unfold HostSession.read_step
  rw [hreader]
  cases event with
  | ok | taken => exact hwrite
  | raises | result size => rfl

/-- The stream of an opening that is refused is left as it is listed. -/
theorem read_step_listed {opened : HostSession} {event : HostSession.ReaderEvent}
    (h : Refused opened id event) (hsome : opened.streams id = some stream) :
    ∃ left, (opened.read_step event).streams id = some left ∧ left.listed = stream.listed := by
  obtain ⟨code, hreader⟩ | ⟨hfails, credit, hreader⟩ := h
  · exact ⟨stream, (read_step_error hreader event id).trans hsome, rfl⟩
  · unfold HostSession.read_step
    rw [hreader]
    cases event with
    | ok => exact absurd rfl hfails
    | taken =>
      refine ⟨stream.wrote (.stream_window credit), ?_, rfl⟩
      change (opened.write id _).streams id = _
      unfold HostSession.write
      rw [hsome]
      exact Function.update_self _ _ _
    | raises | result size => exact ⟨stream, hsome, rfl⟩

theorem refused_produced {opened : HostSession} {event : HostSession.ReaderEvent}
    (h : Refused opened id event) : Refused (meanwhile config others opened) id event := by
  unfold Refused
  rw [meanwhile_keeps.2]
  exact h

theorem sameStreams_unplaced {opened : HostSession} {event : HostSession.ReaderEvent}
    (hs : Identified s) (hopened : Identified opened) (hstreams : opened.streams = s.streams)
    (hclosed : opened.closed = s.closed) {code : StreamCode}
    (hreader : opened.reader = .sending id (.error code) .read) :
    SameStreams (meanwhile config others s) ((meanwhile config others opened).read_step event) := by
  refine sameStreams (identified_run _ hs) (identified_read_step (identified_run _ hopened) _)
    fun j => ?_
  unfold HostSession.get
  rw [read_step_error (meanwhile_keeps.2.trans hreader),
    meanwhile_agree hclosed (congrFun hstreams j)]

/-- **A refused opening leaves the streams as they were, unless it leaves an upload behind.** -/
theorem refused_leaves (config : StreamConfig) (steps : List HostSession.Step) (id : StreamId)
    (operation : StreamOperation) (credit_bytes : Credit) (metadata : Bool)
    (others : List (StreamId × ProducerEvent)) (event : HostSession.ReaderEvent)
    (hread : (HostSession.run config steps .start).reader = .read)
    (hrefused : Refused ((HostSession.run config steps .start).open_stream config id operation
      credit_bytes metadata) id event) :
    SameStreams (meanwhile config others (HostSession.run config steps .start))
        ((meanwhile config others ((HostSession.run config steps .start).open_stream config id
          operation credit_bytes metadata)).read_step event) ↔
      ¬ LeftBehind config (HostSession.run config steps .start) id operation metadata event := by
  have hs : Identified (HostSession.run config steps .start) := identified_run steps fun _ _ => rfl
  generalize HostSession.run config steps .start = s at hread hrefused hs ⊢
  have hopened : Identified (s.open_stream config id operation credit_bytes metadata) :=
    identified_open_stream hs operation credit_bytes metadata
  generalize hresult : s.open_stream config id operation credit_bytes metadata = opened
    at hrefused hopened ⊢
  have hunplaced : ∀ code, opened.reader = .sending id (.error code) .read →
      opened.streams = s.streams → opened.closed = s.closed →
      ¬ LeftBehind config s id operation metadata event →
      (SameStreams (meanwhile config others s) ((meanwhile config others opened).read_step event) ↔
        ¬ LeftBehind config s id operation metadata event) := fun _ hreader hstreams hclosed hnot =>
    iff_of_true (sameStreams_unplaced hs hopened hstreams hclosed hreader) hnot
  unfold HostSession.open_stream at hresult
  split at hresult
  · rename_i hseen
    subst hresult
    refine hunplaced _ rfl rfl rfl ?_
    rintro ⟨_, hid, hcard, _⟩
    exact hseen.elim hid (Nat.not_le.mpr hcard)
  rename_i hfresh
  rw [not_or, Nat.not_le] at hfresh
  have hinsert : SameStreams s { s with stream_ids := insert id s.stream_ids } :=
    sameStreams hs (fun j hj => hs j fun hmem => hj (Finset.mem_insert_of_mem hmem)) fun _ => rfl
  dsimp only at hresult
  rw [hinsert.live] at hresult
  simp only [hinsert.has] at hresult
  split at hresult
  · rename_i hlimit
    subst hresult
    refine hunplaced _ rfl rfl rfl ?_
    rintro ⟨_, _, _, hlive, _⟩
    exact Nat.not_le.mpr hlive hlimit
  split at hresult
  · rename_i hlimit hhas
    subst hresult
    refine hunplaced _ rfl rfl rfl ?_
    rintro ⟨rfl, _, _, _, hfree, _⟩
    rw [hfree] at hhas
    exact Bool.false_ne_true hhas.2
  rename_i hlimit hhas
  split at hresult
  · have hfree : s.has .file_upload = false := by
      rw [Bool.eq_false_iff]
      exact fun hhad => hhas ⟨by decide, hhad⟩
    have hplaced : ∃ stream, opened.streams id = some stream ∧ stream.producer = .absent ∧
        stream.listed = true ∧ (metadata = false ∨ event ≠ .ok) := by
      split at hresult
      · subst hresult
        refine ⟨_, Function.update_self _ _ _, rfl, rfl, .inr ?_⟩
        obtain ⟨code, hreader⟩ | ⟨hfails, _⟩ := hrefused
        · cases hreader
        · exact hfails
      · rename_i hmetadata
        subst hresult
        exact ⟨_, Function.update_self _ _ _, rfl, rfl, .inl (Bool.eq_false_iff.mpr hmetadata)⟩
    obtain ⟨stream, hsome, habsent, hlisted, hcause⟩ := hplaced
    refine iff_of_false ?_ (not_not_intro ⟨rfl, hfresh.1, hfresh.2, not_le.mp hlimit, hfree, hcause⟩)
    intro hsame
    have hproduced : Refused (meanwhile config others opened) id event := refused_produced hrefused
    obtain ⟨left, hafter, hleft⟩ := read_step_listed hproduced (meanwhile_absent hsome habsent)
    have hid : id ∉ (meanwhile config others s).stream_ids := by
      rw [meanwhile_keeps.1]
      exact hfresh.1
    have hbefore : (meanwhile config others s).streams id = none := identified_run _ hs id hid
    have hget := hsame.get id
    rw [HostSession.get, HostSession.get, hafter, hbefore] at hget
    simp [hleft, hlisted] at hget
  · subst hresult
    obtain ⟨code, hreader⟩ | ⟨_, credit, hreader⟩ := hrefused <;>
      exact absurd (hread.symm.trans hreader) (by simp)

theorem refused_leaves_upload :
    SameStreams (meanwhile exampleConfig [] (HostSession.run exampleConfig [] .start))
        ((meanwhile exampleConfig [] ((HostSession.run exampleConfig [] .start).open_stream
          exampleConfig 1 .file_upload ⟨10, by decide, by decide⟩ false)).read_step .ok) ↔
      ¬ LeftBehind exampleConfig (HostSession.run exampleConfig [] .start) 1 .file_upload false
        .ok :=
  refused_leaves exampleConfig [] 1 .file_upload ⟨10, by decide, by decide⟩ false [] .ok rfl
    (.inl ⟨.bad_request, by decide⟩)

/-- An upload without metadata stands in the way of the next one. -/
theorem refused_upload_left :
    let opened := HostSession.start.open_stream exampleConfig 1 .file_upload
      ⟨10, by decide, by decide⟩ false
    opened.reader = .sending 1 (.error .bad_request) .read ∧
    (HostSession.start.get 1).isSome = false ∧ ((opened.read_step .ok).get 1).isSome = true ∧
    ((opened.read_step .ok).open_stream exampleConfig 2 .file_upload ⟨10, by decide, by decide⟩
      true).reader = .sending 2 (.error .stream_conflict) .read := by
  decide

end ClaudeCodeBridge.Analysis.Relay
