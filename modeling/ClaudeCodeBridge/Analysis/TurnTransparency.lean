import ClaudeCodeBridge.Analysis.NewSessions
import ClaudeCodeBridge.Analysis.TurnEvents

/-!
# Polls and restarts of a turn

Every poll goes on from where the polls before it have left the turn: what they have observed is
what the state machine makes of the log so far (`Following`), up to the item that ends the turn
(`Settled`).  A restart changes nothing, if what the daemon keeps of the submission can be saved
and the path of its session leads to itself.
-/

set_option autoImplicit false

namespace ClaudeCodeBridge.Analysis.ClaudeTurn

open Program
open Model.ClaudeSession (LogText ReaderState newline)
open Model.ClaudeTurn
open Relation

variable {watcher : Watcher} {prompt : Prompt} {host later : Host} {seen more rest : Bytes}
  {poll : ClaudePollState} {submission : ProviderSubmission} {state : ReaderState}
  {before : List CompletionItem}

/-- The turn that nothing has been read of. -/
def first_state (prompt : Prompt) : ClaudePollState :=
  build_poll_state (start_active_submission prompt)

/-- What the state machine makes of what has been appended since the prompt. -/
def turn_of (watcher : Watcher) (prompt : Prompt) (seen : Bytes) :
    ClaudePollState × Option CompletionDecision :=
  watcher.wording.process_events (watcher.text.entries seen) (first_state prompt)

/-- The state of a reader that has read so far. -/
def state_at (prompt : Prompt) (seen : Bytes) : ReaderState :=
  { session_path := some prompt.session
    offset := (prompt.log ++ seen).length
    carry := openLine newline seen }

/-- The submission that has been observed so far. -/
def left_at (prompt : Prompt) (seen : Bytes) (poll : ClaudePollState) : ProviderSubmission :=
  (finalize_poll_result (start_active_submission prompt) poll (state_at prompt seen)).submission

def reply_of (turn : ClaudePollState × Option CompletionDecision) : Text :=
  if turn.2.isSome || turn.1.terminal_reply = [] then turn.1.reply_buffer
  else turn.1.terminal_reply

/-- The state as the next poll builds it. -/
def cleared (poll : ClaudePollState) : ClaudePollState :=
  { poll with items := [], reached_turn_boundary := false }

theorem observing_first (prompt : Prompt) :
    Observing prompt.session prompt.request_anchor prompt.no_wrap (first_state prompt) where
  items := fun item hitem => absurd hitem List.not_mem_nil
  goes_on := rfl
  session := rfl
  anchor := rfl
  wrapped := by
    intro hwrap
    unfold first_state build_poll_state start_active_submission
    simp only [hwrap, Bool.or_self]
  activated := by
    intro hseen
    unfold first_state build_poll_state start_active_submission at hseen ⊢
    simp only [Bool.or_self, Bool.and_self] at hseen ⊢
    exact hseen

theorem observes_turn (watcher : Watcher) (prompt : Prompt) (seen : Bytes) :
    Observes prompt.session prompt.request_anchor prompt.no_wrap (turn_of watcher prompt seen) :=
  observes_events watcher.wording _ (observing_first prompt)

theorem turn_of_append_stopped (h : stopped (turn_of watcher prompt seen) = true) (more : Bytes) :
    turn_of watcher prompt (seen ++ more) = turn_of watcher prompt seen := by
  unfold turn_of Wording.process_events at h ⊢
  rw [ClaudeSession.entries_append]
  exact foldUntil_append_of_stop rfl h _

theorem turn_of_append (h : turn_of watcher prompt seen = (poll, none))
    (hgo : poll.reached_turn_boundary = false) (more : Bytes) :
    turn_of watcher prompt (seen ++ more) =
      watcher.wording.process_events (watcher.text.entries (openLine newline seen ++ more))
        poll := by
  have hturn : stopped (turn_of watcher prompt seen) = false := by
    rw [h]
    unfold stopped
    rw [hgo]
    rfl
  have hfold := foldUntil_append_of_go hturn
    (watcher.text.entries (openLine newline seen ++ more))
  unfold turn_of Wording.process_events at h ⊢
  rw [ClaudeSession.entries_append]
  rw [h] at hfold
  exact hfold

theorem try_get_entries_at (hreader : submission.runtime_state.reader = some prompt.session)
    (seen more : Bytes) :
    watcher.try_get_entries submission (prompt.log ++ seen ++ more) (state_at prompt seen) =
      (watcher.text.entries (openLine newline seen ++ more), state_at prompt (seen ++ more)) := by
  have hread := ClaudeSession.read_incremental_append watcher.text prompt.log seen more
  unfold Watcher.try_get_entries
  simp only [hreader]
  unfold ReaderState.select LogText.read_new_entries state_at
  simp only [if_pos, hread]
  unfold LogText.entries
  rw [List.append_assoc]

theorem rotation_same {stem : ℕ → Text} {session : ℕ} (h : poll.session_path = some session) :
    apply_session_rotation stem submission (some session) poll = poll := by
  unfold apply_session_rotation
  exact if_pos h

/-- What a poll has come to that has read so far: a result, or the state of the turn, without the
items of the polls before it. -/
inductive Came (watcher : Watcher) (prompt : Prompt) (submission : ProviderSubmission)
    (before : List CompletionItem) (seen : Bytes) : Batch → Prop
  | ended (poll : ClaudePollState) (decision : CompletionDecision) (state : ReaderState) :
    turn_of watcher prompt seen = (under before poll, some decision) →
    Came watcher prompt submission before seen
      (.ended (api_error_result submission poll decision state))
  | reached (poll : ClaudePollState) (state : ReaderState) (has_events : Bool) :
    turn_of watcher prompt seen = (under before poll, none) →
    poll.reached_turn_boundary = true →
    Came watcher prompt submission before seen (.events state poll has_events)
  | goes_on (poll : ClaudePollState) (has_events : Bool) :
    turn_of watcher prompt seen = (under before poll, none) →
    Observing prompt.session prompt.request_anchor prompt.no_wrap poll →
    Came watcher prompt submission before seen (.events (state_at prompt seen) poll has_events)

/-- A batch takes the turn on by what it reads. -/
theorem came_batch (hreader : submission.runtime_state.reader = some prompt.session)
    (hturn : turn_of watcher prompt seen = (under before poll, none))
    (h : Observing prompt.session prompt.request_anchor prompt.no_wrap poll) (more : Bytes) :
    Came watcher prompt submission before (seen ++ more)
      (watcher.read_event_batch submission (prompt.log ++ seen ++ more) (state_at prompt seen)
        poll) := by
  have hmore := turn_of_append hturn h.goes_on more
  rw [process_events_under] at hmore
  unfold Watcher.read_event_batch
  rw [try_get_entries_at hreader]
  have hsession : apply_session_rotation watcher.places.stem submission
      (state_at prompt (seen ++ more)).session_path poll = poll := rotation_same h.session
  simp only [hsession]
  split
  · rename_i hnone
    rw [hnone] at hmore
    exact Came.goes_on poll false hmore h
  · have hobserves := observes_events watcher.wording
      (watcher.text.entries (openLine newline seen ++ more)) h
    revert hmore hobserves
    generalize watcher.wording.process_events
      (watcher.text.entries (openLine newline seen ++ more)) poll = turn
    intro hmore hobserves
    obtain ⟨poll', decision⟩ := turn
    cases decision with
    | some decision => exact Came.ended poll' decision _ hmore
    | none =>
      by_cases hreached : poll'.reached_turn_boundary = true
      · exact Came.reached poll' _ true hmore hreached
      · apply Came.goes_on poll' true hmore
        apply observing_of_observes hobserves
        unfold stopped
        rw [Bool.eq_false_iff.mpr hreached]
        rfl

/-- A poll takes the turn on by what it reads; it reads everything, if the log stands still or the
turn goes on to the last read. -/
theorem came_batches (hreader : submission.runtime_state.reader = some prompt.session)
    (growths : List Bytes) (more : Bytes)
    (hturn : turn_of watcher prompt seen = (under before poll, none))
    (h : Observing prompt.session prompt.request_anchor prompt.no_wrap poll) :
    ∃ read rest, more ++ growths.flatten = read ++ rest ∧ (growths = [] → rest = []) ∧
      Came watcher prompt submission before (seen ++ read)
        (watcher.poll_event_batches submission growths (prompt.log ++ seen ++ more)
          (state_at prompt seen) poll) := by
  induction growths generalizing seen more poll with
  | nil =>
    refine ⟨more, [], rfl, fun _ => rfl, ?_⟩
    have hcame := came_batch hreader hturn h more
    unfold Watcher.poll_event_batches
    revert hcame
    generalize watcher.read_event_batch submission (prompt.log ++ seen ++ more)
      (state_at prompt seen) poll = batch
    intro hcame
    cases hcame with
    | ended poll' decision state hturn' => exact Came.ended poll' decision state hturn'
    | reached poll' state has_events hturn' hreached =>
      cases has_events with
      | false => exact Came.reached poll' state false hturn' hreached
      | true =>
        simp only [if_pos hreached]
        exact Came.reached poll' state true hturn' hreached
    | goes_on poll' has_events hturn' h' =>
      cases has_events with
      | false => exact Came.goes_on poll' false hturn' h'
      | true =>
        have hlast := came_batch hreader hturn' h' []
        rw [List.append_nil, List.append_nil, ← List.append_assoc] at hlast
        simp only [h'.goes_on, Bool.false_eq_true, if_false]
        exact hlast
  | cons growth growths ih =>
    have hcame := came_batch hreader hturn h more
    unfold Watcher.poll_event_batches
    revert hcame
    generalize watcher.read_event_batch submission (prompt.log ++ seen ++ more)
      (state_at prompt seen) poll = batch
    intro hcame
    cases hcame with
    | ended poll' decision state hturn' =>
      exact ⟨more, _, rfl, fun hnil => absurd hnil (List.cons_ne_nil _ _),
        Came.ended poll' decision state hturn'⟩
    | reached poll' state has_events hturn' hreached =>
      refine ⟨more, _, rfl, fun hnil => absurd hnil (List.cons_ne_nil _ _), ?_⟩
      cases has_events with
      | false => exact Came.reached poll' state false hturn' hreached
      | true =>
        simp only [if_pos hreached]
        exact Came.reached poll' state true hturn' hreached
    | goes_on poll' has_events hturn' h' =>
      cases has_events with
      | false =>
        exact ⟨more, _, rfl, fun hnil => absurd hnil (List.cons_ne_nil _ _),
          Came.goes_on poll' false hturn' h'⟩
      | true =>
        obtain ⟨read, rest, hread, _, hlast⟩ := ih growth hturn' h'
        refine ⟨more ++ read, rest, ?_, fun hnil => absurd hnil (List.cons_ne_nil _ _), ?_⟩
        · rw [List.flatten_cons, hread, List.append_assoc]
        · simp only [h'.goes_on, Bool.false_eq_true, if_false]
          rw [← List.append_assoc seen, List.append_assoc prompt.log]
          exact hlast

/-- What the polls have observed is what the state machine makes of the log so far. -/
structure Following (watcher : Watcher) (prompt : Prompt) (seen rest : Bytes)
    (poll : ClaudePollState) (host : Host) : Prop where
  log : host.log = prompt.log ++ seen ++ rest
  turn : turn_of watcher prompt seen = (poll, none)
  observing : Observing prompt.session prompt.request_anchor prompt.no_wrap poll
  items : host.polls.flatMap ProviderPollResult.items = poll.items
  submission : host.submission = some (left_at prompt seen poll)
  saved : watcher.can_save
      (persisted_execution_state (left_at prompt seen poll) host.pending_items none) = true →
    host.persisted =
      some (persisted_execution_state (left_at prompt seen poll) host.pending_items none)
  replies : ∀ last, host.polls.getLast? = some last →
    last.submission.reply = (left_at prompt seen poll).reply

/-- The polls have observed the end of the turn. -/
structure Settled (watcher : Watcher) (prompt : Prompt) (seen rest : Bytes) (host : Host) :
    Prop where
  log : host.log = prompt.log ++ seen ++ rest
  turn : stopped (turn_of watcher prompt seen) = true
  ended : ∃ poll ∈ host.polls, poll.items.any CompletionItem.terminal = true
  items : host.items = (turn_of watcher prompt seen).1.items
  reply : host.reply = some (reply_of (turn_of watcher prompt seen))

theorem persist_log (record : PersistedExecutionState) (host : Host) :
    (watcher.persist record host).log = host.log := by
  unfold Watcher.persist
  split <;> rfl

theorem persist_polls (record : PersistedExecutionState) (host : Host) :
    (watcher.persist record host).polls = host.polls := by
  unfold Watcher.persist
  split <;> rfl

theorem persist_submission (record : PersistedExecutionState) (host : Host) :
    (watcher.persist record host).submission = host.submission := by
  unfold Watcher.persist
  split <;> rfl

theorem persist_saved {record : PersistedExecutionState} (h : watcher.can_save record = true)
    (host : Host) : (watcher.persist record host).persisted = some record := by
  unfold Watcher.persist
  rw [if_pos h]

theorem settled_more (h : Settled watcher prompt seen rest host)
    (hlog : later.log = host.log ++ more)
    {polls : List ProviderPollResult} (hpolls : later.polls = host.polls ++ polls) :
    Settled watcher prompt seen (rest ++ more) later := by
  obtain ⟨ended, hmem, hended⟩ := h.ended
  have hitems : later.items = host.items := by
    obtain ⟨item, hitem, hterminal⟩ := List.any_eq_true.mp hended
    unfold Host.items
    rw [hpolls, List.flatMap_append]
    exact upTo_append_of_some (List.mem_flatMap.mpr ⟨ended, hmem, hitem⟩) hterminal _
  have hreply : later.reply = host.reply := by
    unfold Host.reply
    rw [hpolls, upTo_append_of_some hmem hended]
  refine ⟨?_, h.turn, ⟨ended, ?_, hended⟩, hitems.trans h.items, hreply.trans h.reply⟩
  · rw [hlog, h.log, List.append_assoc (prompt.log ++ seen)]
  · rw [hpolls]
    exact List.mem_append_left polls hmem

theorem settled_of_ended {result : ProviderPollResult}
    (h : Following watcher prompt seen rest poll host)
    {turn : ClaudePollState × Option CompletionDecision} {read unread : Bytes}
    (hturn : turn_of watcher prompt (seen ++ read) = turn) (hstop : stopped turn = true)
    (hlog : later.log = prompt.log ++ (seen ++ read) ++ unread)
    (hpolls : later.polls = host.polls ++ [result])
    (hitems : turn.1.items = poll.items ++ result.items)
    (hreply : result.submission.reply = reply_of turn) :
    Settled watcher prompt (seen ++ read) unread later := by
  have hobserves := observes_turn watcher prompt (seen ++ read)
  rw [hturn] at hobserves
  unfold Observes at hobserves
  rw [if_pos hstop] at hobserves
  obtain ⟨before, last, hbefore, hlast, hopen⟩ := hobserves
  have hflat : later.polls.flatMap ProviderPollResult.items = turn.1.items := by
    rw [hpolls, List.flatMap_append, h.items, hitems, List.flatMap_cons, List.flatMap_nil,
      List.append_nil]
  have hearlier : ∀ poll ∈ host.polls, poll.items.any CompletionItem.terminal = false := by
    intro poll' hpoll
    rw [List.any_eq_false]
    intro item hitem hterminal
    have hmem : item ∈ poll.items := by
      rw [← h.items]
      exact List.mem_flatMap.mpr ⟨poll', hpoll, hitem⟩
    rw [h.observing.items item hmem] at hterminal
    cases hterminal
  have hresult : result.items.any CompletionItem.terminal = true := by
    have hlast_mem : last ∈ poll.items ++ result.items := by
      rw [← hitems, hbefore]
      exact List.mem_append_right before (List.mem_singleton_self last)
    rw [List.any_eq_true]
    obtain hmem | hmem := List.mem_append.mp hlast_mem
    · rw [h.observing.items last hmem] at hlast
      cases hlast
    · exact ⟨last, hmem, hlast⟩
  refine ⟨hlog, ?_, ⟨result, ?_, hresult⟩, ?_, ?_⟩
  · rw [hturn]
    exact hstop
  · rw [hpolls]
    exact List.mem_append_right _ (List.mem_singleton_self result)
  · unfold Host.items
    rw [hflat, hturn, hbefore, upTo_of_last hopen hlast]
  · unfold Host.reply
    rw [hpolls, upTo_of_last hearlier hresult, List.getLast?_concat, Option.map_some, hreply, hturn]

/-- The daemon observes the turn as the state machine does, and the record of what goes on is
kept. -/
inductive Observed (watcher : Watcher) (prompt : Prompt) (host : Host) : Prop
  | following (seen rest : Bytes) (poll : ClaudePollState) :
    Following watcher prompt seen rest poll host → Observed watcher prompt host
  | settled (seen rest : Bytes) :
    Settled watcher prompt seen rest host → Observed watcher prompt host

theorem left_first (prompt : Prompt) :
    left_at prompt [] (first_state prompt) = start_active_submission prompt := by
  unfold left_at finalize_poll_result first_state build_poll_state state_at
    start_active_submission ClaudePollState.runtime_state
  simp only [Bool.or_self, Bool.and_self, List.append_nil, if_pos]
  rfl

theorem following_start (watcher : Watcher) (prompt : Prompt) :
    Following watcher prompt [] [] (first_state prompt) (watcher.start prompt) where
  log := by
    unfold Watcher.start
    simp only [persist_log, List.append_nil]
  turn := rfl
  observing := observing_first prompt
  items := by
    unfold Watcher.start
    simp only [persist_polls]
    rfl
  submission := by
    unfold Watcher.start
    simp only [persist_submission, left_first]
  saved := by
    rw [left_first]
    unfold Watcher.start Host.pending_items
    simp only [persist_polls]
    intro hsave
    exact persist_saved hsave _
  replies := by
    unfold Watcher.start
    simp only [persist_polls]
    intro last hlast
    cases hlast

theorem build_left (h : Observing prompt.session prompt.request_anchor prompt.no_wrap poll)
    (seen : Bytes) : build_poll_state (left_at prompt seen poll) = cleared poll := by
  have hactivated : (prompt.no_wrap || poll.prompt_activated) = poll.prompt_activated := by
    cases hwrap : prompt.no_wrap with
    | false => rfl
    | true => rw [h.wrapped hwrap, Bool.or_self]
  have hseen : ((prompt.no_wrap || poll.prompt_activated) && poll.anchor_seen) =
      poll.anchor_seen := by
    rw [hactivated]
    cases hanchor : poll.anchor_seen with
    | false => exact Bool.and_false _
    | true => rw [h.activated hanchor, Bool.and_self]
  have hanchor := h.anchor
  unfold build_poll_state left_at finalize_poll_result start_active_submission
    ClaudePollState.runtime_state cleared
  simp only
  rw [← Bool.or_assoc, Bool.or_self, hseen, hactivated, ← hanchor]

theorem under_cleared (h : poll.reached_turn_boundary = false) :
    under poll.items (cleared poll) = poll := by
  unfold under cleared
  rw [List.append_nil, ← h]

theorem observing_cleared (h : Observing prompt.session prompt.request_anchor prompt.no_wrap poll) :
    Observing prompt.session prompt.request_anchor prompt.no_wrap (cleared poll) :=
  { h with
    items := fun _ hitem => absurd hitem List.not_mem_nil
    goes_on := rfl }

theorem poll_log (growths : List Bytes) (host : Host) :
    (watcher.poll growths host).log = host.log ++ growths.flatten := by
  unfold Watcher.poll
  simp only
  split
  · rfl
  · rw [persist_log]
    rfl

theorem poll_polls {growths : List Bytes} {result : ProviderPollResult}
    (h : host.submission.bind (watcher.poll_submission growths host.log) = some result) :
    (watcher.poll growths host).polls = host.polls ++ [result] := by
  unfold Watcher.poll
  simp only [h]
  rw [persist_polls]

theorem poll_submission_of {growths : List Bytes} {result : ProviderPollResult}
    (h : host.submission.bind (watcher.poll_submission growths host.log) = some result)
    (hdecision : result.decision = none) :
    (watcher.poll growths host).submission = some result.submission := by
  unfold Watcher.poll
  simp only [h]
  rw [persist_submission, hdecision, Option.isSome_none, Bool.and_false]
  rfl

theorem poll_saved {growths : List Bytes} {result : ProviderPollResult}
    (h : host.submission.bind (watcher.poll_submission growths host.log) = some result)
    (hsave : watcher.can_save (persisted_execution_state result.submission result.items
      result.decision) = true) :
    (watcher.poll growths host).persisted =
      some (persisted_execution_state result.submission result.items result.decision) := by
  unfold Watcher.poll
  simp only [h]
  exact persist_saved hsave _

theorem pending_of_polls {result : ProviderPollResult} {polls : List ProviderPollResult}
    (h : host.polls = polls ++ [result]) : host.pending_items = result.items := by
  unfold Host.pending_items
  rw [h, List.getLast?_concat]
  rfl

section

variable (h : Following watcher prompt seen rest poll host)

include h

theorem following_of_poll {growths : List Bytes} {read unread : Bytes} {poll' : ClaudePollState}
    {result : ProviderPollResult}
    (hlog : (watcher.poll growths host).log = prompt.log ++ (seen ++ read) ++ unread)
    (hresult : host.submission.bind (watcher.poll_submission growths host.log) = some result)
    (hitems : result.items = poll'.items) (hdecision : result.decision = none)
    (hleft : result.submission = left_at prompt (seen ++ read) (under poll.items poll'))
    (hturn : turn_of watcher prompt (seen ++ read) = (under poll.items poll', none))
    (hgo : poll'.reached_turn_boundary = false) :
    Following watcher prompt (seen ++ read) unread (under poll.items poll')
      (watcher.poll growths host) where
  log := hlog
  turn := hturn
  observing := by
    have hobserves := observes_turn watcher prompt (seen ++ read)
    rw [hturn] at hobserves
    apply observing_of_observes hobserves
    unfold stopped under
    simp only [hgo, Option.isSome_none, Bool.or_self]
  items := by
    rw [poll_polls hresult, List.flatMap_append, h.items, List.flatMap_cons, List.flatMap_nil,
      List.append_nil, hitems]
    rfl
  submission := by
    rw [poll_submission_of hresult hdecision, hleft]
  saved := by
    rw [pending_of_polls (poll_polls hresult), ← hleft]
    intro hsave
    rw [← hdecision] at hsave ⊢
    exact poll_saved hresult hsave
  replies := by
    intro last hlast
    rw [poll_polls hresult, List.getLast?_concat, Option.some_inj] at hlast
    rw [← hlast, hleft]

/-- A poll goes on with the turn; it has read the whole log, if that stands still. -/
theorem observed_poll (growths : List Bytes) :
    (∃ seen' rest' poll', Following watcher prompt seen' rest' poll' (watcher.poll growths host) ∧
      (growths = [] → rest' = []) ∧ (watcher.poll growths host).polls ≠ []) ∨
    ∃ seen' rest', Settled watcher prompt seen' rest' (watcher.poll growths host) := by
  have hturn : turn_of watcher prompt seen = (under poll.items (cleared poll), none) := by
    rw [under_cleared h.observing.goes_on]
    exact h.turn
  have hreader : (left_at prompt seen poll).runtime_state.reader = some prompt.session := rfl
  obtain ⟨read, unread, hread, hall, hcame⟩ :=
    came_batches hreader growths rest hturn (observing_cleared h.observing)
  have hlog : (watcher.poll growths host).log = prompt.log ++ (seen ++ read) ++ unread := by
    rw [poll_log, h.log, List.append_assoc (prompt.log ++ seen), hread]
    simp only [List.append_assoc]
  have hresult : host.submission.bind (watcher.poll_submission growths host.log) =
      some ((watcher.poll_event_batches (left_at prompt seen poll) growths host.log
        (state_at prompt seen) (cleared poll)).poll_result (left_at prompt seen poll)) := by
    rw [h.submission, Option.bind_some, ← build_left h.observing seen]
    rfl
  rw [← h.log] at hcame
  revert hcame hresult
  generalize watcher.poll_event_batches (left_at prompt seen poll) growths host.log
    (state_at prompt seen) (cleared poll) = batch
  intro hcame hresult
  cases hcame with
  | ended poll' decision state hturn' =>
    refine Or.inr ⟨seen ++ read, unread, ?_⟩
    exact settled_of_ended h hturn' (by simp [stopped]) hlog (poll_polls hresult) rfl rfl
  | reached poll' state has_events hturn' hreached =>
    refine Or.inr ⟨seen ++ read, unread, ?_⟩
    have hstop : stopped (under poll.items poll', none) = true := by
      unfold stopped under
      simp only [hreached, Option.isSome_none, Bool.or_false]
    apply settled_of_ended h hturn' hstop hlog (poll_polls hresult) rfl
    unfold reply_of Batch.poll_result finalize_poll_result under
    simp
  | goes_on poll' has_events hturn' h' =>
    refine Or.inl ⟨seen ++ read, unread, under poll.items poll', ?_, hall, ?_⟩
    · exact following_of_poll h hlog hresult rfl rfl rfl hturn' h'.goes_on
    · rw [poll_polls hresult]
      simp

theorem following_restart (hrecoverable : watcher.Recoverable host) :
    Following watcher prompt seen rest poll (watcher.restart host) := by
  obtain ⟨hsave, hresolve⟩ := hrecoverable _ h.submission
  have hpersisted := h.saved hsave
  have hresumed : watcher.resume_submission (persisted_execution_state (left_at prompt seen poll)
      host.pending_items none).submission = some (left_at prompt seen poll) := by
    have hsession : (left_at prompt seen poll).runtime_state.session_path =
        some prompt.session := h.observing.session
    rw [hsession] at hresolve
    have hpath : poll.session_path = some prompt.session := h.observing.session
    unfold Watcher.resume_submission persisted_execution_state export_runtime_state left_at
      finalize_poll_result ClaudePollState.runtime_state start_active_submission
    simp only [hpath, hresolve]
  have hrestart : watcher.restart host =
      watcher.persist (persisted_execution_state (left_at prompt seen poll) host.pending_items none)
        { host with submission := some (left_at prompt seen poll) } := by
    unfold Watcher.restart
    simp only [hpersisted, Option.bind_some, hresumed]
    rfl
  rw [hrestart]
  have hpending : (watcher.persist (persisted_execution_state (left_at prompt seen poll)
      host.pending_items none) { host with submission := some (left_at prompt seen poll) }
        ).pending_items = host.pending_items := by
    unfold Host.pending_items
    rw [persist_polls]
  refine ⟨?_, h.turn, h.observing, ?_, ?_, ?_, ?_⟩
  · rw [persist_log]
    exact h.log
  · rw [persist_polls]
    exact h.items
  · rw [persist_submission]
  · rw [hpending]
    intro _
    exact persist_saved hsave _
  · rw [persist_polls]
    exact h.replies

end

theorem restart_log (host : Host) : (watcher.restart host).log = host.log := by
  unfold Watcher.restart
  simp only
  split
  · rw [persist_log]
  · rfl

theorem restart_polls (host : Host) : (watcher.restart host).polls = host.polls := by
  unfold Watcher.restart
  simp only
  split
  · rw [persist_polls]
  · rfl

theorem poll_appends (watcher : Watcher) (growths : List Bytes) (host : Host) :
    ∃ polls, (watcher.poll growths host).polls = host.polls ++ polls := by
  cases hresult : host.submission.bind (watcher.poll_submission growths host.log) with
  | none =>
    refine ⟨[], ?_⟩
    unfold Watcher.poll
    simp only [hresult, List.append_nil]
    rfl
  | some result => exact ⟨[result], poll_polls hresult⟩

/-- What may happen: the daemon restarts only where it can recover the submission. -/
inductive Steady (watcher : Watcher) : Host → Host → Prop
  | grow (host : Host) (more : Bytes) : Steady watcher host (host.grow more)
  | poll (host : Host) (growths : List Bytes) : Steady watcher host (watcher.poll growths host)
  | restart (host : Host) : watcher.Recoverable host → Steady watcher host (watcher.restart host)

theorem observed_step (h : Observed watcher prompt host) (hstep : Steady watcher host later) :
    Observed watcher prompt later := by
  cases hstep with
  | grow more =>
    cases h with
    | following seen rest poll h =>
      apply Observed.following seen (rest ++ more) poll
      exact
        { h with
          log := by
            unfold Host.grow
            rw [h.log, List.append_assoc (prompt.log ++ seen)] }
    | settled seen rest h =>
      apply Observed.settled seen (rest ++ more)
      exact settled_more h rfl (List.append_nil host.polls).symm
  | poll growths =>
    cases h with
    | following seen rest poll h =>
      obtain ⟨seen', rest', poll', h', _⟩ | ⟨seen', rest', h'⟩ := observed_poll h growths
      · exact Observed.following seen' rest' poll' h'
      · exact Observed.settled seen' rest' h'
    | settled seen rest h =>
      obtain ⟨polls, hpolls⟩ := poll_appends watcher growths host
      exact Observed.settled seen _ (settled_more h (poll_log growths host) hpolls)
  | restart hrecoverable =>
    cases h with
    | following seen rest poll h =>
      exact Observed.following seen rest poll (following_restart h hrecoverable)
    | settled seen rest h =>
      apply Observed.settled seen (rest ++ [])
      apply settled_more h
      · rw [restart_log, List.append_nil]
      · rw [restart_polls, List.append_nil]

theorem observed_run (h : ReflTransGen (Steady watcher) (watcher.start prompt) host) :
    Observed watcher prompt host := by
  induction h with
  | refl => exact Observed.following [] [] _ (following_start watcher prompt)
  | tail _ hstep ih => exact observed_step ih hstep

/-- What has been observed when the whole log has been read: what the state machine makes of it. -/
theorem observed_all (h : Observed watcher prompt host) :
    ∃ more, host.log = prompt.log ++ more ∧
      (watcher.poll [] host).items = (turn_of watcher prompt more).1.items ∧
      (watcher.poll [] host).reply = some (reply_of (turn_of watcher prompt more)) := by
  have hsettled : ∀ seen rest, Settled watcher prompt seen rest (watcher.poll [] host) →
      ∃ more, host.log = prompt.log ++ more ∧
        (watcher.poll [] host).items = (turn_of watcher prompt more).1.items ∧
        (watcher.poll [] host).reply = some (reply_of (turn_of watcher prompt more)) := by
    intro seen rest h
    have hlog := h.log
    rw [poll_log, List.flatten_nil, List.append_nil, List.append_assoc] at hlog
    refine ⟨seen ++ rest, hlog, ?_⟩
    rw [turn_of_append_stopped h.turn rest]
    exact ⟨h.items, h.reply⟩
  cases h with
  | following seen rest poll h =>
    obtain ⟨seen', rest', poll', h', hall, hpolls⟩ | ⟨seen', rest', h'⟩ := observed_poll h []
    · rw [hall rfl] at h'
      have hlog := h'.log
      rw [poll_log, List.flatten_nil, List.append_nil, List.append_nil] at hlog
      refine ⟨seen', hlog, ?_, ?_⟩
      · rw [h'.turn]
        unfold Host.items
        rw [h'.items]
        exact upTo_of_none h'.observing.items
      · rw [h'.turn]
        have hopen : ∀ poll ∈ (watcher.poll [] host).polls,
            poll.items.any CompletionItem.terminal = false := by
          intro poll hpoll
          rw [List.any_eq_false]
          intro item hitem hterminal
          have hmem : item ∈ poll'.items := by
            rw [← h'.items]
            exact List.mem_flatMap.mpr ⟨poll, hpoll, hitem⟩
          rw [h'.observing.items item hmem] at hterminal
          cases hterminal
        unfold Host.reply
        rw [upTo_of_none hopen, List.getLast?_eq_some_getLast hpolls, Option.map_some,
          h'.replies _ (List.getLast?_eq_some_getLast hpolls)]
        unfold reply_of left_at finalize_poll_result
        simp
    · exact hsettled seen' rest' h'
  | settled seen rest h =>
    obtain ⟨polls, hpolls⟩ := poll_appends watcher [] host
    exact hsettled seen _ (settled_more h (poll_log [] host) hpolls)

/-- In a run whose restarts recover the submission, the polls up to a last one observe what one
poll of the final log observes. -/
theorem polls_transparent (h : ReflTransGen (Steady watcher) (watcher.start prompt) host) :
    ∃ more, host.log = prompt.log ++ more ∧
      (watcher.poll [] host).items = (watcher.poll [] ((watcher.start prompt).grow more)).items ∧
      (watcher.poll [] host).reply =
        (watcher.poll [] ((watcher.start prompt).grow more)).reply := by
  obtain ⟨more, hlog, hitems, hreply⟩ := observed_all (observed_run h)
  have hsingle : ReflTransGen (Steady watcher) (watcher.start prompt)
      ((watcher.start prompt).grow more) := ReflTransGen.single (Steady.grow _ more)
  obtain ⟨more', hlog', hitems', hreply'⟩ := observed_all (observed_run hsingle)
  have hstart : ((watcher.start prompt).grow more).log = prompt.log ++ more := by
    unfold Host.grow Watcher.start
    simp only [persist_log]
  rw [hstart, List.append_cancel_left_eq] at hlog'
  subst hlog'
  exact ⟨more, hlog, hitems.trans hitems'.symm, hreply.trans hreply'.symm⟩

theorem recoverable_of_all (h : host.submission.all (fun submission =>
      watcher.can_save (persisted_execution_state submission host.pending_items none) &&
        submission.runtime_state.session_path.map watcher.places.resolve =
          submission.runtime_state.session_path) = true) : watcher.Recoverable host := by
  intro submission hsubmission
  rw [hsubmission, Option.all_some, Bool.and_eq_true, decide_eq_true_iff] at h
  exact h

def requestLine : Bytes :=
  ascii "\x7b\"type\":\"user\",\"message\":\x7b\"role\":\"user\"," ++
    ascii "\"content\":\"CCB_REQ_ID: job_1\"\x7d\x7d"

/-- An answer whose text is a lone surrogate. -/
def splitLine : Bytes :=
  ascii "\x7b\"type\":\"assistant\",\"uuid\":\"a1\"," ++
    ascii "\"message\":\x7b\"role\":\"assistant\",\"content\":\"\\ud83d\"\x7d\x7d"

def answerLine : Bytes :=
  ascii "\x7b\"type\":\"assistant\",\"uuid\":\"a2\"," ++
    ascii "\"message\":\x7b\"role\":\"assistant\",\"content\":\"ok\"," ++
    ascii "\"stop_reason\":\"end_turn\"\x7d\x7d"

def messageEvent (role : Role) (entry_type text uuid stop_reason : Text) : Event :=
  { role := role
    text := text
    entry_type := entry_type
    subtype := []
    uuid := uuid
    parent_uuid := []
    stop_reason := stop_reason
    subagent_id := []
    subagent_name := []
    is_sidechain := false
    message_id := []
    prompt_phase := none
    source_uuid := []
    entry :=
      { timestamp := []
        isMeta := false
        isSidechain := false
        toolUseResult := false
        message_parts := []
        assistant_parts := if role = .assistant then some [] else none
        retry := none
        cause_code := []
        cause_path := [] } }

/-- What reads the three lines. -/
def exampleWatcher : Watcher where
  wording :=
    { lower := id
      strip_done_text := fun text _ => text
      is_done_text := fun _ _ => false
      extract_reply_for_req := fun text _ => text
      opens_with_anchor := fun text request_anchor =>
        (asciiText "CCB_REQ_ID: " ++ request_anchor).isPrefixOf text
      is_stalled_response_text := fun _ => false }
  text :=
    { event := fun line =>
        if line = requestLine then
          some (messageEvent .user (asciiText "user") (asciiText "CCB_REQ_ID: job_1") [] [])
        else if line = splitLine then
          some (messageEvent .assistant (asciiText "assistant") [0xD83D] (asciiText "a1") [])
        else if line = answerLine then
          some (messageEvent .assistant (asciiText "assistant") (asciiText "ok") (asciiText "a2")
            (asciiText "end_turn"))
        else none
      session_is_sidechain := fun _ => none }
  places :=
    { stem := fun _ => asciiText "session"
      text := fun _ => asciiText "/session.jsonl"
      resolve := id }

def examplePrompt : Prompt where
  session := 0
  log := []
  request_anchor := asciiText "job_1"
  no_wrap := false
  prompt_text := asciiText "CCB_REQ_ID: job_1"

def growBegun : Bytes := requestLine ++ [newline] ++ answerLine.take 20

/-- The daemon stops with half an answer in the log, which ends after the restart. -/
def restartedHost : Host :=
  (exampleWatcher.restart (exampleWatcher.poll []
    ((exampleWatcher.start examplePrompt).grow growBegun))).grow (answerLine.drop 20 ++ [newline])

theorem polls_transparent_restarted :
    ∃ more, restartedHost.log = examplePrompt.log ++ more ∧
      (exampleWatcher.poll [] restartedHost).items =
        (exampleWatcher.poll [] ((exampleWatcher.start examplePrompt).grow more)).items ∧
      (exampleWatcher.poll [] restartedHost).reply =
        (exampleWatcher.poll [] ((exampleWatcher.start examplePrompt).grow more)).reply := by
  apply polls_transparent
  apply ReflTransGen.tail _ (Steady.grow _ _)
  apply ReflTransGen.tail _ (Steady.restart _ _)
  · apply ReflTransGen.tail _ (Steady.poll _ [])
    exact ReflTransGen.single (Steady.grow _ growBegun)
  · exact recoverable_of_all (by decide +kernel)

/-- A record with a lone surrogate cannot be saved, and the daemon resumes from one before it. -/
theorem polls_not_transparent :
    ¬ ∀ (watcher : Watcher) (prompt : Prompt) (host : Host),
      ReflTransGen (Moves watcher) (watcher.start prompt) host →
      ∃ more, host.log = prompt.log ++ more ∧
        (watcher.poll [] host).items = (watcher.poll [] ((watcher.start prompt).grow more)).items ∧
        (watcher.poll [] host).reply =
          (watcher.poll [] ((watcher.start prompt).grow more)).reply := by
  intro h
  have hrun : ReflTransGen (Moves exampleWatcher) (exampleWatcher.start examplePrompt)
      ((exampleWatcher.restart (exampleWatcher.poll [] ((exampleWatcher.start examplePrompt).grow
        (requestLine ++ [newline] ++ splitLine ++ [newline])))).grow (answerLine ++ [newline])) := by
    apply ReflTransGen.tail _ (Moves.grow _ _)
    apply ReflTransGen.tail _ (Moves.restart _)
    apply ReflTransGen.tail _ (Moves.poll _ [])
    exact ReflTransGen.single (Moves.grow _ _)
  obtain ⟨more, hlog, hitems, _⟩ := h exampleWatcher examplePrompt _ hrun
  have hmore : more = requestLine ++ [newline] ++ splitLine ++ [newline] ++
      (answerLine ++ [newline]) := by
    rw [← List.nil_append more]
    exact hlog.symm.trans (by decide +kernel)
  subst hmore
  revert hitems
  decide +kernel

end ClaudeCodeBridge.Analysis.ClaudeTurn
