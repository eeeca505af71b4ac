import ClaudeCodeBridge.Model.ClaudeTurns

/-!
# Events of a turn

The state machine never looks at the items that it has appended (`process_events_under`).  As long
as it has not stopped, none of them ends the turn, and a prompt whose anchor has been seen is
activated; when it stops, the last one ends the turn, and no other does (`observes_events`).
-/

set_option autoImplicit false

namespace ClaudeCodeBridge.Analysis.ClaudeTurn

open Program
open Model.ClaudeTurn

variable {wording : Wording} {event : Event} {events : List Event} {poll later : ClaudePollState}
  {base : List CompletionItem} {kind : CompletionItemKind}
  {payload : List (String × PayloadValue)} {text cleaned reply reason stop_reason : Text}

/-- The state with more items before its own. -/
def under (base : List CompletionItem) (poll : ClaudePollState) : ClaudePollState :=
  { poll with items := base ++ poll.items }

theorem append_under (poll : ClaudePollState) :
    (under base poll).append kind payload = under base (poll.append kind payload) := by
  unfold under ClaudePollState.append
  simp only [List.append_assoc]

theorem reach_under (poll : ClaudePollState) :
    (under base poll).reach reply reason stop_reason =
      under base (poll.reach reply reason stop_reason) := by
  unfold ClaudePollState.reach
  rw [append_under]
  rfl

theorem append_chunk_under (poll : ClaudePollState) :
    append_chunk_item event cleaned (under base poll) =
      under base (append_chunk_item event cleaned poll) := by
  unfold append_chunk_item
  rw [append_under]
  rfl

theorem handle_user_under (poll : ClaudePollState) :
    wording.handle_user_event text (under base poll) =
      under base (wording.handle_user_event text poll) := by
  unfold Wording.handle_user_event
  simp only [apply_ite (under base)]
  apply if_congr Iff.rfl _ rfl
  apply if_congr Iff.rfl rfl
  unfold under ClaudePollState.append
  simp only [List.append_assoc]

theorem handle_prompt_lifecycle_under (poll : ClaudePollState) :
    wording.handle_prompt_lifecycle_event event (under base poll) =
      under base (wording.handle_prompt_lifecycle_event event poll) := by
  unfold Wording.handle_prompt_lifecycle_event
  split
  · simp only [apply_ite (under base)]
    rfl
  · simp only [apply_ite (under base)]
    rfl
  · simp only [apply_ite (under base), ← handle_user_under]
    rfl
  · rfl

theorem turn_to_message_under (poll : ClaudePollState) :
    turn_to_message event (under base poll) = under base (turn_to_message event poll) := by
  unfold turn_to_message
  simp only [apply_ite (under base)]
  rfl

theorem update_top_level_under (wording : Wording) (event : Event) (cleaned : Text)
    (base : List CompletionItem) (poll : ClaudePollState) :
    wording.update_top_level_assistant_message event cleaned (under base poll) =
      under base (wording.update_top_level_assistant_message event cleaned poll) := by
  unfold Wording.update_top_level_assistant_message
  rw [turn_to_message_under]
  cases event.entry.assistant_parts with
  | none | some parts =>
    simp only [apply_ite (under base)]
    split_ifs <;> rfl

theorem take_answer_under (poll : ClaudePollState) :
    wording.take_answer event (under base poll) = under base (wording.take_answer event poll) := by
  unfold Wording.take_answer
  have hupdate := update_top_level_under wording event
    (wording.cleaned_assistant_text event.text poll.request_anchor) base poll
  simp only [apply_ite (under base), ← append_chunk_under]
  unfold under at hupdate ⊢
  simp only [hupdate]

theorem maybe_append_turn_boundary_under (poll : ClaudePollState) :
    wording.maybe_append_turn_boundary text (under base poll) =
      under base (wording.maybe_append_turn_boundary text poll) := by
  unfold Wording.maybe_append_turn_boundary
  simp only [apply_ite (under base), ← reach_under]
  rfl

theorem maybe_append_assistant_end_under (poll : ClaudePollState) :
    maybe_append_assistant_end_turn_boundary event (under base poll) =
      under base (maybe_append_assistant_end_turn_boundary event poll) := by
  unfold maybe_append_assistant_end_turn_boundary
  simp only [apply_ite (under base)]
  apply if_congr Iff.rfl rfl
  apply if_congr Iff.rfl rfl
  apply if_congr Iff.rfl rfl
  apply if_congr Iff.rfl rfl
  apply if_congr Iff.rfl _ rfl
  rw [← reach_under]
  by_cases huuid : Model.Relay.strip event.uuid = []
  · simp only [if_pos huuid]
    rfl
  · simp only [if_neg huuid]
    rfl

theorem append_stalled_under (poll : ClaudePollState) :
    append_stalled_response_error (under base poll) =
      under base (append_stalled_response_error poll) := by
  unfold append_stalled_response_error
  rw [append_under]
  rfl

theorem handle_assistant_under (poll : ClaudePollState) :
    wording.handle_assistant_event event (under base poll) =
      under base (wording.handle_assistant_event event poll) := by
  unfold Wording.handle_assistant_event
  simp only [apply_ite (under base), ← append_chunk_under, ← append_stalled_under,
    ← maybe_append_assistant_end_under, ← maybe_append_turn_boundary_under, ← take_answer_under]
  rw [take_answer_under]
  rfl

/-- The result of an event, with more items before. -/
def under_turn (base : List CompletionItem) (turn : ClaudePollState × Option CompletionDecision) :
    ClaudePollState × Option CompletionDecision := (under base turn.1, turn.2)

theorem handle_system_under (poll : ClaudePollState) :
    wording.handle_system_event event (under base poll) =
      under_turn base (wording.handle_system_event event poll) := by
  unfold Wording.handle_system_event
  cases wording.exhausted_retry_state event with
  | none =>
    simp only [apply_ite (under_turn base)]
    unfold under_turn
    simp only [← reach_under]
    rfl
  | some retry =>
    unfold under_turn
    simp only [← append_under]
    rfl

theorem process_event_under (poll : ClaudePollState) :
    wording.process_event event (under base poll) =
      under_turn base (wording.process_event event poll) := by
  unfold Wording.process_event
  cases event.role with
  | prompt_lifecycle =>
    simp only [handle_prompt_lifecycle_under]
    rfl
  | user =>
    unfold under_turn
    simp only [apply_ite (under base), handle_user_under]
  | system =>
    simp only [apply_ite (under_turn base), handle_system_under]
    rfl
  | assistant =>
    unfold under_turn
    simp only [apply_ite (under base), handle_assistant_under]
    rfl

theorem process_events_under (base : List CompletionItem) (events : List Event)
    (poll : ClaudePollState) :
    wording.process_events events (under base poll) =
      under_turn base (wording.process_events events poll) := by
  unfold Wording.process_events
  exact foldUntil_map (under_turn base) (fun _ => rfl) (fun turn _ => process_event_under turn.1)
    (poll, none) events

structure Observing (session : ℕ) (request_anchor : Text) (no_wrap : Bool)
    (poll : ClaudePollState) : Prop where
  items : ∀ item ∈ poll.items, item.terminal = false
  goes_on : poll.reached_turn_boundary = false
  session : poll.session_path = some session
  anchor : poll.request_anchor = request_anchor
  wrapped : no_wrap = true → poll.prompt_activated = true
  activated : poll.anchor_seen = true → poll.prompt_activated = true

def Ended (items : List CompletionItem) : Prop :=
  ∃ before last, items = before ++ [last] ∧ last.terminal = true ∧
    ∀ item ∈ before, item.terminal = false

def Observes (session : ℕ) (request_anchor : Text) (no_wrap : Bool)
    (turn : ClaudePollState × Option CompletionDecision) : Prop :=
  if stopped turn then Ended turn.1.items else Observing session request_anchor no_wrap turn.1

/-- What no answer changes by itself. -/
structure Keeps (poll later : ClaudePollState) : Prop where
  items : later.items = poll.items
  reached : later.reached_turn_boundary = poll.reached_turn_boundary
  session : later.session_path = poll.session_path
  anchor : later.request_anchor = poll.request_anchor
  anchor_seen : later.anchor_seen = poll.anchor_seen
  activated : later.prompt_activated = poll.prompt_activated

theorem Keeps.trans {middle : ClaudePollState} (h : Keeps poll middle) (h' : Keeps middle later) :
    Keeps poll later where
  items := h'.items.trans h.items
  reached := h'.reached.trans h.reached
  session := h'.session.trans h.session
  anchor := h'.anchor.trans h.anchor
  anchor_seen := h'.anchor_seen.trans h.anchor_seen
  activated := h'.activated.trans h.activated

variable {session : ℕ} {request_anchor : Text} {no_wrap : Bool}

theorem observing_of_keeps (h : Observing session request_anchor no_wrap poll)
    (hkeeps : Keeps poll later) : Observing session request_anchor no_wrap later where
  items := by
    rw [hkeeps.items]
    exact h.items
  goes_on := by
    rw [hkeeps.reached]
    exact h.goes_on
  session := by
    rw [hkeeps.session]
    exact h.session
  anchor := by
    rw [hkeeps.anchor]
    exact h.anchor
  wrapped := by
    rw [hkeeps.activated]
    exact h.wrapped
  activated := by
    rw [hkeeps.anchor_seen, hkeeps.activated]
    exact h.activated

theorem observes_of_observing {poll : ClaudePollState}
    (h : Observing session request_anchor no_wrap poll) :
    Observes session request_anchor no_wrap (poll, none) := by
  unfold Observes stopped
  rw [h.goes_on]
  exact h

theorem observes_of_ended {turn : ClaudePollState × Option CompletionDecision}
    (hstop : stopped turn = true) (h : Ended turn.1.items) :
    Observes session request_anchor no_wrap turn := by
  unfold Observes
  rw [if_pos hstop]
  exact h

theorem observing_append (kind : CompletionItemKind) (payload : List (String × PayloadValue))
    (h : Observing session request_anchor no_wrap poll)
    (hkind : kind ≠ .turn_boundary ∧ kind ≠ .error) :
    Observing session request_anchor no_wrap (poll.append kind payload) where
  items := by
    intro item hitem
    unfold ClaudePollState.append at hitem
    rw [List.mem_append, List.mem_singleton] at hitem
    obtain hitem | rfl := hitem
    · exact h.items item hitem
    · simp [CompletionItem.terminal, hkind]
  goes_on := h.goes_on
  session := h.session
  anchor := h.anchor
  wrapped := h.wrapped
  activated := h.activated

section

variable (h : Observing session request_anchor no_wrap poll)

include h

theorem ended_append
    (hkind : kind = .turn_boundary ∨ kind = .error) : Ended (poll.append kind payload).items := by
  refine ⟨poll.items, _, rfl, ?_, h.items⟩
  simp [CompletionItem.terminal, hkind]

theorem ended_reach : Ended (poll.reach reply reason stop_reason).items :=
  ended_append h (Or.inl rfl)

theorem observing_user :
    Observing session request_anchor no_wrap (wording.handle_user_event text poll) := by
  unfold Wording.handle_user_event
  split
  · have hactivated : Observing session request_anchor no_wrap
        { poll with prompt_activated := true } :=
      { h with
        wrapped := fun _ => rfl
        activated := fun _ => rfl }
    simp only
    split
    · exact hactivated
    · have happended := observing_append .anchor_seen
        [("turn_id", PayloadValue.text poll.request_anchor)] hactivated ⟨by decide, by decide⟩
      exact { happended with activated := fun _ => rfl }
  · exact h

theorem observing_prompt :
    Observing session request_anchor no_wrap
      (wording.handle_prompt_lifecycle_event event poll) := by
  unfold Wording.handle_prompt_lifecycle_event
  split
  · split
    · exact { h with }
    · exact h
  · split
    · exact { h with }
    · exact h
  · split
    · exact observing_user { h with }
    · exact h
  · exact h

end

theorem keeps_turn_to_message (event : Event) (poll : ClaudePollState) :
    Keeps poll (turn_to_message event poll) := by
  unfold turn_to_message
  split <;> exact ⟨rfl, rfl, rfl, rfl, rfl, rfl⟩

theorem keeps_update (wording : Wording) (event : Event) (cleaned : Text) (poll : ClaudePollState) :
    Keeps poll (wording.update_top_level_assistant_message event cleaned poll) := by
  apply (keeps_turn_to_message event poll).trans
  unfold Wording.update_top_level_assistant_message
  cases event.entry.assistant_parts with
  | none | some parts =>
    simp only
    split_ifs <;> exact ⟨rfl, rfl, rfl, rfl, rfl, rfl⟩

section

variable (h : Observing session request_anchor no_wrap poll)

include h

theorem observing_chunk :
    Observing session request_anchor no_wrap (append_chunk_item event cleaned poll) :=
  observing_append _ _ h ⟨by decide, by decide⟩

theorem observing_take_answer :
    Observing session request_anchor no_wrap (wording.take_answer event poll) := by
  unfold Wording.take_answer
  have hupdated := observing_of_keeps h (keeps_update wording event
    (wording.cleaned_assistant_text event.text poll.request_anchor) poll)
  simp only
  split
  · exact observing_chunk { hupdated with }
  · exact { hupdated with }

/-- The end of a turn that its answer shows. -/
theorem observes_boundaries :
    Observes session request_anchor no_wrap
      (maybe_append_assistant_end_turn_boundary event
        (wording.maybe_append_turn_boundary text poll), none) := by
  have hfirst : wording.maybe_append_turn_boundary text poll = poll ∨
      ∃ reply, wording.maybe_append_turn_boundary text poll =
        poll.reach reply (asciiText "task_complete") [] := by
    have hreply : ∀ reply : Text,
        (if has_visible_text reply then poll.reach reply (asciiText "task_complete") []
          else poll) = poll ∨
        ∃ reply', (if has_visible_text reply then poll.reach reply (asciiText "task_complete") []
          else poll) = poll.reach reply' (asciiText "task_complete") [] := by
      intro reply
      split
      · exact Or.inr ⟨reply, rfl⟩
      · exact Or.inl rfl
    unfold Wording.maybe_append_turn_boundary
    split
    · exact Or.inl rfl
    split
    · exact Or.inl rfl
    · exact hreply _
  obtain hsame | ⟨reply, hreached⟩ := hfirst
  · rw [hsame]
    unfold maybe_append_assistant_end_turn_boundary
    split_ifs
    · exact observes_of_observing h
    · exact observes_of_observing h
    · exact observes_of_observing h
    · exact observes_of_observing h
    · exact observes_of_ended rfl (ended_reach h)
    · have hnamed : Observing session request_anchor no_wrap
          { poll with last_assistant_uuid := Model.Relay.strip event.uuid } := { h with }
      exact observes_of_ended rfl (ended_reach hnamed)
    · exact observes_of_observing h
  · rw [hreached]
    have hstays : maybe_append_assistant_end_turn_boundary event
        (poll.reach reply (asciiText "task_complete") []) =
          poll.reach reply (asciiText "task_complete") [] := if_pos rfl
    rw [hstays]
    exact observes_of_ended rfl (ended_reach h)

theorem observes_assistant :
    Observes session request_anchor no_wrap (wording.handle_assistant_event event poll, none) := by
  unfold Wording.handle_assistant_event
  simp only
  split
  · split
    · exact observes_of_observing (observing_chunk h)
    · exact observes_of_observing h
  · split
    · exact observes_of_ended rfl (ended_append (observing_take_answer h) (Or.inr rfl))
    · exact observes_boundaries (observing_take_answer h)

theorem observes_system :
    Observes session request_anchor no_wrap (wording.handle_system_event event poll) := by
  unfold Wording.handle_system_event
  split
  · apply observes_of_ended
    · simp [stopped]
    · exact ended_append h (Or.inr rfl)
  · split
    · exact observes_of_ended rfl (ended_reach h)
    · exact observes_of_observing h

theorem observes_event :
    Observes session request_anchor no_wrap (wording.process_event event poll) := by
  unfold Wording.process_event
  cases event.role with
  | prompt_lifecycle => exact observes_of_observing (observing_prompt h)
  | user =>
    simp only
    split
    · exact observes_of_observing (observing_user h)
    · exact observes_of_observing h
  | system =>
    simp only
    split
    · exact observes_system h
    · exact observes_of_observing h
  | assistant =>
    simp only
    split
    · exact observes_assistant h
    · exact observes_of_observing h

end

theorem observing_of_observes {turn : ClaudePollState × Option CompletionDecision}
    (h : Observes session request_anchor no_wrap turn) (hgo : stopped turn = false) :
    Observing session request_anchor no_wrap turn.1 := by
  unfold Observes at h
  rw [hgo] at h
  exact h

theorem observes_events (wording : Wording) (events : List Event)
    (h : Observing session request_anchor no_wrap poll) :
    Observes session request_anchor no_wrap (wording.process_events events poll) := by
  unfold Wording.process_events
  apply foldUntil_keeps
  · unfold stopped
    rw [h.goes_on]
    rfl
  · exact observes_of_observing h
  · intro turn hgo hturn event _
    exact observes_event (observing_of_observes hturn hgo)

end ClaudeCodeBridge.Analysis.ClaudeTurn
