import ClaudeCodeBridge.Analysis.DispatcherContinuations

/-!
# Jobs that end keep to the changes

Completion, cancellation and the delivery of replies, which call one another: a look for
deliveries may complete a job, and a completion ends with a look.  The induction is on the
depth of that nesting, with `guarded_complete_job` as its step.
-/

set_option autoImplicit false

namespace ClaudeCodeBridge.Analysis

open Program Model

variable {α β : Type}

section Completing

open Callbacks Submission Completion

variable {config : DispatcherConfig} {terms : Terms} {s : DispatcherStore}
  (env : DispatcherEnvironment)

theorem KnownJob.extends {s' : DispatcherStore} {job : JobRecord} (h : KnownJob s job)
    (hext : Extends s s') : KnownJob s' job := by
  obtain ⟨x, hx, hkeys⟩ := h
  exact ⟨x, hext.jobs hx, hkeys⟩

theorem active_clear_active_for {st : DispatcherState} {slot a : AgentName} {j k : JobId}
    (h : (st.clear_active_for slot j).active_job_for a = some k) :
    st.active_job_for a = some k := by
  unfold DispatcherState.clear_active_for at h
  split at h
  · exact h
  · by_cases ha : a = slot
    · subst ha
      simp [DispatcherState.active_job_for] at h
    · rwa [DispatcherState.active_job_for, Dict.get_pop_of_ne _ ha] at h

theorem guarded_remove_queued_for (slot : AgentName) (j : JobId) :
    Guarded config terms (updateState fun s => s.remove_queued_for slot j) (fun _ _ => True) s :=
  (guarded_updateState fun _ _ h => Or.inl h).mono fun _ _ _ _ _ => trivial

theorem guarded_event {r : JobRecord} {type : JobEventType} {t : Timestamp}
    (h : requeues type = false) :
    Guarded config terms (append_event r type t) (fun _ _ => True) s :=
  (guarded_append_event h).mono fun _ _ _ _ _ => trivial

theorem guarded_schedule_automatic_retry (current terminal : JobRecord)
    (d : Model.CompletionDecision) (t : Timestamp) :
    Guarded config terms (schedule_automatic_retry config env current terminal d t)
      (fun _ _ => True) s := by
  refine guarded_then (guarded_same (touches_automatic_retry_plan env current d))
    fun auto_retry s₁ => ?_
  cases auto_retry with
  | none => exact guarded_pure trivial
  | some context =>
    refine guarded_then (guarded_handle (Q := fun _ _ => True) ?_ ?_) fun retried _ => ?_
    · exact guarded_last (guarded_retry_attempt env _)
    · exact fun _ _ _ => guarded_pure trivial
    · cases retried with
      | none => exact guarded_last (guarded_event rfl)
      | some _ => exact guarded_last (guarded_event rfl)

theorem guarded_rewritten_decision (current terminal : JobRecord) (d : Model.CompletionDecision)
    (failure : Option Model.CompletionDecision) (t : Timestamp) :
    Guarded config terms (rewritten_decision env current terminal d failure t)
      (fun _ _ => True) s :=
  guarded_free (K := Free) (touches_rewritten_decision env trivial current terminal d failure t)
    fun _ h => h

/-- The job has ended, with `r` as its last record. -/
structure EndedJob (s : DispatcherStore) (r : JobRecord) : Prop where
  known : KnownJob s r
  standing : StandingJob s r
  ended : r.status.terminal

theorem EndedJob.of_jobs {s' : DispatcherStore} {r : JobRecord} (h : EndedJob s r)
    (hjobs : s'.jobs = s.jobs) : EndedJob s' r := by
  obtain ⟨⟨x, hx, hkeys⟩, hstanding, hended⟩ := h
  refine ⟨⟨x, hjobs ▸ hx, hkeys⟩, ?_, hended⟩
  rw [StandingJob, hjobs]
  exact hstanding

theorem toJobStatus_terminal (status : CompletionStatus) : status.toJobStatus.terminal = true := by
  cases status <;> rfl

theorem guarded_persist_terminal_completion {current : JobRecord} (hcurrent : current ∈ s.jobs)
    (d : TerminalDecision) (t : Timestamp) :
    Guarded config terms (persist_terminal_completion env current d t)
      (fun r s' => EndedJob s' r.1) s := by
  refine guarded_bind (guarded_event rfl) fun _ s₁ _ hext₁ _ => ?_
  have hknown : KnownJob s₁ (terminal_record current (env.settle current d) t) :=
    ⟨current, hext₁.jobs hcurrent, rfl, rfl, rfl⟩
  refine guarded_bind (guarded_append_ended_job hknown (toJobStatus_terminal _))
    fun _ s₂ _ hext₂ h₂ => ?_
  refine guarded_bind (guarded_append_event (requeues_terminal_event _)) fun _ s₃ _ _ h₃ => ?_
  refine guarded_bind (guarded_updateState fun _ _ h => Or.inl (active_clear_active_for h))
    fun _ s₄ _ _ h₄ => guarded_pure ?_
  have hended : EndedJob s₂ (terminal_record current (env.settle current d) t) :=
    ⟨hknown.extends hext₂, h₂.2, toJobStatus_terminal _⟩
  exact hended.of_jobs (by rw [h₄, h₃])

theorem guarded_persist_reply_decision {terminal : JobRecord} (hterminal : KnownJob s terminal)
    (hended : terminal.status.terminal) (d : Model.CompletionDecision) :
    Guarded config terms (persist_reply_decision terminal d) (fun _ _ => True) s := by
  obtain ⟨x, hx, hkeys⟩ := hterminal
  have hknown : KnownJob s { terminal with terminal_decision := some d } := ⟨x, hx, hkeys⟩
  exact guarded_last (guarded_append_ended_job hknown hended)

theorem guarded_edge_for_child_message (m : MessageId) :
    Guarded config terms (CallbackEdgeStore.get_latest_for_child_message m)
      (fun found s' => s' = s ∧ ∀ edge, found = some edge → Standing s edge ∧
        edge.child_message_id = m) s := by
  refine fun hs _ => ⟨.none, hs, Extends.refl s, rfl, fun edge hfound => ⟨?_, ?_⟩⟩
  · exact standing_of_latestEdges (List.mem_of_find?_eq_some hfound)
  · simpa using List.find?_some hfound

theorem guarded_callback_child_edge (job : JobRecord) :
    Guarded config terms (callback_child_edge job)
      (fun found s' => s' = s ∧ ∀ edge, found = some edge → Standing s edge ∧
        ∃ a, HasAttempt s job.job_id edge.child_message_id a) s := by
  refine guarded_of_coherent fun hs => guarded_read_bind ?_
  cases hfind : (CallbackEdgeStore.latestEdges s.edges).find? fun r =>
      r.child_job_id = job.job_id with
  | some edge =>
    have hedge := standing_of_latestEdges (List.mem_of_find?_eq_some hfind)
    have hchild : edge.child_job_id = job.job_id := by simpa using List.find?_some hfind
    refine guarded_pure ⟨rfl, fun edge' hedge' => ?_⟩
    rw [← Option.some.inj hedge', ← hchild]
    exact ⟨hedge, edge.child_agent, hs.edge_child edge hedge.mem⟩
  | none =>
    refine guarded_bind (guarded_message_for_job job) fun message s₁ _ _ h₁ => ?_
    obtain ⟨rfl, hmessage⟩ := h₁
    cases message with
    | none => exact guarded_pure ⟨rfl, by simp⟩
    | some message =>
      obtain ⟨a, hattempt⟩ := hmessage message rfl
      refine (guarded_edge_for_child_message message.message_id).mono fun found s' _ _ h =>
        ⟨h.1, fun edge hfound => ?_⟩
      obtain ⟨hstanding, hchild⟩ := h.2 edge hfound
      exact ⟨hstanding, a, hchild ▸ hattempt⟩

/-- The reply of a job is on the message of its attempt, and, where callers are answered once,
the job's edge names no reply while it is open. -/
theorem guarded_completion_record_reply (job : JobRecord) (d : Model.CompletionDecision)
    (t : Timestamp) (deliver : Bool) :
    Guarded config terms (Completion.record_reply config env job d t deliver)
      (fun reply_id s' => (∀ m a, HasAttempt s job.job_id m a →
          ∃ i, reply_id = some i ∧ HasReply s' i m) ∧ s'.edges = s.edges ∧
        (terms.strict → ∀ e, Standing s e →
          (∃ a, HasAttempt s job.job_id e.child_message_id a) →
          e.state.terminal = false → e.child_reply_id = none)) s := by
  refine guarded_bind (guarded_write (Q := fun _ s' =>
      s' = { s with replied := s.replied ++ [job.job_id] } ∧ (terms.strict → AnswersOnce s s'))
    fun _ h => ⟨.replied _, rfl, h⟩) fun _ s₁ _ _ h₁ => ?_
  obtain ⟨rfl, honce⟩ := h₁
  refine Guarded.mono (Guarded.keeps_edges (guarded_record_reply env.service _ job d t deliver) ?_)
    fun reply_id s' _ _ h => ⟨h.1, h.2, fun hstrict e he hattempt hopen => ?_⟩
  · exact touches_onBureau (touches_record_reply env.service (by simp) (by simp) (by simp)
      (by simp) _ _ _ _ _)
  · exact honce hstrict job.job_id rfl e ((latest?_eq_some_iff _).mp he).1 hattempt hopen

theorem guarded_record_terminal_result (terminal : JobRecord) (d : Model.CompletionDecision)
    (t : Timestamp) (deliver : Bool) :
    Guarded config terms (record_terminal_result config env terminal d t deliver)
      (fun _ _ => True) s := by
  refine guarded_bind (guarded_callback_child_edge terminal) fun child_edge s₁ _ _ h₁ => ?_
  obtain ⟨rfl, hedge⟩ := h₁
  cases child_edge with
  | none =>
    refine guarded_then (guarded_completion_record_reply env _ _ _ _) fun _ _ => ?_
    exact guarded_mark_callback_done _ _
  | some child_edge =>
    obtain ⟨hstanding, a, hattempt⟩ := hedge child_edge rfl
    refine guarded_bind (guarded_completion_record_reply env _ _ _ _) fun reply_id s₂ _ hext₂ h₂ => ?_
    obtain ⟨hreply, hedges, honce⟩ := h₂
    have hanswers : Answers terms s₂ child_edge reply_id := by
      constructor
      · intro r hr
        obtain ⟨i, hi, hrecorded⟩ := hreply child_edge.child_message_id a hattempt
        rw [← Option.some.inj (hi.symm.trans hr)]
        exact hrecorded
      · intro hstrict hopen hsome
        rw [honce hstrict child_edge hstanding ⟨a, hattempt⟩ hopen] at hsome
        exact absurd hsome (by simp)
    refine guarded_then (guarded_submit_callback_continuation env (hstanding.of_edges hedges)
      ⟨a, hattempt.extends hext₂⟩ hanswers d t) fun _ _ => ?_
    exact guarded_mark_callback_done _ _

theorem guarded_empty_result_notice_decision (terminal : JobRecord)
    (d : Model.CompletionDecision) (deliver : Bool) :
    Guarded config terms (empty_result_notice_decision env terminal d deliver)
      (fun _ s' => s' = s) s :=
  guarded_same (touches_empty_result_notice_decision env terminal d deliver)

theorem guarded_record_final_result (current : JobRecord) {terminal : JobRecord}
    (hterminal : KnownJob s terminal) (hended : terminal.status.terminal)
    (d : Model.CompletionDecision) (failure : Option Model.CompletionDecision) (t : Timestamp) :
    Guarded config terms (record_final_result config env current terminal d failure t)
      (fun _ _ => True) s := by
  refine guarded_bind (guarded_rewritten_decision env _ _ _ _ _) fun rewritten s₁ _ hext₁ _ => ?_
  refine guarded_bind (guarded_empty_result_notice_decision env _ _ _) fun notice s₂ _ _ h₂ => ?_
  subst h₂
  split
  · exact guarded_last (guarded_record_terminal_result env _ _ _ _)
  · refine guarded_then (guarded_persist_reply_decision (hterminal.extends hext₁) hended _)
      fun _ _ => ?_
    exact guarded_last (guarded_record_terminal_result env _ _ _ _)

theorem guarded_record_message_bureau_completion (current : JobRecord) {terminal : JobRecord}
    (hterminal : EndedJob s terminal) (d : Model.CompletionDecision) (t : Timestamp) :
    Guarded config terms (record_message_bureau_completion config env current terminal d t)
      (fun _ _ => True) s := by
  refine guarded_bind (guarded_record_attempt_terminal env.service _ hterminal.standing
    hterminal.ended) fun _ s₁ _ hext₁ _ => ?_
  have hknown := hterminal.known
  split
  · exact guarded_pure trivial
  · refine guarded_bind (guarded_same (touches_delegated_parent_edge terminal))
      fun parent_edge s₂ _ _ h₂ => ?_
    subst h₂
    split
    · refine guarded_then (guarded_persist_delegated_terminal_job (hknown.extends hext₁)
        hterminal.ended _) fun _ _ => ?_
      exact guarded_last (guarded_mark_parent_message_waiting _ _)
    · refine guarded_bind (guarded_schedule_automatic_retry env _ _ _ _)
        fun scheduled _ _ hext₃ _ => ?_
      split
      · exact guarded_pure trivial
      · exact guarded_last (guarded_record_final_result env current
          (hknown.extends (hext₁.trans hext₃)) hterminal.ended _ _ _)

theorem guarded_record_message_bureau_cancellation {terminal : JobRecord}
    (hterminal : EndedJob s terminal) (d : Model.CompletionDecision) (t : Timestamp)
    (record : Bool) :
    Guarded config terms (record_message_bureau_cancellation config env terminal d t record)
      (fun _ _ => True) s := by
  refine guarded_then (guarded_record_attempt_terminal env.service _ hterminal.standing
    hterminal.ended) fun _ s₁ => ?_
  split
  · exact guarded_pure trivial
  · refine guarded_read_bind (f := fun parent_edge => do
      terminalize_parent_edge parent_edge t
      record_terminal_result config env terminal d t true) ?_
    refine guarded_bind (R := fun _ _ => True) ?_ fun _ _ _ _ _ =>
      guarded_record_terminal_result env _ _ _ _
    cases hfind : (CallbackEdgeStore.latestEdges s₁.edges).find? fun r =>
        r.parent_job_id = terminal.job_id with
    | none => exact guarded_pure trivial
    | some parent_edge =>
      have hedge := standing_of_latestEdges (List.mem_of_find?_eq_some hfind)
      exact guarded_terminalize_cancelled_parent_edge hedge.mem t

theorem guarded_rewrite_reply_head (agent_name : AgentName) (e : EventId) (r : ReplyId)
    (j : Option JobId) (t : Timestamp) :
    Guarded config terms (rewrite_reply_head env agent_name e r j t)
      (fun _ s' => s'.events = s.events) s := by
  refine guarded_bind (guarded_recalling (recalling_rewrite_head env.service agent_name e _ _ _ _))
    fun _ s' _ _ h => guarded_pure ?_
  obtain ⟨m, rfl⟩ := h
  rfl

theorem guarded_append_requeue {job : JobRecord} {e : EventId} {t : Timestamp}
    (hcount : (s.events.filter fun x => x.agent_name = job.agent_name).countP (isRequeue e) <
      max_pre_delivery_transport_requeues) (hevent : HasEvent s job.agent_name e) :
    Guarded config terms (append_event job (.reply_delivery_requeued e) t) (fun _ _ => True) s :=
  guarded_write fun _ _ => ⟨.requeue _ e rfl hcount hevent, trivial⟩

theorem guarded_terminal_disposition (job : JobRecord) (e : EventId) :
    Guarded config terms (terminal_disposition job e)
      (fun disposition s' => (disposition = .requeued →
        (s.events.filter fun x => x.agent_name = job.agent_name).countP (isRequeue e) <
          max_pre_delivery_transport_requeues) ∧ s' = s) s := by
  unfold terminal_disposition
  split
  · exact guarded_pure ⟨by simp, rfl⟩
  · split
    · exact guarded_pure ⟨by simp, rfl⟩
    · refine guarded_read_bind (guarded_pure ⟨fun h => ?_, rfl⟩)
      by_contra hcount
      rw [if_pos (Nat.le_of_not_lt hcount)] at h
      simp at h

theorem guarded_consume_delivery (job : JobRecord) (e : EventId) {type : JobEventType}
    (t : Timestamp) (htype : requeues type = false) :
    Guarded config terms (consume_delivery env job e type t) (fun _ _ => True) s := by
  refine guarded_then (guarded_recalling (recalling_mark_terminal env.service _ e _ _))
    fun _ _ => guarded_event htype

theorem guarded_settle_delivery {job : JobRecord} {e : EventId} (r : ReplyId) (t : Timestamp)
    (hevent : HasEvent s job.agent_name e) :
    Guarded config terms (settle_delivery env job e r t) (fun _ _ => True) s := by
  unfold settle_delivery
  split
  · exact guarded_consume_delivery env _ _ _ rfl
  · refine guarded_bind (guarded_terminal_disposition job e) fun disposition s₁ _ _ h₁ => ?_
    obtain ⟨hcount, rfl⟩ := h₁
    cases disposition with
    | consumed | abandoned => exact guarded_consume_delivery env _ _ _ rfl
    | requeued =>
      refine guarded_bind (guarded_rewrite_reply_head env _ _ _ _ _) fun _ s₂ _ hext h₂ => ?_
      refine guarded_append_requeue ?_ (hevent.extends hext)
      rw [h₂]
      exact hcount rfl

theorem guarded_resolve_reply_delivery_terminal (job : JobRecord) (t : Timestamp) :
    Guarded config terms (resolve_reply_delivery_terminal env job t) (fun _ _ => True) s := by
  unfold resolve_reply_delivery_terminal
  split
  · exact guarded_pure trivial
  · split
    · rename_i e r _ _
      refine guarded_onMailbox_read_bind ?_
      cases hlatest : latest? (fun r : InboundEventRecord => r.inbound_event_id) e
          (s.bureau.mailboxes job.agent_name).inbox with
      | none => exact guarded_pure trivial
      | some current =>
        obtain ⟨hmem, hid⟩ := mem_of_latest? hlatest
        exact guarded_settle_delivery env r t ⟨current, hmem, hid⟩
    · exact guarded_pure trivial

theorem guarded_maybe_notify_sender (job : JobRecord) :
    Guarded config terms (maybe_notify_sender config env job) (fun _ _ => True) s := by
  unfold maybe_notify_sender
  split
  · exact guarded_pure trivial
  · exact guarded_last (guarded_record_notice env.service _ _ _ _ _ _)

theorem guarded_complete_locked (j : JobId) (d : TerminalDecision) :
    Guarded config terms (complete_locked config env j d) (fun _ _ => True) s := by
  refine guarded_bind (guarded_get_job j) fun current s₁ _ _ h₁ => ?_
  cases current with
  | none => exact guarded_raise
  | some current =>
    have hcurrent := (h₁.1 current rfl).1
    dsimp only
    split
    · exact guarded_pure trivial
    · refine guarded_bind (guarded_persist_terminal_completion env hcurrent d _)
        fun r _ _ _ hterminal => ?_
      exact guarded_last (guarded_record_message_bureau_completion env current hterminal _ _)

theorem guarded_complete_job {prepare : DispatcherM Unit}
    (hprepare : ∀ s, Guarded config terms prepare (fun _ _ => True) s) (j : JobId)
    (d : TerminalDecision) :
    Guarded config terms (complete_job config env prepare j d) (fun _ _ => True) s := by
  refine guarded_then (guarded_withLock (guarded_complete_locked env j d)) fun r s₁ => ?_
  obtain ⟨terminal, outcome⟩ := r
  cases outcome with
  | none => exact guarded_pure trivial
  | some outcome =>
    refine guarded_then (guarded_resolve_reply_delivery_terminal env _ _) fun _ _ => ?_
    split
    · exact guarded_pure trivial
    · refine guarded_then (guarded_maybe_notify_sender env _) fun _ s₂ => ?_
      exact guarded_last (hprepare s₂)

theorem guarded_cancel_locked (current : JobRecord) (t : Timestamp) (reply : String)
    (record : Bool) :
    Guarded config terms (cancel_locked config env current t reply record) (fun _ _ => True) s := by
  refine guarded_bind (guarded_get_job current.job_id) fun latest s₁ _ _ h₁ => ?_
  cases latest with
  | none => exact guarded_raise
  | some latest =>
    have hlatest := (h₁.1 latest rfl).1
    dsimp only
    split
    · exact guarded_pure trivial
    · split
      · exact guarded_raise
      · refine guarded_bind (guarded_event rfl) fun _ _ _ hext₂ _ => ?_
        refine guarded_bind (guarded_append_ended_job
          ⟨latest, hext₂.jobs hlatest, rfl, rfl, rfl⟩ rfl) fun _ s₃ _ hext₃ h₃ => ?_
        refine guarded_bind (guarded_append_event rfl) fun _ _ _ _ h₄ => ?_
        refine guarded_bind (guarded_updateState fun _ _ h => Or.inl h) fun _ _ _ _ h₅ => ?_
        refine guarded_bind (guarded_updateState fun _ _ h =>
          Or.inl (active_clear_active_for h)) fun _ _ _ _ h₆ => ?_
        have hended : EndedJob s₃ { terminal_record latest (cancel_decision reply
            (env.cancel_anchor_seen latest.job_id) t) t with cancel_requested_at := some t } :=
          ⟨⟨latest, hext₃.jobs (hext₂.jobs hlatest), rfl, rfl, rfl⟩, h₃.2, rfl⟩
        exact guarded_last (guarded_record_message_bureau_cancellation env
          (hended.of_jobs (by rw [h₆, h₅, h₄])) _ _ _)

theorem guarded_cancel_job (j : JobId) (record : Bool) :
    Guarded config terms (cancel_job config env j record) (fun _ _ => True) s := by
  refine guarded_bind (guarded_get_latest_job j) fun current s₁ hs₁ _ h₁ => ?_
  cases current with
  | none => exact guarded_raise
  | some current =>
    have hlatest := h₁.1 current rfl
    obtain ⟨hcurrent, hid⟩ := mem_of_latest? hlatest
    have hstanding : StandingJob s₁ current := by
      rw [StandingJob, hid]
      exact hlatest
    dsimp only
    split
    · exact guarded_pure trivial
    · split
      · exact guarded_raise
      · refine guarded_then (guarded_append_known_job ⟨current, hcurrent, rfl, rfl, rfl⟩
          fun a ha hjob => hs₁.attempt_open current a hstanding ha hjob) fun _ _ => ?_
        refine guarded_then (guarded_event rfl) fun _ _ => ?_
        refine guarded_then (guarded_withLock (guarded_cancel_locked env _ _ _ _))
          fun terminal _ => ?_
        cases terminal with
        | none => exact guarded_pure trivial
        | some terminal => exact guarded_resolve_reply_delivery_terminal env _ _

end Completing

section Delivering

open Callbacks Completion ReplyDelivery

variable {config : DispatcherConfig} {terms : Terms} {s : DispatcherStore}
  (env : DispatcherEnvironment)

theorem guarded_silent {agent_name : AgentName} {p : MailboxM α} (hp : Silent p) :
    Guarded config terms (onBureau (onMailbox agent_name p)) (fun _ _ => True) s :=
  (guarded_recalling (recalling_silent hp)).mono fun _ _ _ _ _ => trivial

theorem guarded_head_reply_event (agent_name : AgentName) :
    Guarded config terms (head_reply_event agent_name) (fun _ _ => True) s :=
  guarded_last (guarded_silent silent_head_pending_event)

theorem guarded_reset_stale_reply_head (agent_name : AgentName) (head : ReplyHead) :
    Guarded config terms (reset_stale_reply_head env agent_name head) (fun _ _ => True) s :=
  guarded_then (guarded_rewrite_reply_head env _ _ _ _ _) fun _ _ =>
    guarded_head_reply_event agent_name

theorem guarded_resolve_existing_delivery_job (agent_name : AgentName) (head : ReplyHead) :
    Guarded config terms (resolve_existing_delivery_job config env agent_name head)
      (fun _ _ => True) s := by
  unfold resolve_existing_delivery_job
  split
  · exact guarded_pure trivial
  · refine guarded_then (guarded_get_job _) fun current _ => ?_
    cases current with
    | none => exact guarded_reset_stale_reply_head env _ _
    | some current =>
      dsimp only
      split
      · exact guarded_pure trivial
      · split
        · exact guarded_last (guarded_resolve_reply_delivery_terminal env _ _)
        · exact guarded_reset_stale_reply_head env _ _

theorem guarded_build_reply_delivery_job (agent_name : AgentName) (head : ReplyHead)
    (reply : ReplyRecord) (t : Timestamp) :
    Guarded config terms (build_reply_delivery_job config env agent_name head reply t)
      (fun _ _ => True) s := by
  refine guarded_bind (guarded_same (touches_spec_for config _)) fun spec s₁ hs₁ _ h₁ => ?_
  subst h₁
  have hunlinked : Unlinked terms s₁
      (delivery_draft env agent_name spec reply head.event.inbound_event_id).request :=
    unlinked_of_none rfl
  refine guarded_bind (guarded_submit_draft none t hunlinked) fun job s₂ _ _ h₂ => ?_
  obtain ⟨hdrafted, hagent⟩ := h₂
  have hmem : job ∈ s₂.jobs := hdrafted.records ▸ List.mem_append_right _ List.mem_cons_self
  refine guarded_then (guarded_append_reply_delivery_message reply t spec.provider
    ⟨job, hmem, rfl, hagent⟩ ?_) fun _ _ => ?_
  · intro b hb
    rw [hdrafted.attempts] at hb
    obtain ⟨r, hr, hrj, _⟩ := hs₁.attempt_job b hb
    have hbelow := hs₁.job_below r hr
    rw [hrj] at hbelow
    exact (Nat.lt_of_lt_of_le hbelow (hdrafted.above job List.mem_cons_self)).ne
  · refine guarded_then (guarded_rewrite_reply_head env _ _ _ _ _) fun _ _ => ?_
    exact guarded_last (guarded_event rfl)

theorem guarded_prepare_agent_reply_delivery (agent_name : AgentName) :
    Guarded config terms (prepare_agent_reply_delivery config env agent_name)
      (fun _ _ => True) s := by
  refine guarded_then (guarded_head_reply_event agent_name) fun head _ => ?_
  cases head with
  | none => exact guarded_pure trivial
  | some head =>
    refine guarded_then (guarded_resolve_existing_delivery_job env agent_name head) fun head _ => ?_
    cases head with
    | none => exact guarded_pure trivial
    | some head =>
      refine guarded_onBureau_read_bind ?_
      split
      · exact guarded_pure trivial
      · exact guarded_last (guarded_build_reply_delivery_job env _ _ _ _)

theorem guarded_prepare_agents (agent_names : List AgentName) :
    Guarded config terms (prepare_agents config env agent_names) (fun _ _ => True) s := by
  induction agent_names generalizing s with
  | nil => exact guarded_pure trivial
  | cons agent_name agent_names ih =>
    refine guarded_then (guarded_prepare_agent_reply_delivery env agent_name) fun job _ => ?_
    refine guarded_then ih fun rest _ => ?_
    cases job with
    | none | some job => exact guarded_pure trivial

theorem guarded_repair_orphaned_lease (agent_name : AgentName) (head : ReplyHead) :
    Guarded config terms (repair_orphaned_lease env agent_name head) (fun _ _ => True) s := by
  refine guarded_then (guarded_silent silent_load_lease) fun lease _ => ?_
  split
  · exact guarded_last (guarded_reset_stale_reply_head env _ _)
  · exact guarded_pure trivial

theorem guarded_releasable_lease (agent_name : AgentName) (head : ReplyHead)
    (lease : DeliveryLease) :
    Guarded config terms (releasable_lease env agent_name head lease) (fun _ _ => True) s := by
  unfold releasable_lease
  split
  · exact guarded_pure trivial
  · refine guarded_then (guarded_silent (silent_get_latest _)) fun leased_event _ => ?_
    split
    · exact guarded_pure trivial
    · exact guarded_last (guarded_recalling (recalling_expire_lease env.service _ _))

theorem guarded_release_stalled_head (agent_name : AgentName) (head : ReplyHead)
    (current : JobRecord) (lease : DeliveryLease) :
    Guarded config terms (release_stalled_head env agent_name head current lease)
      (fun _ _ => True) s := by
  refine guarded_then (guarded_same (touches_delivery_never_reached_provider env current))
    fun never_reached _ => ?_
  split
  · exact guarded_pure trivial
  · refine guarded_then (guarded_releasable_lease env _ _ _) fun releasable _ => ?_
    split
    · exact guarded_pure trivial
    · exact guarded_then (guarded_rewrite_reply_head env _ _ _ _ _) fun _ _ => guarded_event rfl

theorem guarded_repair_pending_stall (agent_name : AgentName) (head : ReplyHead)
    (current : JobRecord) :
    Guarded config terms (repair_pending_stall env agent_name head current)
      (fun _ _ => True) s := by
  unfold repair_pending_stall
  split
  · exact guarded_pure trivial
  · refine guarded_read_bind ?_
    split
    · exact guarded_pure trivial
    · refine guarded_then (guarded_silent silent_load_lease) fun lease _ => ?_
      split
      · exact guarded_pure trivial
      · exact guarded_release_stalled_head env _ _ _ _

/-- What is asked of a completion that is used as a step of another function. -/
def Completes (config : DispatcherConfig) (terms : Terms)
    (complete : JobId → TerminalDecision → DispatcherM JobRecord) : Prop :=
  ∀ j d s, Guarded config terms (complete j d) (fun _ _ => True) s

theorem Completes.ignored {complete : JobId → TerminalDecision → DispatcherM JobRecord}
    (h : Completes config terms complete) (j : JobId) (d : TerminalDecision) :
    Guarded config terms (do let _ ← complete j d) (fun _ _ => True) s :=
  guarded_last (h j d s)

theorem guarded_repair_head {complete : JobId → TerminalDecision → DispatcherM JobRecord}
    (hcomplete : Completes config terms complete) (agent_name : AgentName) :
    Guarded config terms (repair_agent_reply_delivery_head config env complete agent_name)
      (fun _ _ => True) s := by
  refine guarded_then (guarded_head_reply_event agent_name) fun head _ => ?_
  cases head with
  | none => exact guarded_pure trivial
  | some head =>
    dsimp only
    split
    · exact guarded_repair_orphaned_lease env _ _
    · refine guarded_then (guarded_get_job _) fun current _ => ?_
      cases current with
      | none =>
        exact guarded_last (guarded_reset_stale_reply_head env _ _)
      | some current =>
        dsimp only
        split
        · exact guarded_repair_pending_stall env _ _ _
        · split
          · exact guarded_pure trivial
          · split
            · exact hcomplete.ignored _ _
            · split
              · exact guarded_pure trivial
              · exact hcomplete.ignored _ _

theorem guarded_prepare_with {complete : JobId → TerminalDecision → DispatcherM JobRecord}
    (hcomplete : Completes config terms complete) :
    Guarded config terms (prepare_with config env complete) (fun _ _ => True) s := by
  refine guarded_then (guarded_forEach (J := fun _ => True) trivial fun agent_name _ s' _ => ?_)
    fun _ _ => guarded_prepare_agents env _
  exact guarded_repair_head env hcomplete agent_name

theorem completes_complete (depth : ℕ) :
    Completes config terms (ReplyDelivery.complete config env depth) := by
  induction depth with
  | zero => exact fun j d s => guarded_complete_job env (fun _ => guarded_pure trivial) j d
  | succ depth ih =>
    refine fun j d s => guarded_complete_job env (fun s' => ?_) j d
    exact guarded_last (guarded_prepare_with env ih)

theorem guarded_prepare_reply_deliveries (depth : ℕ) :
    Guarded config terms (prepare_reply_deliveries config env depth) (fun _ _ => True) s :=
  guarded_prepare_with env (completes_complete env depth)

theorem guarded_claimable_reply_delivery_job_ids (agent_name : AgentName) :
    Guarded config terms (claimable_reply_delivery_job_ids config agent_name)
      (fun _ _ => True) s := by
  refine guarded_then (guarded_head_reply_event agent_name) fun head _ => ?_
  split
  · exact guarded_pure trivial
  · exact guarded_last (guarded_get_job _)

theorem guarded_claim_reply_delivery_start (job : JobRecord) (t : Timestamp) :
    Guarded config terms (claim_reply_delivery_start env job t) (fun _ _ => True) s := by
  unfold claim_reply_delivery_start
  split
  · exact guarded_pure trivial
  · split
    · exact guarded_pure trivial
    · refine guarded_then (guarded_head_reply_event _) fun head _ => ?_
      split
      · exact guarded_pure trivial
      · exact guarded_last (guarded_recalling (recalling_claim env.service _ _ _))

end Delivering

end ClaudeCodeBridge.Analysis
