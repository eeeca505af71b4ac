import ClaudeCodeBridge.Analysis.DispatcherEndings

/-!
# Runs of the dispatcher

Starts, recovery and the start and end of the daemon, and with them the ladder's top: every
access of every operation is a change (`guarded_exec`).  A history of the dispatcher is a
sequence of operations, each stopped anywhere, and of restarts; what changes keep holds in
every store of it (`Reached.invariant`).
-/

set_option autoImplicit false

namespace ClaudeCodeBridge.Analysis

open Program Model

variable {α β : Type}

section Starting

open Callbacks Completion ReplyDelivery JobStart

variable {config : DispatcherConfig} {terms : Terms} {s : DispatcherStore}
  (env : DispatcherEnvironment) (depth : ℕ)

theorem active_mark_active_for {st : DispatcherState} {slot a : AgentName} {j k : JobId}
    (h : (st.mark_active_for slot j).active_job_for a = some k) :
    st.active_job_for a = some k ∨ a = slot ∧ k = j := by
  by_cases ha : a = slot
  · subst ha
    simp only [DispatcherState.mark_active_for, DispatcherState.active_job_for,
      Dict.get_set_self, Option.some.injEq] at h
    exact Or.inr ⟨rfl, h.symm⟩
  · simp only [DispatcherState.mark_active_for, DispatcherState.active_job_for,
      Dict.get_set_of_ne _ ha] at h
    exact Or.inl h

theorem guarded_complete (j : JobId) (d : TerminalDecision) :
    Guarded config terms (do let _ ← ReplyDelivery.complete config env depth j d)
      (fun _ _ => True) s := (completes_complete env depth).ignored j d

theorem guarded_fail_provider_start (running : JobRecord) :
    Guarded config terms (fail_provider_start config env depth running) (fun _ _ => True) s :=
  guarded_then (guarded_event rfl) fun _ _ => guarded_complete env depth _ _

theorem guarded_complete_reply_delivery_after_start (running : JobRecord) (t : Timestamp)
    (active : Bool) :
    Guarded config terms (complete_reply_delivery_after_start config env depth running t active)
      (fun _ _ => True) s := by
  unfold complete_reply_delivery_after_start
  split
  · exact guarded_pure trivial
  · exact guarded_complete env depth _ _

theorem guarded_start_provider (running : JobRecord) (t : Timestamp) :
    Guarded config terms (start_provider config env depth running t) (fun _ _ => True) s := by
  unfold start_provider
  split
  · exact guarded_then (guarded_event rfl) fun _ _ =>
      guarded_complete_reply_delivery_after_start env depth _ _ _
  · refine guarded_then (guarded_event rfl) fun _ _ => ?_
    refine guarded_then (guarded_free (K := Free) (touches_execution_start env trivial running)
      fun _ h => h) fun outcome _ => ?_
    cases outcome with
    | raised => exact guarded_fail_provider_start env depth _
    | missing | submitted passive =>
      exact guarded_then (guarded_event rfl) fun _ _ =>
        guarded_complete_reply_delivery_after_start env depth _ _ _

theorem guarded_start_running_job {current : JobRecord} (hcurrent : current ∈ s.jobs)
    (t : Timestamp) :
    Guarded config terms (start_running_job config env depth current t) (fun _ _ => True) s := by
  refine guarded_bind (guarded_mark_attempt_started env.service _ _) fun _ _ _ hext₁ hstarted => ?_
  have hknown := hext₁.jobs hcurrent
  refine guarded_bind (guarded_append_known_job ⟨current, hknown, rfl, rfl, rfl⟩
    fun a ha hjob hterminal => ?_) fun _ s₂ _ _ h₂ => ?_
  · rw [hstarted a ha hjob] at hterminal
    simp at hterminal
  refine guarded_bind (guarded_event rfl) fun _ s₃ _ hext₃ _ => ?_
  have hjob : HasJob s₃ current.job_id current.agent_name :=
    ⟨running_record current t, hext₃.jobs (h₂.jobs ▸ List.mem_append_right _ List.mem_cons_self),
      rfl, rfl⟩
  refine guarded_then (guarded_updateState fun a j hactive => ?_) fun _ _ =>
    guarded_start_provider env depth _ _
  rcases active_mark_active_for hactive with hbefore | ⟨rfl, rfl⟩
  · exact Or.inl hbefore
  · exact Or.inr hjob

theorem guarded_still_claimable (job : JobRecord) (agent_name : AgentName) :
    Guarded config terms (still_claimable config job agent_name) (fun _ _ => True) s :=
  (guarded_look (touches_still_claimable (K := fun kind => kind = .remember) config rfl job
    agent_name)).mono
    fun _ _ _ _ _ => trivial

theorem guarded_claimable_request_job_ids (agent_name : AgentName) :
    Guarded config terms (onBureau (MessageBureau.claimable_request_job_ids agent_name))
      (fun _ _ => True) s := by
  refine guarded_bureau_bind (guarded_silent ?_) fun event _ _ _ _ => ?_
  · unfold MailboxKernel.peek_next
    refine silent_bind silent_pending_events fun _ => ?_
    grind
  · split
    · exact guarded_bureau_pure trivial
    · exact guarded_bureau_pure trivial

theorem guarded_terminalize_unstartable (current : JobRecord) (agent_name : AgentName)
    (reason : String) :
    Guarded config terms (terminalize_unstartable config env depth current agent_name reason)
      (fun _ _ => True) s := by
  refine guarded_then (guarded_handle (Q := fun _ _ => True) ?_ fun _ _ _ => guarded_event rfl)
    fun _ _ => ?_
  · exact guarded_last (completes_complete env depth _ _ _)
  · refine guarded_then (guarded_get_job _) fun terminal _ => ?_
    split
    · exact guarded_remove_queued_for _ _
    · exact guarded_pure trivial

theorem guarded_fail_unstartable_job (job : JobRecord) (agent_name : AgentName) (reason : String) :
    Guarded config terms (fail_unstartable_job config env depth job agent_name reason)
      (fun _ _ => True) s := by
  refine guarded_withLock (guarded_then (guarded_get_job _) fun current _ => ?_)
  cases current with
  | none => exact guarded_pure trivial
  | some current =>
    dsimp only
    split
    · exact guarded_pure trivial
    · refine guarded_read_bind (guarded_read_bind ?_)
      split
      · exact guarded_pure trivial
      · refine guarded_then (guarded_claimable_request_job_ids agent_name) fun _ _ => ?_
        split
        · exact guarded_pure trivial
        · exact guarded_terminalize_unstartable env depth _ _ _

theorem guarded_preclaim_gate (job : JobRecord) (agent_name : AgentName) (terminalizable : Bool) :
    Guarded config terms (preclaim_gate config env depth job agent_name terminalizable)
      (fun _ _ => True) s := by
  unfold preclaim_gate
  split
  · exact guarded_still_claimable _ _
  · exact guarded_pure trivial
  · split
    · exact guarded_last (guarded_fail_unstartable_job env depth _ _ _)
    · exact guarded_pure trivial

theorem guarded_claim_request_job (agent_name : AgentName) (queued_ids candidates : List JobId) :
    Guarded config terms (claim_request_job config env depth agent_name queued_ids candidates)
      (fun _ _ => True) s := by
  induction candidates generalizing s with
  | nil => exact guarded_pure trivial
  | cons candidate candidates ih =>
    unfold claim_request_job
    split
    · exact ih
    · refine guarded_bind (guarded_get_job candidate) fun current _ _ _ h => ?_
      cases current with
      | none => exact guarded_then (guarded_remove_queued_for _ _) fun _ _ => ih
      | some current =>
        have hcurrent := (h.1 current rfl).1
        refine guarded_bind (guarded_preclaim_gate env depth _ _ _) fun allowed _ _ hext _ => ?_
        split
        · exact guarded_pure trivial
        · refine guarded_bind (guarded_remove_queued_for _ _) fun _ _ _ hext' _ => ?_
          exact guarded_start_running_job env depth (hext'.jobs (hext.jobs hcurrent)) _

theorem guarded_claim_reply_delivery (agent_name : AgentName) (queued_ids candidates : List JobId) :
    Guarded config terms (claim_reply_delivery config env depth agent_name queued_ids candidates)
      (fun _ _ => True) s := by
  induction candidates generalizing s with
  | nil => exact guarded_pure trivial
  | cons candidate candidates ih =>
    unfold claim_reply_delivery
    split
    · exact ih
    · refine guarded_bind (guarded_get_job candidate) fun current _ _ _ h => ?_
      cases current with
      | none => exact guarded_then (guarded_remove_queued_for _ _) fun _ _ => ih
      | some current =>
        have hcurrent := (h.1 current rfl).1
        refine guarded_bind (guarded_preclaim_gate env depth _ _ _) fun allowed _ _ hext _ => ?_
        split
        · exact guarded_pure trivial
        · refine guarded_bind (guarded_claim_reply_delivery_start env _ _)
            fun claimed _ _ hext' _ => ?_
          split
          · exact ih
          · refine guarded_bind (guarded_remove_queued_for _ _) fun _ _ _ hext'' _ => ?_
            exact guarded_start_running_job env depth
              (hext''.jobs (hext'.jobs (hext.jobs hcurrent))) _

theorem guarded_start_agent_mailbox_job (agent_name : AgentName) :
    Guarded config terms (start_agent_mailbox_job config env depth agent_name)
      (fun _ _ => True) s := by
  refine guarded_read_bind ?_
  refine guarded_then (guarded_silent silent_head_pending_event) fun head _ => ?_
  split
  · exact guarded_then (guarded_claimable_reply_delivery_job_ids _) fun _ _ =>
      guarded_claim_reply_delivery env depth _ _ _
  · exact guarded_then (guarded_claimable_request_job_ids _) fun _ _ =>
      guarded_claim_request_job env depth _ _ _
  · exact guarded_pure trivial

theorem guarded_tick_jobs :
    Guarded config terms (tick_jobs config env depth) (fun _ _ => True) s := by
  refine guarded_forEach (J := fun _ => True) trivial fun agent_name _ s' _ => ?_
  refine guarded_read_bind ?_
  split
  · exact guarded_start_agent_mailbox_job env depth _
  · exact guarded_pure trivial

theorem guarded_tick : Guarded config terms (tick config env depth) (fun _ _ => True) s := by
  refine guarded_then (guarded_repair_callback_edges env) fun _ _ => ?_
  exact guarded_then (guarded_prepare_reply_deliveries env depth) fun _ _ =>
    guarded_tick_jobs env depth

end Starting

section Operations

open Callbacks Completion ReplyDelivery JobStart DispatcherOperations

variable {config : DispatcherConfig} {terms : Terms} {s : DispatcherStore}
  (env : DispatcherEnvironment) (depth : ℕ)

theorem guarded_lineage_for_job (job : JobRecord) :
    Guarded config terms (lineage_for_job job) (fun _ _ => True) s := by
  refine guarded_onBureau_read_bind ?_
  split
  · exact guarded_pure trivial
  · refine guarded_onBureau_read_bind ?_
    exact guarded_last (guarded_silent (silent_get_latest_for_attempt _))

theorem guarded_can_retry_job (job : JobRecord) :
    Guarded config terms (can_retry_job job) (fun _ _ => True) s :=
  guarded_last (guarded_lineage_for_job job)

theorem guarded_comms_recoverability (job : JobRecord) (reply_delivery : Option JobRecord)
    (hint : Option String) :
    Guarded config terms (comms_recoverability_for_job env job reply_delivery hint)
      (fun _ _ => True) s := by
  have hdelivery : ∀ s : DispatcherStore, Guarded config terms
      (retryable_delivery reply_delivery) (fun _ _ => True) s := by
    intro s
    unfold retryable_delivery
    split
    · exact guarded_pure trivial
    · exact guarded_last (guarded_can_retry_job _)
  refine guarded_then (hdelivery s) fun found _ => ?_
  cases found with
  | some delivery => exact guarded_pure trivial
  | none =>
    dsimp only
    split
    · exact guarded_last (guarded_can_retry_job _)
    · split
      · exact guarded_pure trivial
      · exact guarded_pure trivial

theorem guarded_release_lineage_head (job : JobRecord) :
    Guarded config terms (release_lineage_head_if_blocking env job) (fun _ _ => True) s := by
  refine guarded_then (guarded_lineage_for_job job) fun lineage _ => ?_
  split
  · exact guarded_pure trivial
  · split
    · exact guarded_pure trivial
    · refine guarded_then (guarded_silent silent_head_pending_event) fun head _ => ?_
      split
      · exact guarded_pure trivial
      · exact guarded_last (guarded_recalling (recalling_mark_terminal env.service _ _ _ _))

theorem guarded_try_retry (j : JobId) :
    Guarded config terms (try_retry config env j) (fun _ _ => True) s := by
  refine guarded_handle ?_ fun _ _ _ => guarded_pure trivial
  exact guarded_last (guarded_retry_attempt env _)

theorem guarded_recover_terminal_retry (job : JobRecord) :
    Guarded config terms (recover_terminal_retry config env job) (fun _ _ => True) s := by
  refine guarded_then (guarded_lineage_for_job job) fun lineage _ => ?_
  split
  · exact guarded_pure trivial
  · refine guarded_then (guarded_release_lineage_head env job) fun _ _ => ?_
    exact guarded_last (guarded_try_retry env _)

theorem guarded_recover_stale_running (job : JobRecord) :
    Guarded config terms (recover_stale_running config env job) (fun _ _ => True) s := by
  refine guarded_then (guarded_lineage_for_job job) fun lineage _ => ?_
  split
  · exact guarded_pure trivial
  · refine guarded_then (guarded_handle (Q := fun _ _ => True) ?_ fun _ _ _ => guarded_pure trivial)
      fun cancelled _ => ?_
    · exact guarded_last (guarded_cancel_job env _ _)
    · split
      · exact guarded_pure trivial
      · exact guarded_last (guarded_try_retry env _)

theorem guarded_recover_reply_delivery (job : JobRecord) :
    Guarded config terms (recover_reply_delivery config env depth job) (fun _ _ => True) s := by
  unfold recover_reply_delivery
  split
  · refine guarded_then (guarded_silent (silent_get_latest _)) fun current _ => ?_
    split
    · exact guarded_pure trivial
    · refine guarded_then (guarded_look (touches_already_retried
      (K := fun kind => kind = .remember) config rfl job _)) fun retried _ => ?_
      split
      · exact guarded_pure trivial
      · refine guarded_then (guarded_rewrite_reply_head env _ _ _ _ _) fun _ _ => ?_
        exact guarded_last (guarded_prepare_reply_deliveries env depth)
  · exact guarded_pure trivial

theorem guarded_recover (source : JobRecord) (r : Recoverability) :
    Guarded config terms (recover config env depth source r) (fun _ _ => True) s := by
  cases r with
  | reply_delivery delivery => exact guarded_recover_reply_delivery env depth delivery
  | terminal_retry => exact guarded_recover_terminal_retry env source
  | stale_running => exact guarded_recover_stale_running env source
  | not_recoverable => exact guarded_pure trivial

theorem guarded_tick_after_recovery (audit : RecoverAudit) :
    Guarded config terms (tick_after_recovery config env depth audit) (fun _ _ => True) s := by
  unfold tick_after_recovery
  split
  · exact guarded_then (guarded_prepare_reply_deliveries env depth) fun _ _ =>
      guarded_tick_jobs env depth
  · exact guarded_tick_jobs env depth

theorem guarded_comms_recover (j : JobId) (delivery : Option JobId) (hint : Option String) :
    Guarded config terms (comms_recover config env depth j delivery hint) (fun _ _ => True) s := by
  refine guarded_then (guarded_get_job j) fun source _ => ?_
  cases source with
  | none => exact guarded_raise
  | some source =>
    dsimp only
    split
    · exact guarded_raise
    · refine guarded_then (guarded_look (touches_job_or_none (K := fun kind => kind = .remember)
        config rfl _)) fun _ _ => ?_
      refine guarded_then (guarded_comms_recoverability env _ _ _) fun _ _ => ?_
      refine guarded_then (guarded_recover env depth _ _) fun audit _ => ?_
      split
      · exact guarded_pure trivial
      · exact guarded_tick_after_recovery env depth _

theorem guarded_restore_running_jobs :
    Guarded config terms (restore_running_jobs config env depth) (fun _ _ => True) s := by
  refine guarded_read_bind ?_
  refine guarded_forEach (J := fun _ => True) trivial fun job_id _ s' _ => ?_
  refine guarded_then (guarded_get_job job_id) fun current _ => ?_
  split
  · exact guarded_pure trivial
  · split
    · exact guarded_complete env depth _ _
    · split
      · exact guarded_pure trivial
      · exact guarded_complete env depth _ _
      · exact guarded_then (guarded_event rfl) fun _ _ => guarded_complete env depth _ _

theorem guarded_terminate_nonterminal_jobs :
    Guarded config terms (terminate_nonterminal_jobs config env depth) (fun _ _ => True) s := by
  refine guarded_read_bind ?_
  refine guarded_forEach (J := fun _ => True) trivial fun job_id _ s' _ => ?_
  refine guarded_then (guarded_get_job job_id) fun current _ => ?_
  split
  · exact guarded_pure trivial
  · refine guarded_handle ?_ fun _ _ _ => guarded_pure trivial
    exact guarded_then (completes_complete env depth _ _ _) fun _ _ => guarded_remove_queued_for _ _

/-- What is asked of an operation under the terms. -/
def Allowed (terms : Terms) : DispatcherOperation → Prop
  | .resubmit _ => ¬terms.lineal
  | _ => True

theorem guarded_exec (hlist : ListsOnce env) {op : DispatcherOperation} (hop : Allowed terms op) :
    Guarded config terms (op.exec config env depth) (fun _ _ => True) s := by
  cases op with
  | submit request => exact guarded_submit env hlist request.property
  | resubmit m => exact guarded_resubmit_message env hop m
  | retry target =>
    exact guarded_last (guarded_retry_attempt env target)
  | complete j d => exact guarded_complete env depth j d
  | cancel j record => exact guarded_cancel_job env j record
  | prepare_reply_deliveries =>
    exact guarded_last (guarded_prepare_reply_deliveries env depth)
  | repair_callback_edges => exact guarded_repair_callback_edges env
  | tick_jobs => exact guarded_tick_jobs env depth
  | tick => exact guarded_tick env depth
  | comms_recover j delivery hint => exact guarded_comms_recover env depth j delivery hint
  | restore_running_jobs => exact guarded_restore_running_jobs env depth
  | terminate_nonterminal_jobs => exact guarded_terminate_nonterminal_jobs env depth

end Operations

section Restart

variable {config : DispatcherConfig} {s : DispatcherStore}

theorem rebuild_active_mem {list_agent : AgentName → List JobRecord}
    {agent_names : List AgentName} {mailbox_order : AgentName → List JobId}
    {agent_name : AgentName} {job_id : JobId}
    (h : (DispatcherState.rebuild list_agent agent_names mailbox_order).active_job_for agent_name
      = some job_id) :
    job_id ∈ DispatcherState.jobs_with (fun status => status = .running)
      (list_agent agent_name) := by
  have hfold : ∀ (names : List AgentName) (st : DispatcherState),
      (∀ j, st.active_jobs.get agent_name = some j → j ∈ DispatcherState.jobs_with
        (fun status => status = .running) (list_agent agent_name)) →
      ∀ j, (names.foldl (fun st name => st.rebuild_agent (list_agent name) (mailbox_order name)
        name) st).active_jobs.get agent_name = some j → j ∈ DispatcherState.jobs_with
          (fun status => status = .running) (list_agent agent_name) := by
    intro names
    induction names with
    | nil => exact fun st hst => hst
    | cons name names ih =>
      intro st hst
      refine ih _ fun j hj => ?_
      rw [DispatcherState.rebuild_agent_active_jobs] at hj
      by_cases hname : agent_name = name
      · subst hname
        rw [if_pos rfl] at hj
        cases hlast : (DispatcherState.jobs_with (fun status => status = .running)
            (list_agent agent_name)).getLast? with
        | none =>
          rw [hlast] at hj
          exact hst j hj
        | some last =>
          rw [hlast] at hj
          rw [← show last = j from Option.some.inj hj]
          exact List.mem_of_getLast? hlast
      · rw [if_neg hname] at hj
        exact hst j hj
  have hinit : ∀ names : List AgentName, ∀ st : DispatcherState, st.active_jobs = Dict.empty →
      (names.foldl DispatcherState.ensure_queue st).active_jobs = Dict.empty := by
    intro names
    induction names with
    | nil => exact fun st hst => hst
    | cons name names ih =>
      exact fun st hst => ih _ ((DispatcherState.ensure_queue_active_jobs st name).trans hst)
  refine hfold agent_names (DispatcherState.init agent_names) (fun j hj => ?_) job_id h
  rw [DispatcherState.init, hinit agent_names _ rfl] at hj
  simp at hj

theorem Coherent.restarted (h : Coherent s) : Coherent (restarted config s) := by
  refine { h with active := fun agent_name job_id hactive => ?_ }
  obtain ⟨r, hr, hid⟩ := List.mem_map.mp (rebuild_active_mem hactive)
  have hmem := mem_of_mem_collapse (List.mem_filter.mp hr).1
  obtain ⟨hjob, hagent⟩ := List.mem_filter.mp hmem
  exact ⟨r, hjob, hid, by simpa using hagent⟩

end Restart

section Runs

variable {config : DispatcherConfig} {terms : Terms}
  {A : DispatcherStore → DispatcherStore → Prop} {s : DispatcherStore}

/-- A store of a run of the dispatcher, whose accesses satisfy `A`.  An operation may be
broken off after any of its accesses, and the daemon may start anew at any time. -/
inductive Reached (config : DispatcherConfig) (terms : Terms)
    (A : DispatcherStore → DispatcherStore → Prop) : DispatcherStore → Prop
  | empty : Reached config terms A (DispatcherStore.empty config.agent_names)
  | operation (s : DispatcherStore) (hs : Reached config terms A s) (env : DispatcherEnvironment)
      (hlist : ListsOnce env) (depth : ℕ) (op : DispatcherOperation) (hop : Allowed terms op)
      (n : ℕ) (h : ∀ t ∈ Prog.trace n (op.exec config env depth) s, A t.1 t.2) :
      Reached config terms A (Prog.stopAfter n (op.exec config env depth) s)
  | restart (s : DispatcherStore) (hs : Reached config terms A s) :
      Reached config terms A (restarted config s)

theorem Reached.invariant {J : DispatcherStore → Prop}
    (hA : ∀ s s', A s s' → terms.strict → AnswersOnce s s')
    (hempty : J (DispatcherStore.empty config.agent_names))
    (hchange : ∀ s s', A s s' → Coherent s → Change config terms s s' → J s → J s')
    (hrestart : ∀ s, Coherent s → J s → J (restarted config s))
    (h : Reached config terms A s) : Coherent s ∧ J s := by
  induction h with
  | empty => exact ⟨coherent_empty _, hempty⟩
  | operation s hs env hlist depth op hop n hn ih =>
    have hguarded : Guarded config terms (op.exec config env depth) (fun _ _ => True) s :=
      guarded_exec env depth hlist hop
    have hcourse := (hguarded ih.1).strengthen hA
    have halong := hcourse.along (J := fun x => Coherent x ∧ J x) (fun x x' ha hc hx =>
      ⟨hx.1.change hc, hchange x x' ha hx.1 hc hx.2⟩) ih
    exact Prog.Along.stopAfter (I := fun x => Coherent x ∧ J x) ih halong n hn
  | restart s hs ih => exact ⟨ih.1.restarted, hrestart s ih.1 ih.2⟩

theorem Reached.run (h : Reached config terms (fun _ _ => True) s) (env : DispatcherEnvironment)
    (hlist : ListsOnce env) (depth : ℕ) {op : DispatcherOperation} (hop : Allowed terms op) :
    Reached config terms (fun _ _ => True) ((op.exec config env depth).run s).2 := by
  obtain ⟨n, hn⟩ := Prog.exists_stopAfter_eq_run (op.exec config env depth) s
  rw [← hn]
  exact .operation s h env hlist depth op hop n fun _ _ => trivial

end Runs

def threeAgents : DispatcherConfig where
  agents := [⟨1, "codex", false, false⟩, ⟨2, "codex", false, false⟩, ⟨3, "codex", false, false⟩]
  max_callback_depth := 5
  known_mailboxes := [1, 2, 3]

/-- Every job starts, no retry and no notice is due, and nothing is in the way. -/
def calmEnvironment (clock : Timestamp) : DispatcherEnvironment where
  service := ⟨clock, none⟩
  drain_blocks := fun _ => false
  list_alive := [1, 2]
  runnable := fun _ => true
  bind_workspace_tree := fun _ => .ok ()
  preclaim := fun _ => .allowed
  should_start := fun _ => true
  start := fun _ => .submitted false
  live := fun _ => false
  persisted := fun _ => false
  persisted_decision := fun _ => none
  restore := fun _ => .restored
  cancel_reply := fun _ => ""
  cancel_anchor_seen := fun _ => false
  pending_stalled := fun _ => false
  settle := fun _ decision => decision.val
  retryable := fun _ _ _ => false
  retry_with_continue := fun _ => false
  retry_failure_reply := id
  failure_reply := fun _ => none
  result_notice := fun _ _ => none
  running_stale_reason := fun _ => none
  reply_delivery_body := fun _ => ""
  continuation_body := fun _ _ _ => ""

theorem calm_lists (clock : Timestamp) : ListsOnce (calmEnvironment clock) :=
  List.nodup_cons.mpr ⟨by simp, List.nodup_singleton 2⟩

def askAgent (target : AgentName) (sender : Actor) (mode : Option RouteMode) : ClientRequest :=
  ⟨{ to_agent := some target
     from_actor := sender
     body := ""
     task_id := none
     reply_to := none
     message_type := .ask
     delivery_scope := .single
     silence_on_success := false
     route_options := { RouteOptions.empty with mode := mode } }, rfl⟩

def endedWith (status : CompletionStatus) : TerminalDecision :=
  ⟨{ terminal := true
     status := status
     reason := ""
     reply := "done"
     anchor_seen := true
     source_kind := none
     finished_at := none
     diagnostics := Diagnostics.empty }, rfl⟩

def afterwards (s : DispatcherStore) (clock : Timestamp) (op : DispatcherOperation) :
    DispatcherStore :=
  ((op.exec threeAgents (calmEnvironment clock) 1).run s).2

theorem Reached.afterwards {terms : Terms} {s : DispatcherStore}
    (h : Reached threeAgents terms (fun _ _ => True) s) (clock : Timestamp)
    (op : DispatcherOperation) (hop : Allowed terms op) :
    Reached threeAgents terms (fun _ _ => True) (afterwards s clock op) :=
  h.run (calmEnvironment clock) (calm_lists clock) 1 hop

def begun (s : DispatcherStore) (clock : Timestamp) (op : DispatcherOperation) : DispatcherStore :=
  Prog.stopAfter 200 (op.exec threeAgents (calmEnvironment clock) 1) s

theorem Reached.begun {terms : Terms} {A : DispatcherStore → DispatcherStore → Prop}
    {s : DispatcherStore} (h : Reached threeAgents terms A s) (clock : Timestamp)
    (op : DispatcherOperation) (hop : Allowed terms op)
    (hA : ∀ t ∈ Prog.trace 200 (op.exec threeAgents (calmEnvironment clock) 1) s, A t.1 t.2) :
    Reached threeAgents terms A (begun s clock op) :=
  .operation s h (calmEnvironment clock) (calm_lists clock) 1 op hop 200 hA

/-- The store after the first agent's job has delegated a part to the second, whose job runs
too. -/
def delegatedStore : DispatcherStore :=
  let asked := afterwards (DispatcherStore.empty [1, 2, 3]) 1 (.submit (askAgent 1 .user none))
  let delegated := afterwards (afterwards asked 2 .tick) 3
    (.submit (askAgent 2 (.agent 1) (some .chain)))
  afterwards delegated 4 .tick

theorem delegated_reached (terms : Terms) :
    Reached threeAgents terms (fun _ _ => True) delegatedStore := by
  have hempty : Reached threeAgents terms (fun _ _ => True) (DispatcherStore.empty [1, 2, 3]) :=
    .empty
  have hasked := (hempty.afterwards 1 (.submit (askAgent 1 .user none)) trivial).afterwards 2
    .tick trivial
  exact (hasked.afterwards 3 (.submit (askAgent 2 (.agent 1) (some .chain))) trivial).afterwards 4
    .tick trivial

end ClaudeCodeBridge.Analysis
