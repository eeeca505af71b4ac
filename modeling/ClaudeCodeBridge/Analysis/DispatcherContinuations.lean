import ClaudeCodeBridge.Analysis.DispatcherGuards

/-!
# Continuations keep to the changes

The functions that move a callback edge on: the continuation of its parent, the end of the
chain, and the repair of edges after a stop.  Each works on the standing record of one edge
and leaves the other edges alone (`OnlyEdge`), so that a loop over all edges finds the
later ones as it read them.
-/

set_option autoImplicit false

namespace ClaudeCodeBridge.Analysis

open Program Model

variable {α β : Type}

section Continuing

open Callbacks Submission

variable {config : DispatcherConfig} {terms : Terms} {s : DispatcherStore}
  (env : DispatcherEnvironment)

/-- The standing records of all edges but one stay. -/
def OnlyEdge (i : EdgeId) (s s' : DispatcherStore) : Prop :=
  ∀ k, k ≠ i → latest? (fun r : CallbackEdgeRecord => r.edge_id) k s'.edges =
    latest? (fun r => r.edge_id) k s.edges

variable {i : EdgeId}

theorem OnlyEdge.trans {s t u : DispatcherStore} (h : OnlyEdge i s t)
    (h' : OnlyEdge i t u) : OnlyEdge i s u := fun k hk => (h' k hk).trans (h k hk)

variable {s' : DispatcherStore}

theorem onlyEdge_of_edges {s : DispatcherStore} (h : s'.edges = s.edges) : OnlyEdge i s s' := by
  intro k _
  rw [h]

variable {e : CallbackEdgeRecord}

theorem onlyEdge_append {s : DispatcherStore}
    (h : s'.edges = s.edges ++ [e]) (he : e.edge_id = i) : OnlyEdge i s s' := by
  intro k hk
  rw [h, latest?_append, he, if_neg hk.symm]

theorem Standing.only {s : DispatcherStore}
    (he : Standing s e) (h : OnlyEdge i s s') (hi : e.edge_id ≠ i) : Standing s' e :=
  (h e.edge_id hi).trans he

theorem exists_standing (he : e ∈ s.edges) :
    ∃ x, latest? (fun r : CallbackEdgeRecord => r.edge_id) e.edge_id s.edges = some x ∧
      Standing s x := by
  cases hlatest : latest? (fun r : CallbackEdgeRecord => r.edge_id) e.edge_id s.edges with
  | none => exact absurd (List.mem_map_of_mem he) ((latest?_eq_none_iff _).mp hlatest)
  | some x =>
    refine ⟨x, rfl, ?_⟩
    rw [Standing, (mem_of_latest? hlatest).2]
    exact hlatest

theorem Standing.eq {x : CallbackEdgeRecord} (he : Standing s e) (hx : Standing s x)
    (h : e.edge_id = x.edge_id) : e = x := by
  rw [Standing, h, hx] at he
  exact (Option.some.inj he).symm

theorem Guarded.only {p : DispatcherM α} {Q : α → DispatcherStore → Prop} (i : EdgeId)
    (h : Guarded config terms p Q s) (hp : Touches (fun kind => kind ≠ .edge) p) :
    Guarded config terms p (fun a s' => Q a s' ∧ OnlyEdge i s s') s :=
  (h.keeps_edges hp).mono fun _ _ _ _ h => ⟨h.1, onlyEdge_of_edges h.2⟩

theorem guarded_mark_edges {edges : List CallbackEdgeRecord} {t : Timestamp}
    (hnodup : (edges.map fun e => e.edge_id).Nodup) (hstanding : ∀ e ∈ edges, Standing s e)
    (hstate : ∀ e ∈ edges, e.state = .continuation_submitted) :
    Guarded config terms (Prog.forEach edges fun edge =>
      CallbackEdgeStore.append { edge with state := .done, updated_at := t })
      (fun _ _ => True) s := by
  induction edges generalizing s with
  | nil => exact guarded_pure trivial
  | cons edge edges ih =>
    rw [List.map_cons, List.nodup_cons] at hnodup
    have hedge := hstanding edge List.mem_cons_self
    have hforward : forward edge.state .done = true := by
      rw [hstate edge List.mem_cons_self]
      rfl
    refine guarded_of_coherent fun hs => ?_
    refine guarded_bind (guarded_append_edge (edgeUpdate_state hs hedge rfl hforward rfl rfl
      fun _ => rfl)) fun _ s' _ _ h => ?_
    refine ih hnodup.2 (fun e he => ?_) fun e he => hstate e (List.mem_cons_of_mem edge he)
    have honly : OnlyEdge edge.edge_id s s' := by
      rw [h.1]
      exact onlyEdge_append rfl rfl
    refine (hstanding e (List.mem_cons_of_mem edge he)).only honly fun hid => ?_
    exact hnodup.1 (hid ▸ List.mem_map_of_mem he)

theorem guarded_mark_prior (edge : CallbackEdgeRecord) (t : Timestamp) :
    Guarded config terms (mark_prior_continuation_edges_done edge t) (fun _ _ => True) s := by
  refine guarded_read_bind (guarded_mark_edges ?_ ?_ ?_)
  · exact (collapse_nodup (fun r : CallbackEdgeRecord => r.edge_id) s.edges).sublist
      (List.filter_sublist.map _)
  · intro e he
    exact standing_of_latestEdges (List.mem_filter.mp he).1
  · intro e he
    have hkeys := (List.mem_filter.mp he).2
    simp only [decide_eq_true_eq] at hkeys
    exact hkeys.2.2

theorem guarded_mark_callback_done (job : JobRecord) (t : Timestamp) :
    Guarded config terms (mark_callback_done job t) (fun _ _ => True) s := by
  unfold mark_callback_done
  split
  · exact guarded_pure trivial
  · rename_i edge_id _
    refine guarded_of_coherent fun hs => guarded_read_bind ?_
    cases hlatest : latest? (fun r : CallbackEdgeRecord => r.edge_id) edge_id s.edges with
    | none => exact guarded_pure trivial
    | some edge =>
      have hedge : Standing s edge := by
        rw [Standing, (mem_of_latest? hlatest).2]
        exact hlatest
      dsimp only
      split
      · exact guarded_pure trivial
      · rename_i hopen
        have hforward : forward edge.state .done = true := by
          cases hstate : edge.state <;> simp_all [CallbackEdgeState.closed, forward]
        refine guarded_then (guarded_update_edge (edgeUpdate_state hs hedge rfl hforward rfl rfl
          fun _ => rfl)) fun _ _ => ?_
        exact guarded_mark_prior _ _

theorem guarded_mark_parent_message_waiting (edge : CallbackEdgeRecord) (t : Timestamp) :
    Guarded config terms (mark_parent_message_waiting edge t) (fun _ _ => True) s := by
  unfold mark_parent_message_waiting
  split
  · exact guarded_pure trivial
  · exact guarded_set_message_state _ _ _

variable {edge : CallbackEdgeRecord}

theorem guarded_terminalize_cancelled_parent_edge (hedge : edge ∈ s.edges) (t : Timestamp) :
    Guarded config terms (terminalize_cancelled_parent_edge edge t) (fun _ _ => True) s := by
  obtain ⟨latest, hlatest, hstanding⟩ := exists_standing hedge
  refine guarded_of_coherent fun hs => guarded_read_bind ?_
  dsimp only
  rw [hlatest, Option.getD_some]
  split
  · exact guarded_pure trivial
  · rename_i hopen
    have hforward : forward latest.state .failed = true := by
      cases hstate : latest.state <;> simp_all [CallbackEdgeState.terminal, forward]
    refine Guarded.mono (guarded_append_edge (x := latest) ?_) fun _ _ _ _ _ => trivial
    exact edgeUpdate_state hs hstanding rfl hforward rfl rfl fun _ => rfl

theorem guarded_persist_delegated_terminal_job {job : JobRecord} (hjob : KnownJob s job)
    (hended : job.status.terminal) (t : Timestamp) :
    Guarded config terms (persist_delegated_terminal_job job t)
      (fun r s' => r = job ∧ job ∈ s'.jobs) s := by
  refine guarded_bind (guarded_append_ended_job hjob hended) fun _ s₁ _ _ h₁ => ?_
  refine guarded_bind (guarded_append_event rfl) fun _ s₂ _ hext _ => guarded_pure ⟨rfl, ?_⟩
  refine hext.jobs ?_
  rw [h₁.1.jobs]
  exact List.mem_append_right _ List.mem_cons_self

theorem guarded_existing_by_edge (targets : List AgentName) :
    Guarded config terms (existing_continuation_jobs_by_edge targets)
      (fun found s' => (∀ x ∈ found, x.2 ∈ s.jobs ∧
        x.2.request.route_options.chain_edge_id = some x.1) ∧ s' = s) s := by
  refine Guarded.same ?_ (touches_existing_by_edge targets)
  induction targets with
  | nil => exact guarded_pure (by simp)
  | cons target targets ih =>
    unfold existing_continuation_jobs_by_edge
    refine guarded_read_bind ?_
    refine guarded_bind ih fun rest s' _ _ hrest => guarded_pure fun x hx => ?_
    rcases List.mem_append.mp hx with hx | hx
    · obtain ⟨job, hjob, hedge⟩ := List.mem_filterMap.mp hx
      obtain ⟨edge_id, hid, rfl⟩ := Option.map_eq_some_iff.mp hedge
      exact ⟨(List.mem_filter.mp hjob).1, hid⟩
    · exact hrest x hx

theorem mem_of_continuationOf {found : List (EdgeId × JobRecord)} {job : JobRecord}
    (h : continuationOf found i = some job) : (i, job) ∈ found := by
  obtain ⟨x, hx, rfl⟩ := Option.map_eq_some_iff.mp h
  obtain ⟨hmem, hid⟩ := List.mem_filter.mp (List.mem_of_getLast? hx)
  simp only [decide_eq_true_eq] at hid
  rw [← hid]
  exact hmem

theorem guarded_existing_continuation_job (edge : CallbackEdgeRecord) :
    Guarded config terms (existing_continuation_job edge)
      (fun found s' => (∀ job, found = some job → job ∈ s.jobs ∧
        job.request.route_options.chain_edge_id = some edge.edge_id) ∧ s' = s) s := by
  refine guarded_bind (guarded_existing_by_edge _) fun found s' _ _ h => guarded_pure ⟨?_, h.2⟩
  exact fun job hjob => h.1 _ (mem_of_continuationOf hjob)

/-- The reply found is one to the child's message, and the one that the edge names, if it
names one. -/
theorem guarded_latest_child_reply (hedge : edge ∈ s.edges) :
    Guarded config terms (latest_child_reply edge)
      (fun found s' => ((∀ r, found = some r → r ∈ s.bureau.replies ∧
          r.message_id = edge.child_message_id) ∧
        ∀ i, edge.child_reply_id = some i → found.map (fun r => r.reply_id) = some i) ∧
          s' = s) s := by
  refine Guarded.same ?_ (touches_latest_child_reply edge)
  refine guarded_of_coherent fun hs => ?_
  unfold latest_child_reply recorded_child_reply
  cases hid : edge.child_reply_id with
  | none =>
    refine guarded_onBureau_read_bind (l := .list_replies)
      (g := fun b : BureauStore => b.replies.filter fun r => r.message_id = edge.child_message_id)
      (f := fun replies => pure (replies.filter fun reply => !reply.notice).getLast?) ?_
    refine guarded_pure ⟨fun r hr => ?_, by simp⟩
    obtain ⟨hmem, _⟩ := List.mem_filter.mp (List.mem_of_getLast? hr)
    simpa using List.mem_filter.mp hmem
  | some i =>
    refine guarded_onBureau_read_bind ?_
    obtain ⟨x, hx, hxi, hxm⟩ := hs.edge_reply edge hedge i hid
    cases hlatest : latest? (fun r : ReplyRecord => r.reply_id) i s.bureau.replies with
    | none => exact absurd (hxi ▸ List.mem_map_of_mem hx) ((latest?_eq_none_iff _).mp hlatest)
    | some r =>
      obtain ⟨hr, hri⟩ := mem_of_latest? hlatest
      refine guarded_pure ⟨fun r' hr' => ?_, fun j hj => ?_⟩
      · rw [← Option.some.inj hr', hs.reply_unique r hr x hx (hri.trans hxi.symm)]
        exact ⟨hx, hxm⟩
      · rw [← Option.some.inj hj, Option.map_some, hri]

theorem guarded_job_for_reply {reply : Option ReplyRecord}
    (hreply : ∀ r, reply = some r → r ∈ s.bureau.replies) :
    Guarded config terms (job_for_reply config reply)
      (fun found s' => (∀ job, found = some job → ∃ r, reply = some r ∧
        ∃ a, HasAttempt s' job.job_id r.message_id a) ∧ Looked s s') s := by
  refine Guarded.looked ?_ (touches_job_for_reply (K := fun kind => kind = .remember) config rfl _)
  refine guarded_of_coherent fun hs => ?_
  unfold job_for_reply
  cases reply with
  | none => exact guarded_pure (by simp)
  | some r =>
    refine guarded_onBureau_read_bind ?_
    cases hlatest : latest? (fun a : AttemptRecord => a.attempt_id) r.attempt_id
        s.bureau.attempts with
    | none => exact guarded_pure (by simp)
    | some attempt =>
      obtain ⟨hmem, hid⟩ := mem_of_latest? hlatest
      obtain ⟨x, hx, hxid, hxm⟩ := hs.reply_attempt r (hreply r rfl)
      have hkey := hs.attempt_of_id attempt hmem x hx (hid.trans hxid.symm)
      simp only [attemptKey, AttemptKey.mk.injEq] at hkey
      refine (guarded_get_job attempt.job_id).mono fun found s' _ hext h job hjob => ?_
      refine ⟨r, rfl, attempt.agent_name, attempt, hext.attempts hmem, ?_, ?_, rfl⟩
      · exact (h.1 job hjob).2.symm
      · exact hkey.2.1.trans hxm

theorem guarded_fail_callback_edge (hedge : Standing s edge)
    (reason detail : String) (t : Timestamp) :
    Guarded config terms (fail_callback_edge config env edge reason detail t)
      (fun _ s' => OnlyEdge edge.edge_id s s') s := by
  refine guarded_of_coherent fun hs => guarded_read_bind ?_
  dsimp only
  rw [hedge, Option.getD_some]
  split
  · exact guarded_pure (onlyEdge_of_edges rfl)
  · rename_i hopen
    have hforward : forward edge.state .failed = true := by
      cases hstate : edge.state <;> simp_all [CallbackEdgeState.terminal, forward]
    refine guarded_bind (guarded_update_edge (edgeUpdate_state hs hedge rfl hforward rfl rfl
      fun _ => rfl)) fun failed s₁ _ _ h₁ => ?_
    have honly : OnlyEdge edge.edge_id s s₁ := by
      rw [h₁.2.1]
      exact onlyEdge_append rfl rfl
    refine guarded_bind ((guarded_record_callback_failure_notice env _ _ _ _).only edge.edge_id ?_)
      fun _ _ _ _ h₂ => guarded_pure (honly.trans h₂.2)
    exact touches_record_callback_failure_notice config env (by simp) (by simp) (by simp)
      (by simp) (by simp) _ _ _ _

theorem guarded_record_continuation_attempt (hedge : edge ∈ s.edges)
    {job : JobRecord} (t : Timestamp) (hjob : HasJob s job.job_id job.agent_name)
    (htarget : Lineal s → job.agent_name = edge.callback_target_agent) :
    Guarded config terms (onBureau (MessageBureau.record_retry_attempt env.service
      edge.parent_message_id job t)) (fun _ _ => True) s := by
  refine guarded_of_coherent fun hs => ?_
  refine guarded_record_retry_attempt env.service t hjob fun hlineal => Or.inl ?_
  obtain ⟨b, hb, _, hbm, hba⟩ := hs.edge_parent edge hedge
  refine ⟨b, hb, hbm, ?_⟩
  rw [hba, htarget hlineal, hs.edge_target edge hedge]

theorem guarded_inbound_of_attempt (agent_name : AgentName) (attempt : Option AttemptRecord) :
    Guarded config terms (inbound_of_attempt agent_name attempt) (fun _ _ => True) s := by
  unfold inbound_of_attempt
  cases attempt with
  | none => exact guarded_pure trivial
  | some attempt =>
    exact (guarded_recalling (recalling_silent (silent_get_latest_for_attempt _))).mono
      fun _ _ _ _ _ => trivial

def TargetJob (s : DispatcherStore) (edge : CallbackEdgeRecord) (job : JobRecord) : Prop :=
  ∀ s', Coherent s' → Extends s s' → Lineal s' → job.agent_name = edge.callback_target_agent

theorem targetJob_of_names {job : JobRecord} (hedge : edge ∈ s.edges)
    (hjob : job ∈ s.jobs) (hnames : job.request.route_options.chain_edge_id = some edge.edge_id) :
    TargetJob s edge job := fun _ _ hext hlineal =>
  (hlineal.job job (hext.jobs hjob) _ hnames edge (hext.edges hedge) rfl).symm

theorem targetJob_of_continuation {job : JobRecord} (hedge : edge ∈ s.edges) (hjob : job ∈ s.jobs)
    (hlinked : edge.continuation_job_id = some job.job_id) : TargetJob s edge job := by
  intro s' hs' hext hlineal
  have htarget := hlineal.continuation edge (hext.edges hedge) job.job_id hlinked
  exact hs'.hasJob_agent ⟨job, hext.jobs hjob, rfl, rfl⟩ htarget

theorem guarded_repair_pending_continuation_attempt (hedge : edge ∈ s.edges) {job : JobRecord}
    (hjob : job ∈ s.jobs) (htarget : TargetJob s edge job) :
    Guarded config terms (repair_pending_continuation_attempt env edge job)
      (fun _ s' => s'.edges = s.edges) s := by
  refine Guarded.mono (Guarded.keeps_edges (Q := fun _ _ => True) ?_ ?_) fun _ _ _ _ h => h.2
  · unfold repair_pending_continuation_attempt
    split
    · exact guarded_pure trivial
    · refine guarded_onBureau_read_bind ?_
      refine guarded_bind (guarded_inbound_of_attempt _ _) fun inbound s₁ hs₁ hext _ => ?_
      split
      · exact guarded_pure trivial
      · refine guarded_last (guarded_record_continuation_attempt env (hext.edges hedge) _ ?_
          (htarget s₁ hs₁ hext))
        exact ⟨job, hext.jobs hjob, rfl, rfl⟩
  · exact touches_repair_pending_continuation_attempt env (by simp) (by simp) (by simp) (by simp)
      _ _

theorem guarded_submit_continuation_job (hedge : edge ∈ s.edges) {request : MessageEnvelope}
    (t : Timestamp) (hnames : request.route_options.chain_edge_id = some edge.edge_id) :
    Guarded config terms (submit_continuation_job config env request edge.callback_target_agent
      edge.parent_message_id t)
      (fun job_id s' => HasJob s' job_id edge.callback_target_agent) s := by
  refine guarded_bind (guarded_same (touches_validate_target_available config env _))
    fun _ s₁ _ hext₁ _ => ?_
  refine guarded_bind (guarded_same (touches_spec_for config _)) fun spec s₂ _ hext₂ _ => ?_
  refine guarded_bind guarded_new_id fun job_id s₃ _ hext₃ hid => ?_
  obtain ⟨_, hunused, _⟩ := hid
  refine guarded_bind (guarded_look (touches_pending_status _)) fun status s₄ hs₄ hext₄ hlooked => ?_
  have hunused₄ := hunused.looked hlooked
  have hedge₄ : edge ∈ s₄.edges := hext₄.edges (hext₃.edges (hext₂.edges (hext₁.edges hedge)))
  refine guarded_bind (guarded_enqueue_submitted_job t ⟨hunused₄.below, hunused₄.job, ?_, ?_⟩)
    fun _ s₅ _ hext₅ h₅ => ?_
  · intro i hi
    rw [← Option.some.inj (hnames.symm.trans hi)]
    exact (hs₄.edge_below edge hedge₄).1
  · intro _ _ i hi e he hid
    have hlinks := hs₄.edge_links e he edge hedge₄
      (hid.trans (Option.some.inj (hnames.symm.trans hi)).symm)
    simp only [edgeLinks, EdgeLinks.mk.injEq] at hlinks
    exact hlinks.2.2.2.2.2.2.1
  · have hjob : HasJob s₅ job_id edge.callback_target_agent :=
      ⟨_, h₅.jobs ▸ List.mem_append_right _ List.mem_cons_self, rfl, rfl⟩
    refine guarded_bind (guarded_record_continuation_attempt env (hext₅.edges hedge₄) t hjob
      fun _ => rfl) fun _ s₆ _ hext₆ _ => ?_
    refine guarded_onBureau_read_bind ?_
    split
    · exact guarded_pure (hjob.extends hext₆)
    · exact guarded_bind (guarded_append_submission_job _ _ _) fun _ _ _ hext₇ _ =>
        guarded_pure (hjob.extends (hext₆.trans hext₇))

/-- What the reply that a continuation names must be: one to the child's message, and, where
callers are answered once, the one that the open edge names already, if it names one. -/
structure Answers (terms : Terms) (s : DispatcherStore) (edge : CallbackEdgeRecord)
    (reply_id : Option ReplyId) : Prop where
  recorded : ∀ r, reply_id = some r → HasReply s r edge.child_message_id
  once : terms.strict → edge.state.terminal = false → edge.child_reply_id.isSome →
    reply_id = edge.child_reply_id

theorem open_forward {state next : CallbackEdgeState} (h : state.terminal = false)
    (hnext : next = .child_completed ∨ next = .continuation_submitted ∨ next = .done) :
    forward state next = true := by
  cases state <;> rcases hnext with rfl | rfl | rfl <;> simp_all [CallbackEdgeState.terminal, forward]

theorem Coherent.open_unlinked (hs : Coherent s)
    (hedge : edge ∈ s.edges) (hopen : edge.state.terminal = false) :
    edge.continuation_job_id = none := by
  cases hlinked : edge.continuation_job_id with
  | none => rfl
  | some job_id =>
    have hterminal := hs.edge_linked edge hedge (by simp [hlinked])
    rw [hterminal] at hopen
    exact absurd hopen (by simp)

variable {reply_id : Option ReplyId}

theorem guarded_link_existing_continuation (hedge : Standing s edge)
    (hopen : edge.state.terminal = false) {existing : JobRecord} (hexisting : existing ∈ s.jobs)
    (hnames : existing.request.route_options.chain_edge_id = some edge.edge_id)
    (child_job : JobRecord) (hreply : Answers terms s edge reply_id) (t : Timestamp) :
    Guarded config terms (link_existing_continuation env edge existing child_job reply_id t)
      (fun _ s' => OnlyEdge edge.edge_id s s') s := by
  refine guarded_of_coherent fun hs => ?_
  have hunlinked := hs.open_unlinked hedge.mem hopen
  refine guarded_bind (guarded_repair_pending_continuation_attempt env hedge.mem hexisting
    (targetJob_of_names hedge.mem hexisting hnames)) fun _ s₁ hs₁ hext₁ hedges₁ => ?_
  have hedge₁ := hedge.of_edges hedges₁
  refine guarded_bind (guarded_latest_child_reply hedge₁.mem) fun persisted s₂ _ _ h₂ => ?_
  obtain ⟨⟨hpersisted, _⟩, rfl⟩ := h₂
  refine Guarded.mono (guarded_update_edge ⟨hedge₁, ?_, ?_, ?_, ?_⟩) fun _ s₃ _ _ h₃ => ?_
  · refine ⟨rfl, ?_, ?_, ?_⟩
    · refine open_forward hopen ?_
      dsimp only
      split
      · exact Or.inr (Or.inr rfl)
      · exact Or.inr (Or.inl rfl)
    · rw [hunlinked]
      exact fun h => absurd h (by simp)
    · intro hstrict hsome
      have honce := hreply.once hstrict hopen hsome
      show (reply_id <|> edge.child_reply_id <|> _) = edge.child_reply_id
      rw [honce]
      obtain ⟨r, hr⟩ := Option.isSome_iff_exists.mp hsome
      rw [hr]
      rfl
  · intro _
    dsimp only
    split <;> rfl
  · intro r hr
    dsimp only at hr
    cases hgiven : reply_id with
    | some i =>
      rw [hgiven] at hr
      rw [← show i = r from Option.some.inj hr]
      exact (hreply.recorded i hgiven).extends hext₁
    | none =>
      rw [hgiven] at hr
      cases hnamed : edge.child_reply_id with
      | some i =>
        rw [hnamed] at hr
        rw [← show i = r from Option.some.inj hr]
        exact hs₁.edge_reply edge hedge₁.mem i hnamed
      | none =>
        rw [hnamed] at hr
        obtain ⟨found, hfound, rfl⟩ := Option.map_eq_some_iff.mp
          (show persisted.map (fun reply => reply.reply_id) = some r from hr)
        obtain ⟨hmem, hmessage⟩ := hpersisted found hfound
        exact ⟨found, hmem, rfl, hmessage⟩
  · intro hlineal j hj
    have hmem := hext₁.jobs hexisting
    rw [← show existing.job_id = j from Option.some.inj hj]
    exact ⟨existing, hmem, rfl, (hlineal.job existing hmem _ hnames edge hedge₁.mem rfl).symm⟩
  · refine (onlyEdge_of_edges hedges₁).trans ?_
    rw [h₃.2.1]
    exact onlyEdge_append rfl rfl

theorem guarded_submit_new_continuation (hedge : Standing s edge)
    (hopen : edge.state.terminal = false) (child_job : JobRecord)
    (hreply : Answers terms s edge reply_id) (decision : Model.CompletionDecision) (t : Timestamp) :
    Guarded config terms (submit_new_continuation config env edge child_job reply_id decision t)
      (fun _ s' => OnlyEdge edge.edge_id s s') s := by
  refine guarded_of_coherent fun hs => ?_
  have hunlinked := hs.open_unlinked hedge.mem hopen
  refine guarded_bind (guarded_update_edge (edgeUpdate_of hedge rfl ?_ rfl ?_ hreply.recorded ?_))
    fun updated s₁ _ _ h₁ => ?_
  · exact open_forward hopen (Or.inl rfl)
  · intro h
    rw [show edge.continuation_job_id = none from hunlinked] at h
    exact absurd h (by simp)
  · exact fun hstrict hsome => hreply.once hstrict hopen hsome
  obtain ⟨hupdated, hs₁, hstanding⟩ := h₁
  have honly : OnlyEdge edge.edge_id s s₁ := by
    rw [hs₁]
    exact onlyEdge_append rfl rfl
  rw [← hupdated] at hstanding
  have hid : updated.edge_id = edge.edge_id := by rw [hupdated]
  -- where the submission fails, the edges are as the update left them
  refine guarded_bind (R := fun submitted s' => OnlyEdge edge.edge_id s s' ∧
    ∀ job_id, submitted = Except.ok job_id → Standing s' updated ∧
      HasJob s' job_id updated.callback_target_agent)
    (guarded_tryCatch (K := fun kind => kind ≠ .edge) (J := fun x => x.edges = s₁.edges)
      ?_ ?_ rfl ?_ ?_) fun submitted s₂ hs₂ _ h₂ => ?_
  · exact touches_bind (touches_submit_continuation_job config env (by simp) (by simp) (by simp)
      (by simp) (by simp) (by simp) _ _ _ _) fun _ => touches_pure _
  · exact fun _ hkind _ _ ht x hx => (edges_of_touch hkind ht x).trans hx
  · refine guarded_bind (Guarded.keeps_edges (guarded_submit_continuation_job env hstanding.mem t
      rfl) ?_) fun job_id s' _ _ h => guarded_pure ⟨?_, fun j hj => ⟨?_, ?_⟩⟩
    · exact touches_submit_continuation_job config env (by simp) (by simp) (by simp)
        (by simp) (by simp) (by simp) _ _ _ _
    · exact honly.trans (onlyEdge_of_edges h.2)
    · exact hstanding.of_edges h.2
    · rw [← Except.ok.inj hj]
      exact h.1
  · intro failure s' _ hedges
    refine guarded_bind (guarded_fail_callback_edge env (hstanding.of_edges hedges) _ _ t)
      fun failed s'' _ _ h => guarded_pure ⟨?_, fun _ hok => by simp at hok⟩
    exact honly.trans ((onlyEdge_of_edges hedges).trans (hid ▸ h))
  · cases submitted with
    | error failed => exact guarded_pure h₂.1
    | ok job_id =>
      obtain ⟨hstanding₂, hjob₂⟩ := h₂.2 job_id rfl
      have hstate : updated.state = .child_completed := by rw [hupdated]
      have hnone : updated.continuation_job_id = none := by rw [hupdated]; exact hunlinked
      refine guarded_bind (guarded_update_edge ⟨hstanding₂, ⟨rfl, ?_, ?_, fun _ _ => rfl⟩,
        fun _ => rfl, ?_, ?_⟩) fun final s₃ _ _ h₃ => ?_
      · rw [hstate]
        rfl
      · rw [hnone]
        exact fun h => absurd h (by simp)
      · exact fun r hr => hs₂.edge_reply updated hstanding₂.mem r hr
      · intro _ j hj
        rw [← show job_id = j from Option.some.inj hj]
        exact hjob₂
      · refine guarded_bind (guarded_append_event rfl) fun _ s₄ _ _ h₄ => guarded_pure ?_
        refine h₂.1.trans ?_
        rw [h₄, h₃.2.1]
        exact onlyEdge_append rfl hid

theorem Coherent.edge_of_child_job (hs : Coherent s) (hedge : Standing s edge) {job_id : JobId}
    (hjob : ∃ a, HasAttempt s job_id edge.child_message_id a) :
    (((CallbackEdgeStore.latestEdges s.edges).find? fun r => r.child_job_id = job_id).getD edge) =
      edge := by
  cases hfind : (CallbackEdgeStore.latestEdges s.edges).find? fun r => r.child_job_id = job_id with
  | none => rfl
  | some latest =>
    have hlatest := standing_of_latestEdges (List.mem_of_find?_eq_some hfind)
    have hchild : latest.child_job_id = job_id := by simpa using List.find?_some hfind
    obtain ⟨a, hattempt⟩ := hjob
    have hsame := hs.hasAttempt_eq (hchild ▸ hs.edge_child latest hlatest.mem) hattempt
    exact hlatest.eq hedge (hs.edge_of_child latest hlatest.mem edge hedge.mem hsame.1)

theorem guarded_submit_callback_continuation (hedge : Standing s edge)
    {child_job : JobRecord} (hjob : ∃ a, HasAttempt s child_job.job_id edge.child_message_id a)
    (hreply : Answers terms s edge reply_id) (decision : Model.CompletionDecision) (t : Timestamp) :
    Guarded config terms
      (submit_callback_continuation config env edge child_job reply_id decision t)
      (fun _ s' => OnlyEdge edge.edge_id s s') s := by
  refine guarded_of_coherent fun hs => guarded_read_bind ?_
  dsimp only
  rw [hs.edge_of_child_job hedge hjob]
  split
  · exact guarded_pure (onlyEdge_of_edges rfl)
  · rename_i hopen
    have hopen' : edge.state.terminal = false := by simpa using hopen
    refine guarded_bind (guarded_existing_continuation_job edge) fun existing s₁ _ _ h₁ => ?_
    obtain ⟨hexisting, rfl⟩ := h₁
    cases existing with
    | none => exact guarded_submit_new_continuation env hedge hopen' child_job hreply decision t
    | some existing =>
      obtain ⟨hmem, hnames⟩ := hexisting existing rfl
      exact guarded_link_existing_continuation env hedge hopen' hmem hnames child_job hreply t

theorem guarded_queued_continuation_job (edge : CallbackEdgeRecord) :
    Guarded config terms (queued_continuation_job edge)
      (fun found s' => (∀ job, found = some job → job ∈ s.jobs ∧
        edge.continuation_job_id = some job.job_id) ∧ s' = s) s := by
  refine Guarded.same ?_ (touches_queued_continuation_job edge)
  unfold queued_continuation_job
  cases hlinked : edge.continuation_job_id with
  | none => exact guarded_pure (by simp)
  | some job_id =>
    refine guarded_read_bind ?_
    split
    · exact guarded_pure (by simp)
    · rename_i target _
      have hfound := found_get_latest (s := s) target job_id
      refine fun hs _ => ⟨.none, hs, Extends.refl s, fun job hjob => ?_⟩
      obtain ⟨hmem, hid⟩ := hfound job hjob
      exact ⟨hmem, by rw [hid]⟩

theorem guarded_repair_submitted_edge (hedge : edge ∈ s.edges)
    {existing : Option JobRecord} (hexisting : ∀ job, existing = some job → job ∈ s.jobs ∧
      job.request.route_options.chain_edge_id = some edge.edge_id) :
    Guarded config terms (repair_submitted_edge env edge existing)
      (fun _ s' => OnlyEdge edge.edge_id s s') s := by
  have hfound : Guarded config terms (submitted_continuation edge existing)
      (fun found s' => (∀ job, found = some job → job ∈ s.jobs ∧ TargetJob s edge job) ∧ s' = s)
      s := by
    unfold submitted_continuation
    cases hlinked : edge.continuation_job_id with
    | none =>
      refine guarded_pure ⟨fun job hjob => ?_, rfl⟩
      obtain ⟨hmem, hnames⟩ := hexisting job hjob
      exact ⟨hmem, targetJob_of_names hedge hmem hnames⟩
    | some job_id =>
      refine (guarded_queued_continuation_job edge).mono fun found s' _ _ h => ⟨?_, h.2⟩
      intro job hjob
      obtain ⟨hmem, hid⟩ := h.1 job hjob
      exact ⟨hmem, targetJob_of_continuation hedge hmem hid⟩
  refine guarded_bind hfound fun found s₁ _ _ h₁ => ?_
  obtain ⟨hfound, rfl⟩ := h₁
  cases found with
  | none => exact guarded_pure (onlyEdge_of_edges rfl)
  | some job =>
    obtain ⟨hmem, htarget⟩ := hfound job rfl
    exact guarded_bind (guarded_repair_pending_continuation_attempt env hedge hmem htarget)
      fun _ _ _ _ h => guarded_pure (onlyEdge_of_edges h)

theorem guarded_repair_linked_edge (hedge : Standing s edge)
    (hopen : edge.state.terminal = false) {existing : JobRecord} (hexisting : existing ∈ s.jobs)
    (hnames : existing.request.route_options.chain_edge_id = some edge.edge_id) :
    Guarded config terms (repair_linked_edge config env edge existing)
      (fun _ s' => OnlyEdge edge.edge_id s s') s := by
  refine guarded_of_coherent fun hs => ?_
  have hunlinked := hs.open_unlinked hedge.mem hopen
  refine guarded_bind (guarded_repair_pending_continuation_attempt env hedge.mem hexisting
    (targetJob_of_names hedge.mem hexisting hnames)) fun _ s₁ _ hext₁ hedges₁ => ?_
  have hedge₁ := hedge.of_edges hedges₁
  refine guarded_bind (guarded_latest_child_reply hedge₁.mem) fun reply s₂ _ _ h₂ => ?_
  obtain ⟨⟨hreply, hnamed⟩, rfl⟩ := h₂
  refine guarded_bind (guarded_job_for_reply fun r hr => (hreply r hr).1)
    fun reply_job s₃ hs₃ hext₃ h₃ => ?_
  have hedges₃ : s₃.edges = s.edges := by rw [h₃.2.rest, hedges₁]
  have hedge₃ := hedge.of_edges hedges₃
  refine Guarded.mono (guarded_append_edge (x := edge) ⟨hedge₃, ⟨rfl, ?_, ?_, ?_⟩, fun _ => rfl,
    ?_, ?_⟩) fun _ s₄ _ _ h₄ => ?_
  · exact open_forward hopen (Or.inr (Or.inl rfl))
  · rw [hunlinked]
    exact fun h => absurd h (by simp)
  · intro _ hsome
    obtain ⟨r, hr⟩ := Option.isSome_iff_exists.mp hsome
    dsimp only
    rw [hr]
    rfl
  · intro r hr
    dsimp only at hr
    cases hgiven : edge.child_reply_id with
    | some i =>
      rw [hgiven] at hr
      rw [← show i = r from Option.some.inj hr]
      exact hs₃.edge_reply edge hedge₃.mem i hgiven
    | none =>
      rw [hgiven] at hr
      obtain ⟨found, hfound, rfl⟩ := Option.map_eq_some_iff.mp
        (show reply.map (fun reply => reply.reply_id) = some r from hr)
      obtain ⟨hmem, hmessage⟩ := hreply found hfound
      exact ⟨found, hext₃.replies hmem, rfl, hmessage⟩
  · intro hlineal j hj
    have hmem := hext₃.jobs (hext₁.jobs hexisting)
    rw [← show existing.job_id = j from Option.some.inj hj]
    exact ⟨existing, hmem, rfl, (hlineal.job existing hmem _ hnames edge hedge₃.mem rfl).symm⟩
  · refine (onlyEdge_of_edges hedges₃).trans ?_
    rw [h₄.1]
    exact onlyEdge_append rfl rfl

theorem guarded_replied_child_job (hedge : edge ∈ s.edges) {reply_job : Option JobRecord}
    (hreply : ∀ job, reply_job = some job → ∃ a, HasAttempt s job.job_id edge.child_message_id a) :
    Guarded config terms (replied_child_job config edge reply_job)
      (fun found s' => (∀ job, found = some job →
        ∃ a, HasAttempt s' job.job_id edge.child_message_id a) ∧ Looked s s') s := by
  unfold replied_child_job
  cases reply_job with
  | some job => exact guarded_pure ⟨fun job' hjob => hreply job' hjob, Looked.refl s⟩
  | none =>
    refine guarded_of_coherent fun hs => ?_
    refine (guarded_get_job edge.child_job_id).mono fun found s' _ hext h => ⟨?_, h.2⟩
    intro job hjob
    rw [(h.1 job hjob).2]
    exact ⟨edge.child_agent, (hs.edge_child edge hedge).extends hext⟩

theorem guarded_repair_replied_edge (hedge : Standing s edge) :
    Guarded config terms (repair_replied_edge config env edge)
      (fun _ s' => OnlyEdge edge.edge_id s s') s := by
  unfold repair_replied_edge
  refine guarded_bind (guarded_latest_child_reply hedge.mem) fun reply s₁ _ _ h₁ => ?_
  obtain ⟨⟨hreply, hnamed⟩, rfl⟩ := h₁
  refine guarded_bind (guarded_job_for_reply fun r hr => (hreply r hr).1)
    fun reply_job s₂ _ hext₂ h₂ => ?_
  have hedges₂ : s₂.edges = s₁.edges := by rw [h₂.2.rest]
  have hedge₂ := hedge.of_edges hedges₂
  refine guarded_bind (guarded_replied_child_job hedge₂.mem ?_) fun child_job s₃ _ hext₃ h₃ => ?_
  · intro job hjob
    obtain ⟨r, hr, a, hattempt⟩ := h₂.1 job hjob
    rw [← (hreply r hr).2]
    exact ⟨a, hattempt⟩
  have hedges₃ : s₃.edges = s₁.edges := by rw [h₃.2.rest, hedges₂]
  have hedge₃ := hedge.of_edges hedges₃
  split
  · rename_i reply child_job
    split
    · exact guarded_pure (onlyEdge_of_edges hedges₃)
    · rename_i decision _
      refine guarded_bind (guarded_submit_callback_continuation env hedge₃ (h₃.1 child_job rfl)
        ⟨fun r hr => ?_, fun _ _ hsome => ?_⟩ decision edge.updated_at)
        fun _ _ _ _ h => guarded_pure ((onlyEdge_of_edges hedges₃).trans h)
      · obtain ⟨hmem, hmessage⟩ := hreply reply rfl
        rw [← Option.some.inj hr]
        exact ⟨reply, hext₃.replies (hext₂.replies hmem), rfl, hmessage⟩
      · obtain ⟨i, hi⟩ := Option.isSome_iff_exists.mp hsome
        rw [hi]
        exact hnamed i hi
  · exact guarded_pure (onlyEdge_of_edges hedges₃)

theorem guarded_repair_edge (hedge : Standing s edge)
    (candidates : List EdgeId) {existing : List (EdgeId × JobRecord)}
    (hexisting : ∀ x ∈ existing, x.2 ∈ s.jobs ∧
      x.2.request.route_options.chain_edge_id = some x.1) :
    Guarded config terms (repair_edge config env candidates existing edge)
      (fun _ s' => OnlyEdge edge.edge_id s s') s := by
  have hfound : ∀ job, continuationOf existing edge.edge_id = some job → job ∈ s.jobs ∧
      job.request.route_options.chain_edge_id = some edge.edge_id :=
    fun job hjob => hexisting _ (mem_of_continuationOf hjob)
  unfold repair_edge
  dsimp only
  split
  · exact guarded_pure (onlyEdge_of_edges rfl)
  · rename_i hclosed
    split
    · exact guarded_repair_submitted_edge env hedge.mem hfound
    · rename_i hsubmitted
      have hopen : edge.state.terminal = false := by
        cases hstate : edge.state <;>
          simp_all [CallbackEdgeState.closed, CallbackEdgeState.terminal]
      split
      · exact guarded_pure (onlyEdge_of_edges rfl)
      · split
        · rename_i job hjob
          obtain ⟨hmem, hnames⟩ := hfound job hjob
          exact guarded_repair_linked_edge env hedge hopen hmem hnames
        · exact guarded_repair_replied_edge env hedge

theorem guarded_repair_edges {edges : List CallbackEdgeRecord} (candidates : List EdgeId)
    {existing : List (EdgeId × JobRecord)}
    (hexisting : ∀ x ∈ existing, x.2 ∈ s.jobs ∧ x.2.request.route_options.chain_edge_id = some x.1)
    (hnodup : (edges.map fun e => e.edge_id).Nodup) (hstanding : ∀ e ∈ edges, Standing s e) :
    Guarded config terms (Prog.forEach edges (repair_edge config env candidates existing))
      (fun _ _ => True) s := by
  induction edges generalizing s with
  | nil => exact guarded_pure trivial
  | cons edge edges ih =>
    rw [List.map_cons, List.nodup_cons] at hnodup
    refine guarded_bind (guarded_repair_edge env (hstanding edge List.mem_cons_self) candidates
      hexisting) fun _ s' _ hext h => ?_
    refine ih (fun x hx => ⟨hext.jobs (hexisting x hx).1, (hexisting x hx).2⟩) hnodup.2
      fun e he => ?_
    refine (hstanding e (List.mem_cons_of_mem edge he)).only h fun hid => ?_
    exact hnodup.1 (hid ▸ List.mem_map_of_mem he)

theorem guarded_repair_callback_edges :
    Guarded config terms (repair_callback_edges config env) (fun _ _ => True) s := by
  refine guarded_withLock (guarded_read_bind (guarded_read_bind ?_))
  refine guarded_bind (guarded_existing_by_edge _) fun existing s₁ _ _ h₁ => ?_
  obtain ⟨hexisting, rfl⟩ := h₁
  refine guarded_repair_edges env _ hexisting ?_ fun e he => standing_of_latestEdges he
  exact collapse_nodup (fun r : CallbackEdgeRecord => r.edge_id) s₁.edges

end Continuing

end ClaudeCodeBridge.Analysis
