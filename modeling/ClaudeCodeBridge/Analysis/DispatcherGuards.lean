import ClaudeCodeBridge.Analysis.DispatcherCourse

/-!
# Every access of the dispatcher is a change

The functions of the dispatcher are gone through once more, now with the values they read:
from a coherent store on, every access of every operation is one of `Change`
(`guarded_exec`).
-/

set_option autoImplicit false

namespace ClaudeCodeBridge.Analysis

open Program Model

variable {α β : Type}

section Jobs

variable {config : DispatcherConfig} {terms : Terms} {s : DispatcherStore}

theorem Guarded.looked {p : DispatcherM α} {Q : α → DispatcherStore → Prop}
    (h : Guarded config terms p Q s) (hp : Touches (fun kind => kind = .remember) p) :
    Guarded config terms p (fun a s' => Q a s' ∧ Looked s s') s := by
  refine h.leaves hp ?_ (Looked.refl s)
  rintro kind rfl l f htouch x hx
  cases htouch with
  | remember j a =>
    exact hx.trans ⟨rfl, DispatcherState.ensure_queue_active_jobs x.state a⟩

def Found (s : DispatcherStore) (job_id : JobId) (found : Option JobRecord) : Prop :=
  ∀ job, found = some job → job ∈ s.jobs ∧ job.job_id = job_id

theorem found_get_latest (agent_name : AgentName) (j : JobId) :
    Found s j (latest? (fun r => r.job_id) j (Model.list_agent s.jobs agent_name)) := by
  intro job hjob
  obtain ⟨hmem, hid⟩ := mem_of_latest? hjob
  exact ⟨(List.mem_filter.mp hmem).1, hid⟩

theorem active_of_eq {st st' : DispatcherState} (h : st'.active_jobs = st.active_jobs)
    (agent_name : AgentName) : st'.active_job_for agent_name = st.active_job_for agent_name :=
  congrArg (fun d : Dict AgentName JobId => d.get agent_name) h

theorem guarded_updateState {f : DispatcherState → DispatcherState}
    (h : ∀ agent_name job_id, (f s.state).active_job_for agent_name = some job_id →
      s.state.active_job_for agent_name = some job_id ∨ HasJob s job_id agent_name) :
    Guarded config terms (updateState f) (fun _ s' => s' = { s with state := f s.state }) s :=
  guarded_write fun _ _ => ⟨.state f h, rfl⟩

theorem guarded_remember (j : JobId) (a : AgentName) :
    Guarded config terms (updateState fun s => s.remember_job j a)
      (fun _ s' => s' = { s with state := s.state.remember_job j a }) s := by
  refine guarded_updateState fun agent_name job_id hactive => Or.inl ?_
  rw [← hactive]
  exact (active_of_eq (DispatcherState.ensure_queue_active_jobs s.state a) agent_name).symm

theorem Coherent.latest_job (hs : Coherent s) {agent_name : AgentName} {j : JobId} {job : JobRecord}
    (h : latest? (fun r => r.job_id) j (Model.list_agent s.jobs agent_name) = some job) :
    latest? (fun r => r.job_id) j s.jobs = some job := by
  obtain ⟨hmem, hid⟩ := found_get_latest agent_name j job h
  have hagent : job.agent_name = agent_name := by
    simpa using (List.mem_filter.mp (mem_of_latest? h).1).2
  rw [← h]
  refine (latest?_filter (fun r : JobRecord => r.job_id) fun r hr hrid => ?_).symm
  rw [hs.job_agent r hr job hmem (hrid.trans hid.symm), hagent]
  exact decide_eq_true rfl

theorem guarded_find_job (j : JobId) (agents : List AgentName) :
    Guarded config terms (find_job j agents)
      (fun found s' => ∀ job, found = some job →
        latest? (fun r => r.job_id) j s'.jobs = some job) s := by
  induction agents with
  | nil => exact guarded_pure (by simp)
  | cons candidate agents ih =>
    unfold find_job
    refine guarded_of_coherent fun hs => guarded_read_bind ?_
    cases hlatest : latest? (fun r : JobRecord => r.job_id) j
        (Model.list_agent s.jobs candidate) with
    | none => exact ih
    | some record =>
      refine guarded_bind (guarded_remember j candidate) fun _ s' _ _ h => guarded_pure ?_
      intro job hjob
      rw [← Option.some.inj hjob, h]
      exact hs.latest_job hlatest

theorem guarded_get_latest_job (j : JobId) :
    Guarded config terms (get_job config j)
      (fun found s' => (∀ job, found = some job →
        latest? (fun r => r.job_id) j s'.jobs = some job) ∧ Looked s s') s := by
  refine Guarded.looked ?_ (touches_get_job (K := fun kind => kind = .remember) config rfl j)
  refine guarded_of_coherent fun hs => guarded_read_bind ?_
  split
  · exact guarded_read_bind (guarded_pure fun job hjob => hs.latest_job hjob)
  · exact guarded_find_job j _

theorem guarded_get_job (j : JobId) :
    Guarded config terms (get_job config j) (fun found s' => Found s' j found ∧ Looked s s') s :=
  (guarded_get_latest_job j).mono fun _ _ _ _ h =>
    ⟨fun job hjob => mem_of_latest? (h.1 job hjob), h.2⟩

variable {r : JobRecord}

theorem guarded_append_event {type : JobEventType} {t : Timestamp} (h : requeues type = false) :
    Guarded config terms (append_event r type t)
      (fun _ s' => s' = { s with events := s.events ++ [⟨r.job_id, r.agent_name, type, t⟩] }) s :=
  guarded_write fun _ _ => ⟨.event _ h, rfl⟩

structure Enqueued (s s' : DispatcherStore) (job : JobRecord) : Prop where
  jobs : s'.jobs = s.jobs ++ [job]
  edges : s'.edges = s.edges
  bureau : s'.bureau = s.bureau
  active : s'.state.active_jobs = s.state.active_jobs

theorem guarded_append_known_job (h : KnownJob s r) (hopen : AttemptsFollow s r) :
    Guarded config terms (append_job r) (fun _ s' => Enqueued s s' r) s := by
  refine guarded_bind (guarded_write (Q := fun _ s' => s' = { s with jobs := s.jobs ++ [r] })
    fun _ _ => ⟨.job_again r h hopen, rfl⟩) fun _ s₁ _ _ hs₁ => ?_
  refine (guarded_remember r.job_id r.agent_name).mono fun _ s' _ _ hs' => ?_
  subst hs₁ hs'
  exact ⟨rfl, rfl, rfl, DispatcherState.ensure_queue_active_jobs s.state r.agent_name⟩

theorem guarded_append_ended_job (h : KnownJob s r) (hended : r.status.terminal) :
    Guarded config terms (append_job r) (fun _ s' => Enqueued s s' r ∧ StandingJob s' r) s :=
  (guarded_append_known_job h fun _ _ _ _ => hended).mono fun _ s' _ _ h' =>
    ⟨h', by rw [StandingJob, h'.jobs, latest?_append, if_pos rfl]⟩

structure NewJob (terms : Terms) (s : DispatcherStore) (job : JobRecord) : Prop where
  below : job.job_id < s.bureau.next_id
  fresh : ∀ x ∈ s.jobs, x.job_id ≠ job.job_id
  named : ∀ i, job.request.route_options.chain_edge_id = some i → i < s.bureau.next_id
  target : terms.lineal → Lineal s → ∀ i, job.request.route_options.chain_edge_id = some i →
    NamesTarget s job.agent_name i

theorem guarded_append_new_job {job : JobRecord} (hjob : NewJob terms s job) :
    Guarded config terms (append_job job) (fun _ s' => Enqueued s s' job) s := by
  refine guarded_bind (guarded_write (Q := fun _ s' => s' = { s with jobs := s.jobs ++ [job] })
    fun _ _ => ⟨.job_new job hjob.below hjob.fresh hjob.named hjob.target, rfl⟩)
    fun _ s₁ _ _ hs₁ => ?_
  refine (guarded_remember job.job_id job.agent_name).mono fun _ s' _ _ hs' => ?_
  subst hs₁ hs'
  exact ⟨rfl, rfl, rfl, DispatcherState.ensure_queue_active_jobs s.state job.agent_name⟩

theorem guarded_enqueue_submitted_job {job : JobRecord} (t : Timestamp)
    (hjob : NewJob terms s job) :
    Guarded config terms (Callbacks.enqueue_submitted_job job t)
      (fun _ s' => Enqueued s s' job) s := by
  refine guarded_bind (guarded_append_new_job hjob) fun _ s₁ _ _ h₁ => ?_
  refine guarded_bind (guarded_append_event (requeues_acceptance_event _)) fun _ s₂ _ _ hs₂ => ?_
  refine (guarded_updateState fun _ _ => Or.inl).mono fun _ s' _ _ hs' => ?_
  subst hs₂ hs'
  exact ⟨h₁.jobs, h₁.edges, h₁.bureau, h₁.active⟩

theorem Unused.looked {s' : DispatcherStore} {i : ℕ} (h : Unused s i) (hlooked : Looked s s') :
    Unused s' i := by
  rw [hlooked.rest]
  exact ⟨h.below, h.job, h.attempt, h.message, h.reply, h.event, h.edge, h.named⟩

/-- What submitted drafts leave: their jobs, in the queues. -/
structure Drafted (s s' : DispatcherStore) (jobs : List JobRecord) : Prop where
  records : s'.jobs = s.jobs ++ jobs
  edges : s'.edges = s.edges
  attempts : s'.bureau.attempts = s.bureau.attempts
  active : s'.state.active_jobs = s.state.active_jobs
  above : ∀ job ∈ jobs, s.bureau.next_id ≤ job.job_id
  nodup : (jobs.map fun job => job.job_id).Nodup

/-- The request names no edge, or it is resubmitted. -/
def Unlinked (terms : Terms) (s : DispatcherStore) (request : MessageEnvelope) : Prop :=
  ∀ i, request.route_options.chain_edge_id = some i → i < s.bureau.next_id ∧ ¬terms.lineal

theorem Unlinked.mono {s' : DispatcherStore} {request request' : MessageEnvelope}
    (h : Unlinked terms s request) (hid : s.bureau.next_id ≤ s'.bureau.next_id)
    (heq : request'.route_options.chain_edge_id = request.route_options.chain_edge_id) :
    Unlinked terms s' request' := by
  intro i hi
  obtain ⟨hbelow, hterms⟩ := h i (heq ▸ hi)
  exact ⟨hbelow.trans_le hid, hterms⟩

theorem unlinked_of_none {request : MessageEnvelope}
    (h : request.route_options.chain_edge_id = none) : Unlinked terms s request := by
  intro i hi
  rw [h] at hi
  exact absurd hi.symm (Option.some_ne_none i)

theorem Unlinked.new_job {job : JobRecord} (h : Unlinked terms s job.request)
    (hid : Unused s job.job_id) : NewJob terms s job :=
  ⟨hid.below, hid.job, fun i hi => (h i hi).1, fun hterms _ i hi => absurd hterms (h i hi).2⟩

open Submission

theorem guarded_submit_draft (submission_id : Option SubmissionId) (t : Timestamp)
    {draft : JobDraft} (hdraft : Unlinked terms s draft.request) :
    Guarded config terms (submit_draft submission_id t draft)
      (fun job s' => Drafted s s' [job] ∧ job.agent_name = draft.agent_name) s := by
  refine guarded_bind guarded_new_id fun i s₁ _ _ hi => ?_
  obtain ⟨hid, hunused, hs₁⟩ := hi
  refine guarded_bind (guarded_look (touches_pending_status _)) fun status s₂ _ hext₂ hs₂ => ?_
  have hjobs : s₂.jobs = s₁.jobs := by rw [hs₂.rest]
  have hnext : s₂.bureau = s₁.bureau := by rw [hs₂.rest]
  have hnew : Unlinked terms s₂ draft.request := by
    refine hdraft.mono ?_ rfl
    rw [hnext, hs₁]
    exact Nat.le_succ _
  refine guarded_bind (guarded_enqueue_submitted_job t (hnew.new_job (hunused.looked hs₂)))
    fun _ s₃ _ _ h₃ => guarded_pure ⟨?_, rfl⟩
  refine ⟨?_, ?_, ?_, ?_, ?_, ?_⟩
  · rw [h₃.jobs, hjobs, hs₁]
  · rw [h₃.edges, hs₂.rest, hs₁]
  · rw [h₃.bureau, hnext, hs₁]
  · rw [h₃.active, hs₂.active, hs₁]
  · intro job hjob
    rw [List.mem_singleton.mp hjob]
    exact hid.ge
  · exact List.nodup_singleton _

theorem guarded_submit_drafts (submission_id : Option SubmissionId) (t : Timestamp)
    {drafts : List JobDraft} (hdrafts : ∀ draft ∈ drafts, Unlinked terms s draft.request) :
    Guarded config terms (submit_drafts submission_id t drafts)
      (fun jobs s' => Drafted s s' jobs ∧
        jobs.map (fun job => job.agent_name) = drafts.map fun draft => draft.agent_name) s := by
  induction drafts generalizing s with
  | nil =>
    refine guarded_pure ⟨⟨by simp, rfl, rfl, rfl, by simp, by simp⟩, rfl⟩
  | cons draft drafts ih =>
    refine guarded_bind (guarded_submit_draft submission_id t (hdrafts draft List.mem_cons_self))
      fun job s₁ hs₁ hext₁ h₁ => ?_
    obtain ⟨h₁, hagent⟩ := h₁
    have hrest : ∀ d ∈ drafts, Unlinked terms s₁ d.request := fun d hd =>
      (hdrafts d (List.mem_cons_of_mem draft hd)).mono hext₁.next_id rfl
    refine guarded_bind (ih hrest) fun jobs s₂ _ _ h₂ => guarded_pure ?_
    obtain ⟨h₂, hagents⟩ := h₂
    have hbelow : job.job_id < s₁.bureau.next_id :=
      hs₁.job_below job (h₁.records ▸ List.mem_append_right _ List.mem_cons_self)
    refine ⟨⟨?_, h₂.edges.trans h₁.edges, h₂.attempts.trans h₁.attempts,
      h₂.active.trans h₁.active, ?_, ?_⟩, ?_⟩
    · rw [h₂.records, h₁.records, List.append_assoc, List.singleton_append]
    · intro x hx
      rcases List.mem_cons.mp hx with rfl | hx
      · exact h₁.above x List.mem_cons_self
      · exact hext₁.next_id.trans (h₂.above x hx)
    · rw [List.map_cons, List.nodup_cons]
      refine ⟨fun hmem => ?_, h₂.nodup⟩
      obtain ⟨x, hx, hid⟩ := List.mem_map.mp hmem
      exact absurd hid (Nat.lt_of_lt_of_le hbelow (h₂.above x hx)).ne'
    · rw [List.map_cons, List.map_cons, hagent, hagents]

end Jobs

section Registration

open Callbacks

variable {config : DispatcherConfig} {terms : Terms} {s : DispatcherStore}
  (env : DispatcherEnvironment)

theorem Guarded.same {p : DispatcherM α} {Q : α → DispatcherStore → Prop}
    (h : Guarded config terms p Q s) (hp : Touches (fun _ => False) p) :
    Guarded config terms p (fun a s' => Q a s' ∧ s' = s) s :=
  h.leaves (J := fun x => x = s) hp (fun _ hkind => hkind.elim) rfl

theorem guarded_same {p : DispatcherM α} (hp : Touches (fun _ => False) p) :
    Guarded config terms p (fun _ s' => s' = s) s :=
  ((guarded_free hp fun _ hkind => hkind.elim).same hp).mono fun _ _ _ _ h => h.2

theorem guarded_rejectIf_bind {condition : Bool} {text : String} {f : Unit → DispatcherM α}
    {Q : α → DispatcherStore → Prop} (h : condition = false → Guarded config terms (f ()) Q s) :
    Guarded config terms (rejectIf condition text >>= f) Q s := by
  unfold rejectIf
  cases condition with
  | true => exact guarded_raise
  | false => exact h rfl

theorem guarded_rejectIf (condition : Bool) (text : String) :
    Guarded config terms (rejectIf condition text) (fun _ s' => condition = false ∧ s' = s) s := by
  unfold rejectIf
  cases condition with
  | true => exact guarded_raise
  | false => exact guarded_pure ⟨rfl, rfl⟩

theorem guarded_active_parent_job (actor : Actor) :
    Guarded config terms (active_parent_job config actor)
      (fun parent s' => Looked s s' ∧ ∀ job, parent = some job → job ∈ s'.jobs ∧
        ∃ name, actor = .agent name ∧ s.state.active_job_for name = some job.job_id) s := by
  unfold active_parent_job
  split
  · rename_i name
    split
    · exact guarded_pure ⟨Looked.refl s, by simp⟩
    · refine guarded_read_bind ?_
      dsimp only
      cases hactive : s.state.active_job_for name with
      | none => exact guarded_pure ⟨Looked.refl s, by simp⟩
      | some parent_job_id =>
        refine guarded_bind (guarded_get_job parent_job_id) fun found s₁ _ _ h₁ =>
          guarded_pure ⟨h₁.2, fun job hjob => ?_⟩
        obtain ⟨hfound, _⟩ := Option.filter_eq_some_iff.mp hjob
        obtain ⟨hmem, hid⟩ := h₁.1 job hfound
        exact ⟨hmem, name, rfl, by rw [hid]; exact hactive⟩
  · exact guarded_pure ⟨Looked.refl s, by simp⟩

theorem guarded_message_for_job (job : JobRecord) :
    Guarded config terms (message_for_job job)
      (fun message s' => s' = s ∧ ∀ m, message = some m →
        ∃ a, HasAttempt s job.job_id m.message_id a) s := by
  refine guarded_onBureau_read_bind ?_
  cases hlatest : latest? (fun r : AttemptRecord => r.job_id) job.job_id s.bureau.attempts with
  | none => exact guarded_pure ⟨rfl, by simp⟩
  | some attempt =>
    obtain ⟨hmem, hjob⟩ := mem_of_latest? hlatest
    refine guarded_onBureau_read_bind (l := .find_message)
      (g := fun b : BureauStore => latest? (fun r : MessageRecord => r.message_id)
        attempt.message_id b.messages)
      (f := fun message => pure message) (guarded_pure ⟨rfl, fun m hm => ?_⟩)
    obtain ⟨_, hid⟩ := mem_of_latest? hm
    exact ⟨attempt.agent_name, attempt, hmem, hjob, hid.symm, rfl⟩

/-- The chain that an edge from the job to the child would extend: there is room in it and
the child's agent is not at work in it, and the job has no edge. -/
structure ChainOpen (config : DispatcherConfig) (s : DispatcherStore) (parent_job_id : JobId)
    (parent_agent : AgentName) (child_agent : Option AgentName) : Prop where
  unlinked : ∀ e ∈ s.edges, e.parent_job_id ≠ parent_job_id
  room : ∃ m, HasAttempt s parent_job_id m parent_agent ∧
    (callback_chain_for_parent s.edges m).length + 1 ≤ max_callback_depth config ∧
    ∀ target, child_agent = some target → target ∉ parent_agent ::
      (callback_chain_for_parent s.edges m).map (fun x => x.parent_agent)
        ++ (callback_chain_for_parent s.edges m).map fun x => x.child_agent

theorem guarded_validate_callback_chain {parent : JobRecord} (hparent : parent ∈ s.jobs)
    (hunlinked : ∀ e ∈ s.edges, e.parent_job_id ≠ parent.job_id) (child_agent : Option AgentName) :
    Guarded config terms (validate_callback_chain config parent child_agent)
      (fun _ s' => s' = s ∧ ChainOpen config s parent.job_id parent.agent_name child_agent) s := by
  refine guarded_bind (guarded_message_for_job parent) fun message s₁ hs₁ _ h₁ => ?_
  obtain ⟨rfl, hmessage⟩ := h₁
  cases message with
  | none => exact guarded_raise
  | some message =>
    obtain ⟨a, hattempt⟩ := hmessage message rfl
    refine guarded_read_bind ?_
    refine guarded_rejectIf_bind fun hdepth => ?_
    refine (guarded_rejectIf _ _).mono fun _ s₂ _ _ h₂ => ⟨h₂.2, hunlinked,
      message.message_id, ?_, ?_, ?_⟩
    · obtain ⟨x, hx, hjob, hmsg, _⟩ := hattempt
      refine ⟨x, hx, hjob, hmsg, ?_⟩
      obtain ⟨r, hr, hrj, hra⟩ := hs₁.attempt_job x hx
      rw [← hra]
      exact hs₁.job_agent r hr parent hparent (hrj.trans hjob)
    · simpa using hdepth
    · intro target htarget
      have hcycle := h₂.1
      rw [htarget] at hcycle
      simpa using hcycle

/-- The validation leaves the parties and the route of a request alone. -/
structure Rebound (request bound : MessageEnvelope) : Prop where
  scope : bound.delivery_scope = request.delivery_scope
  sender : bound.from_actor = request.from_actor
  target : bound.to_agent = request.to_agent
  route : request_callback_route bound = request_callback_route request
  edge : bound.route_options.chain_edge_id = request.route_options.chain_edge_id

theorem rebound_rfl (request : MessageEnvelope) : Rebound request request :=
  ⟨rfl, rfl, rfl, rfl, rfl⟩

theorem rebound_bound_request (request : MessageEnvelope) (parent : JobRecord) :
    Rebound request (bound_request request parent) := by
  unfold bound_request
  split
  · exact ⟨rfl, rfl, rfl, rfl, rfl⟩
  · exact rebound_rfl request

theorem guarded_validate_chain_parent (request : MessageEnvelope) {parent : JobRecord}
    (hparent : parent ∈ s.jobs) :
    Guarded config terms (validate_chain_parent config env request parent)
      (fun bound s' => s' = s ∧ Rebound request bound ∧
        ChainOpen config s parent.job_id parent.agent_name request.to_agent) s := by
  refine guarded_bind (guarded_message_for_job parent) fun message s₁ _ _ h₁ => ?_
  obtain ⟨rfl, _⟩ := h₁
  refine guarded_rejectIf_bind fun _ => ?_
  refine guarded_bind (guarded_same (touches_validate_continuation_target parent _))
    fun _ s₂ _ _ hs₂ => ?_
  subst hs₂
  refine guarded_rejectIf_bind fun _ => ?_
  refine guarded_bind (guarded_same (touches_bind_callback_workspace_tree env parent))
    fun _ s₃ hs₃ _ heq => ?_
  subst heq
  refine guarded_read_bind ?_
  refine guarded_rejectIf_bind fun hnone => ?_
  refine guarded_bind (guarded_validate_callback_chain hparent ?_ request.to_agent)
    fun _ s₄ _ _ h₄ => guarded_pure ⟨h₄.1, rebound_bound_request request parent, h₄.2⟩
  intro e he hid
  obtain ⟨x, hx, hlinks⟩ := hs₃.exists_latest he
  simp only [edgeLinks, EdgeLinks.mk.injEq] at hlinks
  rw [Option.isSome_eq_false_iff, Option.isNone_iff_eq_none, List.find?_eq_none] at hnone
  exact hnone x hx (by simpa using hlinks.2.1.trans hid)

theorem guarded_validate_callback_request (request : MessageEnvelope) :
    Guarded config terms (validate_callback_request config env request)
      (fun bound s' => Looked s s' ∧ Rebound request bound ∧ (request_callback_route request = true →
        request.delivery_scope = .single ∧ ∃ name parent_job_id,
          request.from_actor = .agent name ∧
          s.state.active_job_for name = some parent_job_id ∧
          ChainOpen config s parent_job_id name request.to_agent)) s := by
  unfold validate_callback_request
  refine guarded_bind (guarded_active_parent_job request.from_actor)
    fun parent s₁ hs₁ _ h₁ => ?_
  obtain ⟨hlooked, hparent⟩ := h₁
  split
  · rename_i hroute
    refine guarded_rejectIf_bind fun _ => ?_
    refine guarded_bind (guarded_look (touches_validate_nested_ask_request
      (K := fun kind => kind = .remember) config rfl request)) fun _ s₂ _ _ h₂ => guarded_pure ?_
    refine ⟨hlooked.trans h₂, rebound_rfl request, fun h => ?_⟩
    rw [h] at hroute
    simp at hroute
  · refine guarded_rejectIf_bind fun hscope => ?_
    cases parent with
    | none => exact guarded_raise
    | some parent =>
      obtain ⟨hmem, name, hfrom, hactive⟩ := hparent parent rfl
      refine (guarded_validate_chain_parent env request hmem).mono fun _ s₂ _ _ h₂ => ?_
      obtain ⟨rfl, hbound, hopen⟩ := h₂
      refine ⟨hlooked, hbound, fun _ => ⟨by simpa using hscope, name, parent.job_id, hfrom, hactive, ?_⟩⟩
      have hagent : parent.agent_name = name := by
        have hactive' : s₂.state.active_job_for name = some parent.job_id := by
          rw [active_of_eq hlooked.active]
          exact hactive
        exact hs₁.hasJob_agent ⟨parent, hmem, rfl, rfl⟩ (hs₁.active name _ hactive')
      rw [hagent] at hopen
      have hedges : s₂.edges = s.edges := by rw [hlooked.rest]
      have hattempts : s₂.bureau.attempts = s.bureau.attempts := by rw [hlooked.rest]
      obtain ⟨hunlinked, m, hattempt, hroom⟩ := hopen
      rw [hedges] at hunlinked hroom
      unfold HasAttempt at hattempt
      rw [hattempts] at hattempt
      exact ⟨hunlinked, m, hattempt, hroom⟩

/-- What a submission has recorded when it registers its edge. -/
structure Submitted (s : DispatcherStore) (request : MessageEnvelope) (jobs : List JobRecord)
    (m : MessageId) : Prop where
  attempts : ∀ job ∈ jobs, HasAttempt s job.job_id m job.agent_name
  only : ∀ a ∈ s.bureau.attempts, a.message_id = m → ∃ job ∈ jobs, job.job_id = a.job_id
  edges : ∀ e ∈ s.edges, e.child_message_id ≠ m ∧ e.parent_message_id ≠ m
  /-- The jobs at work are older than the message. -/
  older : ∀ name j, s.state.active_job_for name = some j → ∀ n a, HasAttempt s j n a → n < m
  target : request.delivery_scope = .single → ∀ job ∈ jobs, request.to_agent = some job.agent_name

theorem guarded_register_callback_edge (request : MessageEnvelope) {jobs : List JobRecord}
    {m : MessageId} (t : Timestamp) (h : Submitted s request jobs m) :
    Guarded config terms (register_callback_edge config env request jobs m t)
      (fun _ _ => True) s := by
  refine guarded_bind (guarded_validate_callback_request env request) fun bound s₁ _ _ h₁ => ?_
  obtain ⟨hlooked, hbound, hvalid⟩ := h₁
  split
  · exact guarded_pure trivial
  · rename_i hroute
    rw [hbound.route] at hroute
    obtain ⟨hscope, name, parent_job_id, hfrom, hactive, hopen⟩ := hvalid (by simpa using hroute)
    split
    · rename_i child
      refine guarded_bind (guarded_active_parent_job bound.from_actor) fun parent s₂ _ _ h₂ => ?_
      obtain ⟨hlooked₂, hparent⟩ := h₂
      cases parent with
      | none => exact guarded_raise
      | some parent =>
        obtain ⟨hmem, name', hfrom', hactive'⟩ := hparent parent rfl
        have hname : name' = name := Actor.agent.inj (hfrom'.symm.trans (hbound.sender.trans hfrom))
        rw [hname, active_of_eq hlooked.active, hactive, Option.some.injEq] at hactive'
        subst hactive'
        refine guarded_bind (guarded_message_for_job parent) fun message s₃ hs₃ _ h₃ => ?_
        obtain ⟨rfl, hmessage⟩ := h₃
        cases message with
        | none => exact guarded_raise
        | some message =>
          obtain ⟨a, hattempt⟩ := hmessage message rfl
          refine guarded_bind guarded_new_id fun edge_id s₄ hs₄ _ hid => ?_
          obtain ⟨_, hunused, hs₄eq⟩ := hid
          have hedges : s₄.edges = s.edges := by
            rw [hs₄eq, (hlooked.trans hlooked₂).rest]
          have hattempts : s₄.bureau.attempts = s.bureau.attempts := by
            rw [hs₄eq, (hlooked.trans hlooked₂).rest]
          have hfind : ∀ j n b, HasAttempt s₄ j n b ↔ HasAttempt s j n b := by
            intro j n b
            rw [HasAttempt, hattempts, HasAttempt]
          have hattempt₄ : HasAttempt s₄ parent.job_id message.message_id a := by
            rw [hs₄eq]
            exact hattempt
          obtain ⟨hunlinked, n, hroom, hdepth, hcycle⟩ := hopen
          have hroom₄ := (hfind _ _ _).mpr hroom
          have hsame := hs₄.hasAttempt_eq hattempt₄ hroom₄
          have hagent : parent.agent_name = name := by
            have hjob : HasJob s₄ parent.job_id parent.agent_name :=
              ⟨parent, by rw [hs₄eq]; exact hmem, rfl, rfl⟩
            obtain ⟨x, hx, hxj, _, hxa⟩ := hroom₄
            refine hs₄.hasJob_agent hjob ?_
            rw [← hxj, ← hxa]
            exact hs₄.attempt_job x hx
          have hnew : NewEdge config s₄
              (new_edge edge_id bound parent child message.message_id m t) := by
            refine ⟨hunused.below, fun x hx => (hunused.edge x hx).1, hunused.named, rfl, rfl, rfl,
              ?_, ?_, ?_, ?_, ?_, rfl, ?_, ?_, ?_⟩
            · exact (hfind _ _ _).mpr (h.attempts child List.mem_cons_self)
            · intro x hx hxm
              rw [hattempts] at hx
              obtain ⟨job, hjob, hxj⟩ := h.only x hx hxm
              rw [List.mem_singleton.mp hjob] at hxj
              have hchild := (hfind _ _ _).mpr (h.attempts child List.mem_cons_self)
              have hx₄ : HasAttempt s₄ child.job_id x.message_id x.agent_name :=
                ⟨x, hattempts ▸ hx, hxj.symm, rfl, rfl⟩
              exact (hs₄.hasAttempt_eq hx₄ hchild).2
            · rw [hedges]
              exact h.edges
            · show HasAttempt s₄ parent.job_id message.message_id parent.agent_name
              rw [hsame.1, hagent]
              exact hroom₄
            · rw [hedges]
              exact hunlinked
            · show message.message_id < m
              rw [hsame.1]
              exact h.older name parent.job_id hactive n name hroom
            · show (callback_chain_for_parent s₄.edges message.message_id).length + 1 ≤ _
              rw [hedges, hsame.1]
              exact hdepth
            · show child.agent_name ∉ parent.agent_name ::
                (callback_chain_for_parent s₄.edges message.message_id).map _ ++ _
              rw [hedges, hsame.1, hagent]
              exact hcycle child.agent_name (h.target hscope child List.mem_cons_self)
          refine guarded_then (guarded_write (Q := fun _ _ => True) fun _ _ =>
            ⟨.edge_new _ hnew, trivial⟩) fun _ _ => ?_
          exact (guarded_append_event rfl).mono fun _ _ _ _ _ => trivial
    · exact guarded_raise

end Registration

section Submissions

open Submission Callbacks

variable {config : DispatcherConfig} {terms : Terms} {s : DispatcherStore}
  (env : DispatcherEnvironment)

variable {m : MessageId} {jobs : List JobRecord}

theorem Attempted.job {attempts : List AttemptRecord}
    (h : Attempted m jobs attempts) {a : AttemptRecord} (ha : a ∈ attempts) :
    ∃ job ∈ jobs, job.job_id = a.job_id := by
  induction h with
  | nil => simp at ha
  | cons hhead _ ih =>
    rcases List.mem_cons.mp ha with rfl | ha
    · exact ⟨_, List.mem_cons_self, hhead.1.symm⟩
    · obtain ⟨job, hjob, hid⟩ := ih ha
      exact ⟨job, List.mem_cons_of_mem _ hjob, hid⟩

theorem Attempted.attempt
    {attempts : List AttemptRecord} (h : Attempted m jobs attempts) {job : JobRecord}
    (hjob : job ∈ jobs) : ∃ a ∈ attempts, a.job_id = job.job_id ∧ a.message_id = m ∧
      a.agent_name = job.agent_name := by
  induction h with
  | nil => simp at hjob
  | cons hhead _ ih =>
    rcases List.mem_cons.mp hjob with rfl | hjob
    · exact ⟨_, List.mem_cons_self, hhead⟩
    · obtain ⟨a, ha, hkeys⟩ := ih hjob
      exact ⟨a, List.mem_cons_of_mem _ ha, hkeys⟩

/-- A submission has one draft for each target, and one that keeps to one target has drafts
for it only. -/
structure Targeted (terms : Terms) (s : DispatcherStore) (plan : SubmissionPlan) : Prop where
  unlinked : ∀ draft ∈ plan.drafts, Unlinked terms s draft.request
  distinct : (plan.drafts.map fun draft => draft.agent_name).Nodup
  single : plan.request.delivery_scope = .single → ∀ draft ∈ plan.drafts,
    plan.request.to_agent = some draft.agent_name

variable {request : MessageEnvelope}

/-- A submission adds its attempts to a message that no edge names, and no job at work has
an attempt on. -/
theorem submitted_of_attempted {s s₂ s₃ : DispatcherStore}
    {attempts : List AttemptRecord} (hs : Coherent s)
    (hs₂ : Coherent s₂) (hactive : ∀ name, s₃.state.active_job_for name =
      s.state.active_job_for name)
    (habove : ∀ job ∈ jobs, s.bureau.next_id ≤ job.job_id) (hm : s₂.bureau.next_id ≤ m)
    (hedges : s₃.edges = s₂.edges) (hattempts : s₃.bureau.attempts = s₂.bureau.attempts ++ attempts)
    (hattempted : Attempted m jobs attempts)
    (htarget : request.delivery_scope = .single → ∀ job ∈ jobs,
      request.to_agent = some job.agent_name) : Submitted s₃ request jobs m where
  attempts := by
    intro job hjob
    obtain ⟨a, ha, hkeys⟩ := hattempted.attempt hjob
    exact ⟨a, hattempts ▸ List.mem_append_right _ ha, hkeys⟩
  only := by
    intro a ha ham
    rw [hattempts] at ha
    rcases List.mem_append.mp ha with ha | ha
    · exact absurd ham (Nat.lt_of_lt_of_le (hs₂.attempt_below a ha).2 hm).ne
    · exact hattempted.job ha
  edges := by
    intro e he
    rw [hedges] at he
    have hbelow := hs₂.edge_below e he
    exact ⟨(Nat.lt_of_lt_of_le hbelow.2.1 hm).ne, (Nat.lt_of_lt_of_le hbelow.2.2 hm).ne⟩
  older := by
    rintro name j hj n b ⟨a, ha, haj, han, _⟩
    rw [hactive] at hj
    obtain ⟨r, hr, hrj, _⟩ := hs.active name j hj
    have hbelow := hs.job_below r hr
    rw [hattempts] at ha
    rcases List.mem_append.mp ha with ha | ha
    · rw [← han]
      exact Nat.lt_of_lt_of_le (hs₂.attempt_below a ha).2 hm
    · obtain ⟨job, hjob, hid⟩ := hattempted.job ha
      have hge := habove job hjob
      rw [hid, haj, ← hrj] at hge
      exact absurd hbelow (Nat.not_lt.mpr hge)
  target := htarget

theorem guarded_submit_plan {plan : SubmissionPlan} (hplan : Targeted terms s plan)
    (t : Timestamp) :
    Guarded config terms (submit_plan config env plan t) (fun _ _ => True) s := by
  refine guarded_of_coherent fun hs => ?_
  refine guarded_bind (guarded_submit_drafts plan.submission_id t hplan.unlinked)
    fun jobs s₁ hs₁ _ h₁ => ?_
  obtain ⟨hdrafted, hagents⟩ := h₁
  have hbroadcast : Touches (fun kind => kind = .submission) (record_broadcast plan jobs t) :=
    touches_record_broadcast (K := fun kind => kind = .submission) rfl plan jobs t
  refine guarded_bind ((guarded_free hbroadcast (by rintro kind rfl; trivial)).leaves
    (J := fun x => x = { s₁ with submissions := x.submissions }) hbroadcast ?_ rfl)
    fun _ s₂ hs₂ hext₂ h₂ => ?_
  · rintro kind rfl l f htouch x hx
    cases htouch with
    | submission r => rw [hx]
  · have hattempts₂ : s₂.bureau.attempts = s.bureau.attempts := by
      rw [h₂.2]
      exact hdrafted.attempts
    have hstate₂ : s₂.state = s₁.state := by rw [h₂.2]
    have hjobs : ∀ job ∈ jobs, HasJob s₂ job.job_id job.agent_name := fun job hjob =>
      ⟨job, hext₂.jobs (hdrafted.records ▸ List.mem_append_right _ hjob), rfl, rfl⟩
    have hrecord : Touches (fun kind => ∃ k, kind = .bureau k) (onBureau
        (MessageBureau.record_submission env.service plan.request jobs plan.submission_id t
          plan.origin_message_id)) :=
      touches_onBureau (touches_record_submission env.service ⟨_, rfl⟩ ⟨_, rfl⟩ ⟨_, rfl⟩ ⟨_, rfl⟩
        _ _ _ _ _)
    refine guarded_bind ((guarded_record_submission env.service plan.request plan.submission_id t
      plan.origin_message_id hjobs hdrafted.nodup (hagents ▸ hplan.distinct) ?_).leaves
      (J := fun x => x.state = s₂.state) hrecord ?_ rfl) fun message_id s₃ _ _ h₃ => ?_
    · intro job hjob b hb
      rw [hattempts₂] at hb
      obtain ⟨r, hr, hrj, _⟩ := hs.attempt_job b hb
      have hbelow := hs.job_below r hr
      rw [hrj] at hbelow
      exact (Nat.lt_of_lt_of_le hbelow (hdrafted.above job hjob)).ne
    · rintro kind ⟨k, rfl⟩ l f htouch x hx
      cases htouch with
      | bureau kind access g hb => exact hx
    · obtain ⟨hrecorded, hstate₃⟩ := h₃
      cases message_id with
      | none => exact guarded_pure trivial
      | some m =>
        obtain ⟨hm, hedges₃, attempts, hattempts₃, hattempted⟩ := hrecorded m rfl
        refine guarded_last (guarded_register_callback_edge env plan.request t
          (submitted_of_attempted hs hs₂ ?_ hdrafted.above hm hedges₃ hattempts₃ hattempted ?_))
        · intro name
          rw [hstate₃, hstate₂]
          exact active_of_eq hdrafted.active name
        · intro hscope job hjob
          have hmem : job.agent_name ∈ plan.drafts.map fun draft => draft.agent_name := by
            rw [← hagents]
            exact List.mem_map_of_mem hjob
          obtain ⟨draft, hdraft, hagent⟩ := List.mem_map.mp hmem
          rw [← hagent]
          exact hplan.single hscope draft hdraft

theorem guarded_drafts_for_agents (request : MessageEnvelope) (targets : List AgentName) :
    Guarded config terms (drafts_for_agents config request targets)
      (fun drafts _ => drafts.map (fun draft => draft.agent_name) = targets ∧ ∀ draft ∈ drafts,
        draft.request.route_options = request.route_options) s := by
  induction targets generalizing s with
  | nil => exact guarded_pure ⟨rfl, by simp⟩
  | cons target targets ih =>
    refine guarded_then (guarded_same (touches_spec_for config target)) fun spec s₁ => ?_
    refine guarded_bind ih fun rest s₂ _ _ hrest => guarded_pure ⟨?_, ?_⟩
    · rw [List.map_cons, hrest.1]
    · intro draft hdraft
      rcases List.mem_cons.mp hdraft with rfl | hdraft
      · rfl
      · exact hrest.2 draft hdraft

/-- The registry lists an agent once: it goes through the configured agents. -/
abbrev ListsOnce (env : DispatcherEnvironment) : Prop := env.list_alive.Nodup

theorem guarded_resolve_targets (hlist : ListsOnce env) (request : MessageEnvelope) :
    Guarded config terms (resolve_targets config env request)
      (fun targets _ => targets.Nodup ∧ (request.delivery_scope = .single → ∀ target ∈ targets,
        request.to_agent = some target)) s := by
  unfold resolve_targets
  split
  · rename_i agent_name _ hagent
    refine guarded_then (guarded_same (p := ensure_dispatch_enabled config env agent_name) ?_)
      fun _ _ => guarded_pure ⟨List.nodup_singleton _, fun _ target htarget => ?_⟩
    · unfold ensure_dispatch_enabled
      grind
    · rw [hagent, List.mem_singleton.mp htarget]
  · exact guarded_raise
  · rename_i hscope
    refine guarded_pure ⟨?_, fun h => by rw [hscope] at h; simp at h⟩
    exact (List.mergeSort_perm _ _).nodup_iff.mpr ((hlist.filter _).filter _)

theorem guarded_plan_agent_submission (hlist : ListsOnce env)
    (hrequest : request.route_options.chain_edge_id = none) :
    Guarded config terms (plan_agent_submission config env request)
      (fun plan s' => Targeted terms s' plan) s := by
  unfold plan_agent_submission
  refine guarded_then (guarded_same (touches_validate_sender config _)) fun _ _ => ?_
  refine guarded_then (guarded_same (touches_validate_request_body request)) fun _ _ => ?_
  refine guarded_bind (guarded_validate_callback_request env request)
    fun bound _ _ _ hbound => ?_
  have hnone : bound.route_options.chain_edge_id = none := hbound.2.1.edge.trans hrequest
  refine guarded_bind (guarded_resolve_targets env hlist bound) fun targets _ _ _ htargets => ?_
  refine guarded_rejectIf_bind fun _ => ?_
  refine guarded_then (guarded_same (touches_validate_targets_available config env targets))
    fun _ _ => ?_
  refine guarded_then (guarded_free (K := Free) (touches_submission_id_for trivial bound)
    fun _ h => h) fun submission_id _ => ?_
  refine guarded_bind (guarded_drafts_for_agents bound targets) fun drafts _ _ _ hdrafts =>
    guarded_pure ⟨fun draft hdraft => ?_, hdrafts.1 ▸ htargets.1, fun hscope draft hdraft => ?_⟩
  · exact unlinked_of_none (by rw [hdrafts.2 draft hdraft, hnone])
  · refine htargets.2 hscope draft.agent_name ?_
    rw [← hdrafts.1]
    exact List.mem_map_of_mem hdraft

theorem guarded_submit (hlist : ListsOnce env)
    (hrequest : request.route_options.chain_edge_id = none) :
    Guarded config terms (submit config env request) (fun _ _ => True) s := by
  refine guarded_withLock ?_
  refine guarded_bind (guarded_plan_agent_submission env hlist hrequest) fun plan _ _ _ hplan => ?_
  exact guarded_last (guarded_submit_plan env hplan env.clock)

theorem guarded_jobs_for_resubmission (attempts : List AttemptRecord) (targets : List AgentName) :
    Guarded config terms (jobs_for_resubmission config attempts targets)
      (fun jobs s' => (∀ job ∈ jobs, job ∈ s.jobs) ∧ s' = s) s := by
  refine Guarded.same ?_ (touches_jobs_for_resubmission config attempts targets)
  induction targets generalizing s with
  | nil => exact guarded_pure (by simp)
  | cons target targets ih =>
    unfold jobs_for_resubmission
    refine guarded_bind (guarded_same (touches_spec_for config target)) fun spec s₁ _ _ hs₁ => ?_
    subst hs₁
    refine guarded_rejectIf_bind fun _ => ?_
    split
    · exact guarded_raise
    · rename_i attempt _
      refine guarded_read_bind ?_
      have hfound := found_get_latest (s := s₁) target attempt.job_id
      split
      · exact guarded_raise
      · rename_i job hjob
        refine guarded_bind ih fun rest s₂ _ _ hrest => guarded_pure ?_
        exact List.forall_mem_cons.mpr ⟨(hfound job hjob).1, hrest⟩

theorem guarded_plan_message_resubmission (hterms : ¬terms.lineal) (m : MessageId) :
    Guarded config terms (plan_message_resubmission config env m)
      (fun plan s' => Targeted terms s' plan) s := by
  unfold plan_message_resubmission
  refine guarded_of_coherent fun hs => guarded_onBureau_read_bind ?_
  split
  · exact guarded_raise
  · rename_i original horiginal
    refine guarded_onBureau_read_bind ?_
    refine guarded_rejectIf_bind fun _ => ?_
    refine guarded_rejectIf_bind fun _ => ?_
    refine guarded_rejectIf_bind fun _ => ?_
    refine guarded_bind (guarded_jobs_for_resubmission _ _) fun jobs s₁ _ _ hjobs => ?_
    obtain ⟨hjobs, rfl⟩ := hjobs
    split
    · exact guarded_raise
    · rename_i source hsource
      have hmem := hjobs source (List.mem_of_mem_head? hsource)
      refine guarded_bind (guarded_same (touches_validate_sender config _)) fun _ _ _ hext₁ _ => ?_
      refine guarded_bind (guarded_same (touches_validate_request_body _)) fun _ _ _ hext₂ _ => ?_
      refine guarded_bind (guarded_same (touches_validate_targets_available config env _))
        fun _ _ _ hext₃ _ => ?_
      refine guarded_bind (guarded_free (K := Free) (touches_submission_id_for trivial _)
        fun _ h => h) fun submission_id _ _ hext₄ _ => ?_
      refine guarded_bind (guarded_drafts_for_agents _ _) fun drafts _ _ hext₅ hdrafts =>
        guarded_pure ⟨fun draft hdraft i hi => ?_,
          hdrafts.1 ▸ hs.message_targets original (mem_of_latest? horiginal).1,
          fun hscope draft hdraft => ?_⟩
      · rw [hdrafts.2 draft hdraft] at hi
        have hext := hext₁.trans (hext₂.trans (hext₃.trans (hext₄.trans hext₅)))
        exact ⟨(hs.job_named source hmem i hi).trans_le hext.next_id, hterms⟩
      have hmem : draft.agent_name ∈ original.target_agents := by
        rw [← hdrafts.1]
        exact List.mem_map_of_mem hdraft
      show (resubmission_request original source.request).to_agent = some draft.agent_name
      have hscope' : (resubmission_request original source.request).delivery_scope = .single :=
        hscope
      unfold resubmission_request at hscope' ⊢
      by_cases hlength : original.target_agents.length > 1
      · simp [hlength] at hscope'
      · rw [if_neg hlength]
        obtain ⟨first, rest, heq⟩ := List.exists_cons_of_ne_nil (List.ne_nil_of_mem hmem)
        rw [heq] at hlength hmem ⊢
        have hrest : rest = [] := by
          cases rest with
          | nil => rfl
          | cons second rest => simp at hlength
        rw [hrest, List.mem_singleton] at hmem
        rw [hmem, List.head?_cons]

theorem guarded_resubmit_message (hterms : ¬terms.lineal) (m : MessageId) :
    Guarded config terms (resubmit_message config env m) (fun _ _ => True) s := by
  refine guarded_bind (guarded_plan_message_resubmission env hterms m) fun plan _ _ _ hplan => ?_
  exact guarded_last (guarded_submit_plan env hplan env.clock)

theorem guarded_resolve_retry_attempt (target : RetryTarget) :
    Guarded config terms (resolve_retry_attempt target)
      (fun attempt s' => s' = s ∧ attempt ∈ s.bureau.attempts) s := by
  unfold resolve_retry_attempt find_retry_attempt
  cases target with
  | attempt id =>
    refine guarded_onBureau_read_bind ?_
    cases hlatest : latest? (fun r : AttemptRecord => r.attempt_id) id s.bureau.attempts with
    | none => exact guarded_raise
    | some attempt => exact guarded_pure ⟨rfl, (mem_of_latest? hlatest).1⟩
  | job id =>
    refine guarded_onBureau_read_bind ?_
    cases hlatest : latest? (fun r : AttemptRecord => r.job_id) id s.bureau.attempts with
    | none => exact guarded_raise
    | some attempt => exact guarded_pure ⟨rfl, (mem_of_latest? hlatest).1⟩

theorem guarded_append_submission_job (i : Option SubmissionId) (j : JobId) (t : Timestamp) :
    Guarded config terms (append_submission_job i j t) (fun _ _ => True) s :=
  guarded_free (touches_append_submission_job (K := Free) trivial i j t) fun _ h => h

theorem guarded_retry_job {original : AttemptRecord} {current : JobRecord}
    (message : MessageRecord) (t : Timestamp) (horiginal : original ∈ s.bureau.attempts)
    (hcurrent : current ∈ s.jobs) (hagent : current.agent_name = original.agent_name) :
    Guarded config terms (retry_job env original current message t) (fun _ _ => True) s := by
  refine guarded_bind guarded_new_id fun i s₁ _ hext₁ hi => ?_
  obtain ⟨_, hunused, hs₁⟩ := hi
  refine guarded_bind (guarded_look (touches_pending_status _)) fun status s₂ hs₂ hext₂ h₂ => ?_
  have hroute : (retry_request_for_job env current).route_options = current.request.route_options := by
    unfold retry_request_for_job
    split <;> rfl
  have hmem : current ∈ s₂.jobs := hext₂.jobs (hext₁.jobs hcurrent)
  have hunused₂ := hunused.looked h₂
  refine guarded_bind (guarded_enqueue_submitted_job t ⟨hunused₂.below, hunused₂.job, ?_, ?_⟩)
    fun _ s₃ _ hext₃ h₃ => ?_
  · exact fun i hi => hs₂.job_named current hmem i (hroute ▸ hi)
  · exact fun _ hlineal i hi => hlineal.job current hmem i (hroute ▸ hi)
  refine guarded_then (guarded_record_retry_attempt env.service t ?_ fun _ => Or.inl ?_)
    fun _ _ => ?_
  · exact ⟨_, h₃.jobs ▸ List.mem_append_right _ List.mem_cons_self, rfl, rfl⟩
  · exact ⟨original, (hext₁.trans (hext₂.trans hext₃)).attempts horiginal, rfl, hagent.symm⟩
  · exact guarded_last (guarded_append_submission_job _ _ _)

theorem guarded_retry_attempt (target : RetryTarget) :
    Guarded config terms (retry_attempt config env target) (fun _ _ => True) s := by
  refine guarded_bind (guarded_resolve_retry_attempt target) fun original s₁ _ _ h₁ => ?_
  obtain ⟨rfl, horiginal⟩ := h₁
  refine guarded_rejectIf_bind fun _ => ?_
  refine guarded_rejectIf_bind fun _ => ?_
  refine guarded_onBureau_read_bind ?_
  split
  · exact guarded_raise
  · refine guarded_rejectIf_bind fun _ => ?_
    refine guarded_onBureau_read_bind ?_
    split
    · exact guarded_raise
    · refine guarded_bind (guarded_same (touches_validate_target_available config env _))
        fun _ s₂ _ _ hs₂ => ?_
      subst hs₂
      refine guarded_read_bind ?_
      cases hlatest : latest? (fun r : JobRecord => r.job_id) original.job_id
          (Model.list_agent s₂.jobs original.agent_name) with
      | none => exact guarded_raise
      | some current =>
        have hmem := List.mem_filter.mp (mem_of_latest? hlatest).1
        exact guarded_retry_job env _ _ horiginal hmem.1 (by simpa using hmem.2)

end Submissions

section Edges

open Callbacks Submission

variable {config : DispatcherConfig} {terms : Terms} {s : DispatcherStore}
  (env : DispatcherEnvironment)

abbrev Standing (s : DispatcherStore) (e : CallbackEdgeRecord) : Prop :=
  latest? (fun r => r.edge_id) e.edge_id s.edges = some e

variable {e : CallbackEdgeRecord}

theorem Standing.mem (h : Standing s e) : e ∈ s.edges := (mem_of_latest? h).1

theorem standing_of_latestEdges (h : e ∈ CallbackEdgeStore.latestEdges s.edges) : Standing s e :=
  (latest?_eq_some_iff _).mpr ⟨h, rfl⟩

theorem Standing.of_edges {s' : DispatcherStore} (h : Standing s e)
    (hedges : s'.edges = s.edges) : Standing s' e := by
  rw [Standing, hedges]
  exact h

variable {x : CallbackEdgeRecord}

theorem guarded_append_edge (h : EdgeUpdate terms s x e) :
    Guarded config terms (CallbackEdgeStore.append e)
      (fun _ s' => s' = { s with edges := s.edges ++ [e] } ∧ Standing s' e) s :=
  guarded_write fun _ _ => ⟨.edge_again e x h, rfl, by simp [Standing]⟩

theorem guarded_update_edge (h : EdgeUpdate terms s x e) :
    Guarded config terms (CallbackEdgeStore.update e)
      (fun r s' => r = e ∧ s' = { s with edges := s.edges ++ [e] } ∧ Standing s' e) s :=
  guarded_bind (guarded_append_edge h) fun _ _ _ _ h' => guarded_pure ⟨rfl, h'⟩

theorem edgeUpdate_of (hx : Standing s x)
    (hlinks : edgeLinks e = edgeLinks x) (hstate : forward x.state e.state)
    (hcontinuation : e.continuation_job_id = x.continuation_job_id)
    (hlinked : e.continuation_job_id.isSome → e.state.terminal)
    (hreply : ∀ r, e.child_reply_id = some r → HasReply s r x.child_message_id)
    (honce : terms.strict → x.child_reply_id.isSome → e.child_reply_id = x.child_reply_id) :
    EdgeUpdate terms s x e := by
  have hsame := hlinks
  simp only [edgeLinks, EdgeLinks.mk.injEq] at hsame
  obtain ⟨hid, _, _, _, _, hcmsg, htarget, _⟩ := hsame
  constructor
  · rw [hid]
    exact hx
  · exact ⟨hlinks, hstate, fun _ => hcontinuation, honce⟩
  · exact hlinked
  · rw [hcmsg]
    exact hreply
  · intro hlineal j hj
    rw [htarget]
    exact hlineal.continuation x (mem_of_latest? hx).1 j (hcontinuation ▸ hj)

theorem edgeUpdate_state (hs : Coherent s) (hx : Standing s x) (hlinks : edgeLinks e = edgeLinks x)
    (hstate : forward x.state e.state) (hreply : e.child_reply_id = x.child_reply_id)
    (hcontinuation : e.continuation_job_id = x.continuation_job_id)
    (hlinked : e.continuation_job_id.isSome → e.state.terminal) : EdgeUpdate terms s x e := by
  refine edgeUpdate_of hx hlinks hstate hcontinuation hlinked (fun r hr => ?_) fun _ _ => hreply
  exact hs.edge_reply x (mem_of_latest? hx).1 r (hreply ▸ hr)

theorem guarded_record_callback_failure_notice (edge : CallbackEdgeRecord)
    (reason detail : String) (t : Timestamp) :
    Guarded config terms (record_callback_failure_notice config env edge reason detail t)
      (fun _ _ => True) s := by
  refine guarded_then (guarded_get_job _) fun found _ => ?_
  cases found with
  | none => exact guarded_set_message_state _ _ _
  | some parent_job =>
    exact guarded_last (guarded_record_notice env.service _ _ _ _ _ _)

end Edges

end ClaudeCodeBridge.Analysis
