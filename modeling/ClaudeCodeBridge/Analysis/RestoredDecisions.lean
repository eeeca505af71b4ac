import ClaudeCodeBridge.Model.CompletionPolling

/-!
# What a restart makes of a persisted decision

A poll that ends a job is persisted with its items and its decision before the dispatcher
completes the job; a stop in between leaves the decision in the job's execution file.

The ladder: every service call for one job leaves the file, the submission and the replay
of another as they are (`SameAt`); the steps of the daemon up to the stop keep the decision
in the file (`run_holds`); the restart finds the job running and active
(`restarted_pending`); its restore completes the job with the decision, or leaves the
decision in the replay of an active submission (`restore_current_job_own`), which the first
poll takes to `complete` (`poll_replays`); and a completed job is left alone
(`poll_keeps`).  So the decision reaches `complete` (`persisted_decision_completes`),
unless the job is a reply delivery or its remaining items cannot be replayed
(`persisted_decision_dropped`).
-/

set_option autoImplicit false

namespace ClaudeCodeBridge.Analysis

open Program Model

/-- The computation returns, and what it returns satisfies `P`. -/
def Returns {α : Type} (P : α → Prop) (e : Except Failure α) : Prop := ∃ a, e = .ok a ∧ P a

variable {α β : Type}

theorem Returns.bind {P : α → Prop} {Q : β → Prop} {e : Except Failure α}
    {f : α → Except Failure β} (he : Returns P e) (hf : ∀ a, P a → Returns Q (f a)) :
    Returns Q (e >>= f) := by
  obtain ⟨a, rfl, ha⟩ := he
  exact hf a ha

theorem Returns.mono {P Q : α → Prop} {e : Except Failure α} (he : Returns P e)
    (h : ∀ a, P a → Q a) : Returns Q e := by
  obtain ⟨a, hok, ha⟩ := he
  exact ⟨a, hok, h a ha⟩

theorem Returns.foldlM {P : α → Prop} {f : α → β → Except Failure α}
    {xs : List β} (hf : ∀ a x, x ∈ xs → P a → Returns P (f a x)) {a : α} (ha : P a) :
    Returns P (xs.foldlM f a) := by
  induction xs generalizing a with
  | nil => exact ⟨a, rfl, ha⟩
  | cons x xs ih =>
    rw [List.foldlM_cons]
    refine Returns.bind (hf a x List.mem_cons_self ha) fun b hb => ?_
    exact ih (fun a y hy => hf a y (List.mem_cons_of_mem x hy)) hb

/-- A loop that keeps `Q`, and `P` until an element that leads from `P` to `Q`, ends in
`Q` if such an element comes. -/
theorem Returns.foldlM_reach {P Q : α → Prop} {T : β → Prop}
    {f : α → β → Except Failure α} {xs : List β}
    (hkeep : ∀ a x, x ∈ xs → P a → ¬ T x → Returns P (f a x))
    (hturn : ∀ a x, x ∈ xs → P a → T x → Returns Q (f a x))
    (hstay : ∀ a x, x ∈ xs → Q a → Returns Q (f a x)) (hexists : ∃ x ∈ xs, T x) {a : α}
    (ha : P a) : Returns Q (xs.foldlM f a) := by
  induction xs generalizing a with
  | nil =>
    obtain ⟨x, hx, _⟩ := hexists
    exact absurd hx List.not_mem_nil
  | cons x xs ih =>
    rw [List.foldlM_cons]
    have hin : ∀ y, y ∈ xs → y ∈ x :: xs := fun y hy => List.mem_cons_of_mem x hy
    by_cases hx : T x
    · refine Returns.bind (hturn a x List.mem_cons_self ha hx) fun b hb => ?_
      exact Returns.foldlM (fun a y hy => hstay a y (hin y hy)) hb
    · obtain ⟨y, hy, hty⟩ := hexists
      have hlater : ∃ y ∈ xs, T y := by
        rcases List.mem_cons.mp hy with rfl | hy
        · exact absurd hty hx
        · exact ⟨y, hy, hty⟩
      refine Returns.bind (hkeep a x List.mem_cons_self ha hx) fun b hb => ?_
      exact ih (fun a y hy => hkeep a y (hin y hy)) (fun a y hy => hturn a y (hin y hy))
        (fun a y hy => hstay a y (hin y hy)) hlater hb

/-- Adapters answer for the submission they are given. -/
structure KeepsBinding (registry : ProviderExecutionRegistry) : Prop where
  poll : ∀ provider adapter submission now result, registry provider = some adapter →
    adapter.poll submission now = some result →
    result.submission.job_id = submission.job_id ∧ result.submission.provider = submission.provider
  resume : ∀ provider adapter resume job submission context persisted now resumed,
    registry provider = some adapter → adapter.resume = some resume →
    resume job submission context persisted now = some resumed →
    resumed.job_id = submission.job_id

structure Bound (s : ExecutionService) : Prop where
  file : ∀ job_id persisted, s.load job_id = some persisted → persisted.submission.job_id = job_id
  active : ∀ job_id submission, s.active.get job_id = some submission → submission.job_id = job_id

/-- Nothing about the job differs between the two services. -/
structure SameAt (job_id : JobId) (s s' : ExecutionService) : Prop where
  load : s'.load job_id = s.load job_id
  active : s'.active.get job_id = s.active.get job_id
  replay : s'.pending_replays.get job_id = s.pending_replays.get job_id

theorem SameAt.refl (job_id : JobId) (s : ExecutionService) : SameAt job_id s s :=
  ⟨rfl, rfl, rfl⟩

theorem SameAt.trans {job_id : JobId} {s s' s'' : ExecutionService} (h : SameAt job_id s s')
    (h' : SameAt job_id s' s'') : SameAt job_id s s'' :=
  ⟨h'.load.trans h.load, h'.active.trans h.active, h'.replay.trans h.replay⟩

abbrev activated (s : ExecutionService) (job_id : JobId) (submission : ProviderSubmission) :
    ExecutionService :=
  { s with active := s.active.set job_id submission }

section Service

variable {registry : ProviderExecutionRegistry} {s : ExecutionService} {job_id k : JobId}

theorem load_save (s : ExecutionService) (state : PersistedExecutionState) (job_id : JobId) :
    (s.save state).load job_id =
      if job_id = state.submission.job_id then s.state_store.map fun _ => state
      else s.load job_id := by
  unfold ExecutionService.load ExecutionService.save
  cases s.state_store with
  | none => simp
  | some store =>
    by_cases h : job_id = state.submission.job_id
    · subst h
      simp
    · simp [h, Dict.get_set_of_ne _ h]

theorem load_remove (s : ExecutionService) (k job_id : JobId) :
    (s.remove k).load job_id = if job_id = k then none else s.load job_id := by
  unfold ExecutionService.load ExecutionService.remove
  cases s.state_store with
  | none => simp
  | some store =>
    by_cases h : job_id = k
    · subst h
      simp
    · simp [h, Dict.get_pop_of_ne _ h]

variable {state : PersistedExecutionState}

theorem sameAt_save (hne : job_id ≠ state.submission.job_id) : SameAt job_id s (s.save state) :=
  ⟨by rw [load_save, if_neg hne], rfl, rfl⟩

theorem sameAt_finish (hne : job_id ≠ k) : SameAt job_id s (s.finish k) := by
  refine ⟨?_, Dict.get_pop_of_ne _ hne, Dict.get_pop_of_ne _ hne⟩
  exact (load_remove s k job_id).trans (if_neg hne)

theorem persist_submission_of_active (registry : ProviderExecutionRegistry)
    {submission : ProviderSubmission} (hactive : s.active.get job_id = some submission)
    (decision : Option TerminalDecision) (items : List CompletionItem) (applied : List ℤ) :
    ∃ state, s.persist_submission registry job_id decision items applied = s.save state ∧
      state.submission.job_id = submission.job_id ∧
      state.submission.provider = submission.provider ∧
      state.pending_decision = decision ∧ state.pending_items = items := by
  unfold ExecutionService.persist_submission
  rw [hactive]
  exact ⟨_, rfl, rfl, rfl, rfl, rfl⟩

theorem persist_submission_of_inactive (hactive : s.active.get job_id = none)
    (decision : Option TerminalDecision) (items : List CompletionItem) (applied : List ℤ) :
    s.persist_submission registry job_id decision items applied = s := by
  unfold ExecutionService.persist_submission
  rw [hactive]

theorem bound_save (hs : Bound s) : Bound (s.save state) := by
  refine ⟨?_, hs.active⟩
  intro job_id persisted hload
  rw [load_save] at hload
  split at hload
  · rename_i hjob
    obtain ⟨_, _, rfl⟩ := Option.map_eq_some_iff.mp hload
    exact hjob.symm
  · exact hs.file job_id persisted hload

theorem bound_remove (hs : Bound s) (k : JobId) : Bound (s.remove k) := by
  refine ⟨?_, hs.active⟩
  intro job_id persisted hload
  rw [load_remove] at hload
  split at hload
  · cases hload
  · exact hs.file job_id persisted hload

theorem bound_pop_active (hs : Bound s) (k : JobId) :
    Bound { s with active := s.active.pop k } := by
  refine ⟨hs.file, ?_⟩
  intro job_id submission hactive
  by_cases hne : job_id = k
  · subst hne
    rw [Dict.get_pop_self] at hactive
    cases hactive
  · rw [Dict.get_pop_of_ne _ hne] at hactive
    exact hs.active job_id submission hactive

theorem bound_finish (hs : Bound s) (k : JobId) : Bound (s.finish k) :=
  ⟨(bound_remove hs k).file, (bound_pop_active hs k).active⟩

theorem bound_set_active {submission : ProviderSubmission} (hs : Bound s)
    (hjob : submission.job_id = k) :
    Bound (activated s k submission) := by
  refine ⟨hs.file, ?_⟩
  intro job_id submission' hactive
  by_cases hne : job_id = k
  · subst hne
    rw [Dict.get_set_self] at hactive
    cases hactive
    exact hjob
  · rw [Dict.get_set_of_ne _ hne] at hactive
    exact hs.active job_id submission' hactive

theorem bound_persist_submission (registry : ProviderExecutionRegistry) (hs : Bound s)
    (job_id : JobId)
    (decision : Option TerminalDecision) (items : List CompletionItem) (applied : List ℤ) :
    Bound (s.persist_submission registry job_id decision items applied) := by
  cases hactive : s.active.get job_id with
  | none =>
    rw [persist_submission_of_inactive hactive]
    exact hs
  | some submission =>
    obtain ⟨state, hsave, _⟩ := persist_submission_of_active registry hactive
      decision items applied
    rw [hsave]
    exact bound_save hs

theorem sameAt_persist_submission (hs : Bound s) (hne : job_id ≠ k)
    (decision : Option TerminalDecision) (items : List CompletionItem) (applied : List ℤ) :
    SameAt job_id s (s.persist_submission registry k decision items applied) := by
  cases hactive : s.active.get k with
  | none =>
    rw [persist_submission_of_inactive hactive]
    exact SameAt.refl job_id s
  | some submission =>
    obtain ⟨state, hsave, hjob, _⟩ := persist_submission_of_active registry
      hactive decision items applied
    rw [hsave]
    refine sameAt_save ?_
    rwa [hjob, hs.active k submission hactive]

variable {adapter : ProviderExecutionAdapter}

theorem timeout_poll_result_binding {submission : ProviderSubmission}
    {now : Timestamp} {result : ProviderPollResult}
    (h : timeout_poll_result s k submission adapter now = some result) :
    result.submission.job_id = submission.job_id ∧
      result.submission.provider = submission.provider := by
  simp only [timeout_poll_result] at h
  repeat' split at h
  all_goals cases h
  exact ⟨rfl, rfl⟩

theorem apply_reliability_progress_binding (result : ProviderPollResult)
    (previous : ProviderSubmission) (now : Timestamp) :
    (apply_reliability_progress result previous now).submission.job_id
        = result.submission.job_id ∧
      (apply_reliability_progress result previous now).submission.provider
        = result.submission.provider := by
  unfold apply_reliability_progress
  split <;> exact ⟨rfl, rfl⟩

variable {provider : ProviderName}

theorem polled_result_binding (hreg : KeepsBinding registry)
    (hadapter : registry provider = some adapter)
    {submission : ProviderSubmission} {now : Timestamp} {result : ProviderPollResult}
    (h : polled_result s k submission adapter now = some result) :
    result.submission.job_id = submission.job_id ∧
      result.submission.provider = submission.provider := by
  unfold polled_result at h
  cases hpoll : adapter.poll submission now with
  | none =>
    rw [hpoll] at h
    exact timeout_poll_result_binding h
  | some polled =>
    rw [hpoll] at h
    have hbinding := hreg.poll provider adapter submission now polled hadapter hpoll
    have hprogress := apply_reliability_progress_binding polled submission now
    have hsame := And.intro (hprogress.1.trans hbinding.1) (hprogress.2.trans hbinding.2)
    simp only at h
    split at h
    · cases htimeout : timeout_poll_result s k
          (apply_reliability_progress polled submission now).submission adapter now with
      | none =>
        rw [htimeout] at h
        cases h
        exact hsame
      | some timeout =>
        rw [htimeout] at h
        cases h
        have := timeout_poll_result_binding htimeout
        exact ⟨this.1.trans hsame.1, this.2.trans hsame.2⟩
    · cases h
      exact hsame

/-- A poll of an active job has a result, and the step records it. -/
def PollRecorded (registry : ProviderExecutionRegistry) (s : ExecutionService) (k : JobId)
    (submission : ProviderSubmission) (now : Timestamp) : Prop :=
  ∃ adapter result, s.active.get k = some submission ∧
    registry submission.provider = some adapter ∧
    polled_result s k submission adapter now = some result ∧
    s.process_active_job registry k submission now =
      s.record_result registry k (annotate_poll_result_authority result)

theorem process_active_job_cases (registry : ProviderExecutionRegistry)
    (s : ExecutionService) (k : JobId) (submission : ProviderSubmission) (now : Timestamp) :
    s.process_active_job registry k submission now = (s, []) ∨
    s.process_active_job registry k submission now = ({ s with active := s.active.pop k }, []) ∨
    PollRecorded registry s k submission now := by
  unfold PollRecorded
  unfold ExecutionService.process_active_job
  split
  · exact Or.inl rfl
  · rename_i hactive
    cases hadapter : registry submission.provider with
    | none => exact Or.inr (Or.inl rfl)
    | some adapter =>
      cases hresult : polled_result s k submission adapter now with
      | none =>
        refine Or.inl ?_
        simp only [hresult]
      | some result =>
        refine Or.inr (Or.inr ⟨adapter, result, not_not.mp hactive, rfl, hresult, ?_⟩)
        simp only [hresult]

theorem process_active_job_recorded {submission : ProviderSubmission} {now : Timestamp}
    {update : ExecutionUpdate} (h : update ∈ (s.process_active_job registry k submission now).2) :
    PollRecorded registry s k submission now := by
  rcases process_active_job_cases registry s k submission now with hsame | hpop | hrecorded
  · rw [hsame] at h
    exact absurd h List.not_mem_nil
  · rw [hpop] at h
    exact absurd h List.not_mem_nil
  · exact hrecorded

/-- A recorded result is persisted; a terminal one also ends the job's activity. -/
theorem record_result_cases (registry : ProviderExecutionRegistry) (s : ExecutionService)
    (k : JobId) (result : ProviderPollResult) :
    (result.decision = none ∧
      (s.record_result registry k result).1 =
        (activated s k result.submission).persist_submission registry k
          none result.items [] ∧
      ∀ update ∈ (s.record_result registry k result).2,
        update.job_id = k ∧ update.decision = none) ∨
    ∃ decision persisted, result.decision = some decision ∧
      persisted = (activated s k result.submission).persist_submission
        registry k (some decision) result.items [] ∧
      s.record_result registry k result =
        ({ persisted with
            active := persisted.active.pop k
            runtime_contexts := persisted.runtime_contexts.pop k },
          [⟨k, result.items, some decision, some result.submission⟩]) := by
  cases hdecision : result.decision with
  | none =>
    refine Or.inl ⟨rfl, ?_⟩
    simp only [ExecutionService.record_result, hdecision]
    split
    · simp
    · simp
  | some decision =>
    refine Or.inr ⟨decision, _, rfl, rfl, ?_⟩
    simp [ExecutionService.record_result, hdecision]

theorem record_result_frame (job_id : JobId) (hs : Bound s) {result : ProviderPollResult}
    (hjob : result.submission.job_id = k) :
    Bound (s.record_result registry k result).1 ∧
      (job_id ≠ k → SameAt job_id s (s.record_result registry k result).1) := by
  have hset := bound_set_active hs hjob
  have hother : ∀ decision, job_id ≠ k → SameAt job_id s
      ((activated s k result.submission).persist_submission registry k
        decision result.items []) := by
    intro decision hne
    have hactive : SameAt job_id s (activated s k result.submission) :=
      ⟨rfl, Dict.get_set_of_ne s.active hne _, rfl⟩
    exact hactive.trans (sameAt_persist_submission hset hne _ _ _)
  rcases record_result_cases registry s k result
    with ⟨_, hfinal, _⟩ | ⟨decision, persisted, _, rfl, hfinal⟩
  · rw [hfinal]
    exact ⟨bound_persist_submission registry hset k _ _ _, hother none⟩
  · rw [hfinal]
    have hpersisted := bound_persist_submission registry hset k (some decision) result.items []
    refine ⟨⟨hpersisted.file, (bound_pop_active hpersisted k).active⟩, ?_⟩
    intro hne
    exact (hother _ hne).trans ⟨rfl, Dict.get_pop_of_ne _ hne, rfl⟩

theorem process_active_job_frame (job_id k : JobId) (hreg : KeepsBinding registry)
    (hs : Bound s) (submission : ProviderSubmission) (now : Timestamp) :
    Bound (s.process_active_job registry k submission now).1 ∧
      (job_id ≠ k → SameAt job_id s (s.process_active_job registry k submission now).1) := by
  rcases process_active_job_cases registry s k submission now
    with hsame | hpop | ⟨adapter, result, hactive, hadapter, hresult, hrecord⟩
  · rw [hsame]
    exact ⟨hs, fun _ => SameAt.refl job_id s⟩
  · rw [hpop]
    exact ⟨bound_pop_active hs k, fun hne => ⟨rfl, Dict.get_pop_of_ne _ hne, rfl⟩⟩
  · rw [hrecord]
    refine record_result_frame job_id hs ?_
    have hbinding := (polled_result_binding hreg hadapter hresult).1
    exact hbinding.trans (hs.active k submission hactive)

/-- The job is no longer polled, and its file holds the decision. -/
structure Holding (job_id : JobId) (provider : ProviderName) (decision : TerminalDecision)
    (s : ExecutionService) : Prop where
  bound : Bound s
  inactive : s.active.get job_id = none
  file : ∃ persisted, s.load job_id = some persisted ∧
    persisted.pending_decision = some decision ∧ persisted.submission.provider = provider

variable {decision : TerminalDecision}

/-- A poll that hands on a terminal decision has persisted it. -/
theorem process_active_job_holds (hreg : KeepsBinding registry) (hs : Bound s)
    (hstore : s.state_store.isSome) {submission : ProviderSubmission} {now : Timestamp}
    {update : ExecutionUpdate}
    (hupdate : update ∈ (s.process_active_job registry job_id submission now).2)
    (hdecision : update.decision = some decision) :
    Holding job_id submission.provider decision
      (s.process_active_job registry job_id submission now).1 := by
  have hbound := (process_active_job_frame job_id job_id hreg hs submission now).1
  obtain ⟨adapter, result, hactive, hadapter, hresult, hrecord⟩ :=
    process_active_job_recorded hupdate
  rw [hrecord] at hupdate hbound ⊢
  have hbinding := polled_result_binding hreg hadapter hresult
  have hjob : (annotate_poll_result_authority result).submission.job_id = job_id :=
    hbinding.1.trans (hs.active job_id submission hactive)
  have hprovider : (annotate_poll_result_authority result).submission.provider
      = submission.provider := hbinding.2
  rcases record_result_cases registry s job_id (annotate_poll_result_authority result)
    with ⟨_, _, hnone⟩ | ⟨recorded, persisted, _, hpersisted, hfinal⟩
  · rw [(hnone update hupdate).2] at hdecision
    cases hdecision
  rw [hfinal] at hupdate hbound ⊢
  rw [List.mem_singleton.mp hupdate] at hdecision
  cases hdecision
  obtain ⟨state, hsave, hstate, hsaved, hpending, _⟩ :=
    persist_submission_of_active registry
      (s := activated s job_id (annotate_poll_result_authority result).submission)
      (Dict.get_set_self _ _ _) (some decision)
      (annotate_poll_result_authority result).items []
  refine ⟨hbound, Dict.get_pop_self _ _, state, ?_, hpending, hsaved.trans hprovider⟩
  obtain ⟨store, hstore⟩ := Option.isSome_iff_exists.mp hstore
  have hload := load_save
    (activated s job_id (annotate_poll_result_authority result).submission) state job_id
  rw [if_pos (hstate.trans hjob).symm] at hload
  show persisted.load job_id = some state
  rw [hpersisted, hsave, hload, hstore]
  rfl

/-- What the daemon does to its execution service in the rounds up to the stop. -/
inductive ServiceStep where
  | process_active_job (job_id : JobId) (submission : ProviderSubmission) (now : Timestamp)
  | acknowledge_item (job_id : JobId) (event_seq : Option ℤ)
  | acknowledge (job_id : JobId)
  | finish (job_id : JobId)

def ServiceStep.run (registry : ProviderExecutionRegistry) (s : ExecutionService) :
    ServiceStep → ExecutionService
  | process_active_job job_id submission now =>
    (s.process_active_job registry job_id submission now).1
  | acknowledge_item job_id event_seq => s.acknowledge_item job_id event_seq
  | acknowledge job_id => s.acknowledge job_id
  | finish job_id => s.finish job_id

/-- `poll_completion_updates` acknowledges a job as a whole only without a decision, and
finishes it only when it is terminal. -/
def ServiceStep.spares (job_id : JobId) : ServiceStep → Prop
  | acknowledge k | finish k => job_id ≠ k
  | process_active_job _ _ _ | acknowledge_item _ _ => True

theorem Holding.of_sameAt {s' : ExecutionService} (h : Holding job_id provider decision s)
    (hs' : Bound s') (hsame : SameAt job_id s s') : Holding job_id provider decision s' := by
  refine ⟨hs', hsame.active.trans h.inactive, ?_⟩
  rw [hsame.load]
  exact h.file

theorem Holding.of_save
    (h : Holding job_id provider decision s) {persisted : PersistedExecutionState}
    (hload : s.load k = some persisted) (hsub : state.submission = persisted.submission)
    (hdecision : state.pending_decision = persisted.pending_decision) :
    Holding job_id provider decision (s.save state) := by
  have hk : state.submission.job_id = k := by
    rw [hsub]
    exact h.bound.file k persisted hload
  by_cases hne : job_id = k
  · subst hne
    obtain ⟨persisted', hload', hpending, hprovider⟩ := h.file
    rw [hload] at hload'
    cases hload'
    refine ⟨bound_save h.bound, h.inactive, state, ?_, hdecision.trans hpending, ?_⟩
    · obtain ⟨store, hstore, _⟩ := Option.bind_eq_some_iff.mp hload
      rw [load_save, if_pos hk.symm, hstore]
      rfl
    · rw [hsub]
      exact hprovider
  · refine h.of_sameAt (bound_save h.bound) (sameAt_save ?_)
    rwa [hk]

theorem step_holds (hreg : KeepsBinding registry) {step : ServiceStep}
    (h : Holding job_id provider decision s) (hstep : step.spares job_id) :
    Holding job_id provider decision (step.run registry s) := by
  cases step with
  | process_active_job k submission now =>
    show Holding job_id provider decision (s.process_active_job registry k submission now).1
    have hframe := process_active_job_frame job_id k hreg h.bound submission now
    by_cases hne : job_id = k
    · subst hne
      unfold ExecutionService.process_active_job
      rw [h.inactive, if_pos (by simp)]
      exact h
    · exact h.of_sameAt hframe.1 (hframe.2 hne)
  | acknowledge_item k event_seq =>
    show Holding job_id provider decision (s.acknowledge_item k event_seq)
    unfold ExecutionService.acknowledge_item
    split
    · rename_i seq persisted hload
      split
      · exact h
      · exact h.of_save hload rfl rfl
    · exact h
  | acknowledge k =>
    have hpop : Holding job_id provider decision
        { s with pending_replays := s.pending_replays.pop k } :=
      ⟨⟨h.bound.file, h.bound.active⟩, h.inactive, h.file⟩
    show Holding job_id provider decision (s.acknowledge k)
    simp only [ExecutionService.acknowledge]
    split
    · exact hpop
    · rename_i persisted hload
      exact hpop.of_save hload rfl rfl
  | finish k => exact h.of_sameAt (bound_finish h.bound k) (sameAt_finish hstep)

theorem run_holds (hreg : KeepsBinding registry) {steps : List ServiceStep}
    (h : Holding job_id provider decision s) (hsteps : ∀ step ∈ steps, step.spares job_id) :
    Holding job_id provider decision (steps.foldl (ServiceStep.run registry) s) := by
  induction steps generalizing s with
  | nil => exact h
  | cons step steps ih =>
    have hfirst := step_holds hreg h (hsteps step List.mem_cons_self)
    exact ih hfirst fun later hlater => hsteps later (List.mem_cons_of_mem step hlater)

abbrev resumed (s : ExecutionService) (job_id : JobId) (submission : ProviderSubmission)
    (context : Option ProviderRuntimeContext) : ExecutionService :=
  { s with
    active := s.active.set job_id submission
    runtime_contexts := s.runtime_contexts.set job_id context }

theorem persist_restored_submission_frame (registry : ProviderExecutionRegistry)
    (job_id : JobId) (hs : Bound s) {submission : ProviderSubmission}
    (hjob : submission.job_id = k) (context : Option ProviderRuntimeContext)
    (persisted : PersistedExecutionState) (items : List CompletionItem) {s' : ExecutionService}
    (hs' : s' = s.persist_restored_submission registry k submission context persisted items) :
    Bound s' ∧ (job_id ≠ k → SameAt job_id s s') ∧ s'.active.get k = some submission ∧
      s'.pending_replays = s.pending_replays := by
  subst hs'
  have hset : Bound (resumed s k submission context) :=
    ⟨(bound_set_active hs hjob).file, (bound_set_active hs hjob).active⟩
  obtain ⟨state, hsave, _⟩ := persist_submission_of_active registry
    (s := resumed s k submission context) (Dict.get_set_self s.active k submission)
    persisted.pending_decision items persisted.applied_event_seqs
  refine ⟨bound_persist_submission registry hset k _ _ _, ?_, ?_, ?_⟩
  · intro hne
    have hactive : SameAt job_id s (resumed s k submission context) :=
      ⟨rfl, Dict.get_set_of_ne s.active hne _, rfl⟩
    exact hactive.trans (sameAt_persist_submission hset hne _ _ _)
  · unfold ExecutionService.persist_restored_submission
    rw [hsave]
    exact Dict.get_set_self _ _ _
  · unfold ExecutionService.persist_restored_submission
    rw [hsave]
    rfl

theorem abandon_restore_frame (job_id : JobId) (hs : Bound s) (job : JobRecord) (reason : String)
    (resume_capable : Bool) (n : ℕ) :
    Bound (s.abandon_restore job reason resume_capable n).1 ∧ (job_id ≠ job.job_id →
      SameAt job_id s (s.abandon_restore job reason resume_capable n).1) := by
  refine ⟨bound_remove hs job.job_id, fun hne => ⟨?_, rfl, rfl⟩⟩
  exact (load_remove s job.job_id job_id).trans (if_neg hne)

theorem recover_pending_items_frame (job_id k : JobId) (hs : Bound s)
    (persisted : PersistedExecutionState) : Bound (s.recover_pending_items k persisted) ∧
      (job_id ≠ k → SameAt job_id s (s.recover_pending_items k persisted)) := by
  unfold ExecutionService.recover_pending_items
  split
  · exact ⟨hs, fun _ => SameAt.refl job_id s⟩
  · refine ⟨⟨hs.file, hs.active⟩, ?_⟩
    exact fun hne => ⟨rfl, rfl, Dict.get_set_of_ne s.pending_replays hne _⟩

theorem resume_or_reason_binding (hreg : KeepsBinding registry) (hs : Bound s) {job : JobRecord}
    (hadapter : registry provider = some adapter) {persisted : PersistedExecutionState}
    (hload : s.load job.job_id = some persisted) {context : Option ProviderRuntimeContext}
    {now : Timestamp} {submission : ProviderSubmission}
    (h : ExecutionService.resume_or_reason adapter job persisted context now
      = .ok submission) : submission.job_id = job.job_id := by
  unfold ExecutionService.resume_or_reason at h
  repeat' split at h
  all_goals cases h
  rename_i hresume _ _ hresumed
  have hbinding := hreg.resume _ _ _ _ _ _ _ _ _ hadapter hresume hresumed
  exact hbinding.trans (hs.file job.job_id persisted hload)

theorem restore_persisted_frame (job_id : JobId) (hreg : KeepsBinding registry) (hs : Bound s)
    {job : JobRecord} (hadapter : registry provider = some adapter)
    {persisted : PersistedExecutionState} (hload : s.load job.job_id = some persisted)
    (context : Option ProviderRuntimeContext) (now : Timestamp) :
    Bound (s.restore_persisted registry job adapter persisted context now).1 ∧
      (job_id ≠ job.job_id → SameAt job_id s
        (s.restore_persisted registry job adapter persisted context now).1) := by
  have hrecovered := recover_pending_items_frame job_id job.job_id hs persisted
  simp only [ExecutionService.restore_persisted]
  split
  · exact hrecovered
  have habandon : ∀ reason capable n, Bound
      ((s.recover_pending_items job.job_id persisted).abandon_restore job reason capable n).1
        ∧ (job_id ≠ job.job_id → SameAt job_id s
          ((s.recover_pending_items job.job_id persisted).abandon_restore job reason capable
            n).1) := by
    intro reason capable n
    have h := abandon_restore_frame job_id hrecovered.1 job reason capable n
    exact ⟨h.1, fun hne => (hrecovered.2 hne).trans (h.2 hne)⟩
  unfold ExecutionService.restore_recovered
  split
  · exact habandon _ _ _
  split
  · exact habandon _ _ _
  · rename_i submission hresume
    have hjob := resume_or_reason_binding hreg hs hadapter hload hresume
    have h := persist_restored_submission_frame registry job_id
      hrecovered.1 hjob (context <|> persisted.runtime_context) persisted
      (filter_pending_items persisted) rfl
    exact ⟨h.1, fun hne => (hrecovered.2 hne).trans (h.2.1 hne)⟩

theorem restore_submission_frame (job_id : JobId) (hreg : KeepsBinding registry) (hs : Bound s)
    (job : JobRecord) (context : Option ProviderRuntimeContext) (now : Timestamp) :
    Bound (s.restore_submission registry job context now).1 ∧
      (job_id ≠ job.job_id →
        SameAt job_id s (s.restore_submission registry job context now).1) := by
  have hkeep : Bound s ∧ (job_id ≠ job.job_id → SameAt job_id s s) :=
    ⟨hs, fun _ => SameAt.refl job_id s⟩
  unfold ExecutionService.restore_submission
  split
  · exact hkeep
  split
  · exact hkeep
  split
  · exact abandon_restore_frame job_id hs _ _ _ _
  rename_i adapter hadapter
  split
  · exact hkeep
  rename_i persisted hload
  split
  · exact abandon_restore_frame job_id hs _ _ _ _
  · exact restore_persisted_frame job_id hreg hs hadapter hload context now

end Service

/-- The job's latest record, and the decisions that made it terminal since the start. -/
structure At {τ : Type} (job_id : JobId) (job : JobRecord) (history : List TerminalDecision)
    (d : PollingDispatcher τ) : Prop where
  target : d.state.target_for_job job_id = some job.agent_name
  latest : latest? (fun r => r.job_id) job_id (list_agent d.jobs job.agent_name) = some job
  history : (d.completions.filter fun completion => completion.1 = job_id) =
    history.map fun decision => (job_id, decision)

section Dispatcher

variable {τ : Type} {ctx : PollingContext τ} {d : PollingDispatcher τ} {job_id k : JobId}
  {job : JobRecord} {history : List TerminalDecision}

theorem At.get_job (h : At job_id job history d) : d.get_job job_id = some job := by
  unfold PollingDispatcher.get_job
  rw [h.target]
  exact h.latest

theorem At.job_id_eq (h : At job_id job history d) : job.job_id = job_id :=
  ((latest?_eq_some_iff _).mp h.latest).2

theorem get_job_job_id {current : JobRecord} (h : d.get_job k = some current) :
    current.job_id = k := by
  unfold PollingDispatcher.get_job at h
  split at h
  · exact ((latest?_eq_some_iff _).mp h).2
  · obtain ⟨_, _, hfound⟩ := List.exists_of_findSome?_eq_some h
    exact ((latest?_eq_some_iff _).mp hfound).2

theorem At.congr (h : At job_id job history d) {d' : PollingDispatcher τ}
    (hstate : d'.state = d.state) (hjobs : d'.jobs = d.jobs)
    (hcompletions : d'.completions = d.completions) : At job_id job history d' := by
  refine ⟨?_, ?_, ?_⟩
  · rw [hstate]
    exact h.target
  · rw [hjobs]
    exact h.latest
  · rw [hcompletions]
    exact h.history

theorem At.complete_other (h : At job_id job history d) {current : JobRecord}
    (hne : job_id ≠ current.job_id) (decision : TerminalDecision) (now : Timestamp) :
    At job_id job history (d.complete_current ctx current decision now) := by
  unfold PollingDispatcher.complete_current
  refine ⟨?_, ?_, ?_⟩
  · rw [DispatcherState.clear_active_for_target]
    exact (Dict.get_set_of_ne _ hne _).trans h.target
  · rw [list_agent_append]
    split
    · rw [latest?_append, PollingDispatcher.terminal_record_job_id, if_neg (Ne.symm hne)]
      exact h.latest
    · exact h.latest
  · rw [List.filter_append, h.history, List.filter_cons_of_neg (by simpa using Ne.symm hne),
      List.filter_nil, List.append_nil]

theorem At.complete_own (h : At job_id job history d) (decision : TerminalDecision)
    (now : Timestamp) :
    At job_id (PollingDispatcher.terminal_record ctx d.tracker job decision now)
      (history ++ [decision]) (d.complete_current ctx job decision now) := by
  have hjob := h.job_id_eq
  unfold PollingDispatcher.complete_current
  refine ⟨?_, ?_, ?_⟩
  · rw [DispatcherState.clear_active_for_target, ← hjob]
    exact Dict.get_set_self _ _ _
  · rw [list_agent_append, if_pos rfl, latest?_append,
      PollingDispatcher.terminal_record_job_id, if_pos hjob]
  · rw [List.filter_append, h.history, List.filter_cons_of_pos (by simpa using hjob),
      List.filter_nil, List.map_append, hjob]
    rfl

/-- What the dispatcher does for other jobs changes nothing of this one. -/
structure Undisturbed (job_id : JobId) (job : JobRecord) (history : List TerminalDecision)
    (d d' : PollingDispatcher τ) : Prop where
  at_job : At job_id job history d'
  service : SameAt job_id d.service d'.service
  bound : Bound d.service → Bound d'.service

theorem Undisturbed.trans {d' d'' : PollingDispatcher τ}
    (h : Undisturbed job_id job history d d') (h' : Undisturbed job_id job history d' d'') :
    Undisturbed job_id job history d d'' :=
  ⟨h'.at_job, h.service.trans h'.service, fun hd => h'.bound (h.bound hd)⟩

theorem Undisturbed.refl (h : At job_id job history d) : Undisturbed job_id job history d d :=
  ⟨h, SameAt.refl job_id d.service, id⟩

theorem Undisturbed.tracker (h : At job_id job history d) (tracker : τ) :
    Undisturbed job_id job history d { d with tracker := tracker } :=
  ⟨h.congr rfl rfl rfl, SameAt.refl job_id d.service, id⟩

theorem undisturbed_ensure_completion_tracker (ctx : PollingContext τ) (h : At job_id job history d)
    (current : JobRecord) :
    Undisturbed job_id job history d (d.ensure_completion_tracker ctx current) := by
  unfold PollingDispatcher.ensure_completion_tracker
  split
  · exact Undisturbed.tracker h _
  · exact Undisturbed.refl h

theorem complete_other (h : At job_id job history d) {current : JobRecord}
    (hcurrent : d.get_job k = some current) (hne : job_id ≠ k) (decision : TerminalDecision)
    (now : Timestamp) :
    Returns (Undisturbed job_id job history d) (d.complete ctx k decision now) := by
  have hk : current.job_id = k := get_job_job_id hcurrent
  unfold PollingDispatcher.complete
  rw [hcurrent]
  simp only
  split
  · exact ⟨d, rfl, Undisturbed.refl h⟩
  · refine ⟨_, rfl, h.complete_other (by rwa [hk]) decision now, ?_, ?_⟩
    · exact sameAt_finish (by rwa [hk])
    · exact fun hd => bound_finish hd current.job_id

theorem complete_terminal (h : At job_id job history d) (hjob : job.status.terminal = true)
    (decision : TerminalDecision) (now : Timestamp) :
    d.complete ctx job_id decision now = .ok d := by
  unfold PollingDispatcher.complete
  rw [h.get_job]
  simp only [hjob, if_true]

theorem complete_own (h : At job_id job history d) (hjob : job.status.terminal = false)
    (decision : TerminalDecision) (now : Timestamp) :
    d.complete ctx job_id decision now = .ok (d.complete_current ctx job decision now) := by
  unfold PollingDispatcher.complete
  rw [h.get_job]
  simp only [hjob, Bool.false_eq_true, if_false]

def Done (ctx : PollingContext τ) (job_id : JobId) (job : JobRecord)
    (decision : TerminalDecision) (d : PollingDispatcher τ) : Prop :=
  ∃ tracker now, At job_id (PollingDispatcher.terminal_record ctx tracker job decision now)
    [decision] d

theorem done_of_complete (ctx : PollingContext τ) (h : At job_id job [] d)
    (hjob : job.status.terminal = false) (decision : TerminalDecision) (now : Timestamp) :
    Returns (fun d' => Done ctx job_id job decision d' ∧ (Bound d.service → Bound d'.service))
      (d.complete ctx job_id decision now) := by
  refine ⟨_, complete_own h hjob decision now, ⟨_, _, h.complete_own decision now⟩, ?_⟩
  exact fun hd => bound_finish hd job.job_id

theorem restore_current_job_other (hreg : KeepsBinding ctx.registry) (h : At job_id job history d)
    (hd : Bound d.service) (hne : job_id ≠ k) (now : Timestamp) :
    Returns (Undisturbed job_id job history d) (d.restore_current_job ctx k now) := by
  unfold PollingDispatcher.restore_current_job
  split
  · exact ⟨d, rfl, Undisturbed.refl h⟩
  rename_i current hcurrent
  have hk : current.job_id = k := get_job_job_id hcurrent
  split
  · exact ⟨d, rfl, Undisturbed.refl h⟩
  split
  · rw [hk]
    exact complete_other h hcurrent hne _ now
  unfold PollingDispatcher.restore_execution
  generalize hrestored : d.service.restore_submission ctx.registry current
    (ctx.runtime_context current.agent_name) now = restored
  have hframe := restore_submission_frame job_id hreg hd current
    (ctx.runtime_context current.agent_name) now
  rw [hrestored] at hframe
  have hservice : Undisturbed job_id job history d { d with service := restored.1 } :=
    ⟨h.congr rfl rfl rfl, hframe.2 (by rwa [hk]), fun _ => hframe.1⟩
  have htracker := undisturbed_ensure_completion_tracker ctx hservice.at_job current
  have hcompleted : ∀ (d' : PollingDispatcher τ) decision,
      Undisturbed job_id job history d d' → d'.get_job k = d.get_job k →
      Returns (Undisturbed job_id job history d) (d'.complete ctx current.job_id decision now) := by
    intro d' decision hd' hget
    rw [hk]
    exact (complete_other hd'.at_job (hget.trans hcurrent) hne decision now).mono
      fun d'' hd'' => hd'.trans hd''
  simp only
  split
  · refine hcompleted _ _ (hservice.trans htracker) ?_
    unfold PollingDispatcher.ensure_completion_tracker
    split <;> rfl
  · split
    · exact ⟨_, rfl, hservice.trans htracker⟩
    · exact hcompleted _ _ hservice rfl

/-- The items of the file that are not acknowledged can be replayed to a resumed
submission, or there are none. -/
def Replayable (ctx : PollingContext τ) (job : JobRecord) (now : Timestamp)
    (persisted : PersistedExecutionState) : Prop :=
  filter_pending_items persisted = [] ∨
  ∃ adapter submission, ctx.registry job.provider = some adapter ∧
    ExecutionService.resume_or_reason adapter job persisted
      (ctx.runtime_context job.agent_name <|> persisted.runtime_context) now
        = .ok submission

/-- The decision waits in the replay of an active submission. -/
structure Replaying (job_id : JobId) (decision : TerminalDecision) (s : ExecutionService) :
    Prop where
  active : (s.active.get job_id).isSome
  replay : ∃ items, s.pending_replays.get job_id = some (items, some decision)

variable {decision : TerminalDecision}

theorem Replaying.of_sameAt {s s' : ExecutionService}
    (h : Replaying job_id decision s) (hsame : SameAt job_id s s') :
    Replaying job_id decision s' := by
  refine ⟨?_, ?_⟩
  · rw [hsame.active]
    exact h.active
  · rw [hsame.replay]
    exact h.replay

/-- Where a restore leaves a job whose file holds a decision. -/
def Restored (ctx : PollingContext τ) (job_id : JobId) (job : JobRecord)
    (decision : TerminalDecision) (d : PollingDispatcher τ) : Prop :=
  Bound d.service ∧
    (Done ctx job_id job decision d ∨ At job_id job [] d ∧ Replaying job_id decision d.service)

variable {adapter : ProviderExecutionAdapter}

theorem restore_submission_holding {s : ExecutionService} {persisted : PersistedExecutionState}
    (hid : job.job_id = job_id) (h : Holding job_id job.provider decision s)
    (hload : s.load job_id = some persisted) (hadapter : ctx.registry job.provider = some adapter)
    (context : Option ProviderRuntimeContext) (now : Timestamp) :
    s.restore_submission ctx.registry job context now =
      s.restore_persisted ctx.registry job adapter persisted context now := by
  obtain ⟨persisted', hload', _, hprovider⟩ := h.file
  rw [hload] at hload'
  cases hload'
  obtain ⟨store, hstore, _⟩ := Option.bind_eq_some_iff.mp hload
  unfold ExecutionService.restore_submission
  rw [hid, h.inactive, hstore, hadapter, hload]
  simp [hprovider]

section

variable (hreg : KeepsBinding ctx.registry)

include hreg

/-- Without items to replay, the restore completes the job; else the decision waits in the
replay of the resumed submission. -/
theorem restore_current_job_own (h : At job_id job [] d)
    (hrunning : job.status = .running) (hdelivery : MessageBureau.is_reply_delivery job = false)
    (hholding : Holding job_id job.provider decision d.service)
    {persisted : PersistedExecutionState} (hload : d.service.load job_id = some persisted)
    (hadapter : ctx.registry job.provider = some adapter)
    {now : Timestamp} (hreplayable : Replayable ctx job now persisted) :
    Returns (Restored ctx job_id job decision) (d.restore_current_job ctx job_id now) := by
  have hid := h.job_id_eq
  have hopen : job.status.terminal = false := by
    rw [hrunning]
    rfl
  have hpending : persisted.pending_decision = some decision := by
    obtain ⟨persisted', hload', hpending, _⟩ := hholding.file
    rw [hload] at hload'
    cases hload'
    exact hpending
  have hframe := restore_submission_frame job_id hreg hholding.bound job
    (ctx.runtime_context job.agent_name) now
  unfold PollingDispatcher.restore_current_job
  rw [h.get_job]
  simp only [hrunning, ne_eq, not_true_eq_false, if_false, hdelivery, Bool.false_eq_true]
  unfold PollingDispatcher.restore_execution
  rw [restore_submission_holding hid hholding hload hadapter] at hframe ⊢
  unfold ExecutionService.restore_persisted at hframe ⊢
  by_cases hitems : filter_pending_items persisted = []
  · simp only [hpending, hitems, Option.isSome_some, List.isEmpty_nil, Bool.and_true,
      if_true] at hframe ⊢
    rw [hid] at hframe ⊢
    have hservice : At job_id job [] { d with
        service := d.service.recover_pending_items job_id persisted } :=
      h.congr rfl rfl rfl
    have htracker := undisturbed_ensure_completion_tracker ctx hservice job
    refine (done_of_complete ctx htracker.at_job hopen decision now).mono ?_
    intro d' hd'
    exact ⟨hd'.2 (htracker.bound hframe.1), Or.inl hd'.1⟩
  · obtain ⟨adapter', submission, hadapter', hresume⟩ := hreplayable.resolve_left hitems
    rw [hadapter] at hadapter'
    cases hadapter'
    have hempty : (filter_pending_items persisted).isEmpty = false := by
      simpa using hitems
    have hrestart : ExecutionService.restarted_runtime_without_pending_result adapter
        persisted (filter_pending_items persisted)
        (ctx.runtime_context job.agent_name <|> persisted.runtime_context) = false := by
      simp [ExecutionService.restarted_runtime_without_pending_result, hempty]
    have hrecovered := recover_pending_items_frame job_id job.job_id hholding.bound persisted
    have hjob := resume_or_reason_binding hreg hholding.bound hadapter (hid.symm ▸ hload) hresume
    have hpersisted := persist_restored_submission_frame ctx.registry job_id hrecovered.1
      hjob (ctx.runtime_context job.agent_name <|> persisted.runtime_context) persisted
      (filter_pending_items persisted) rfl
    simp only [hpending, hempty, Bool.and_false, Bool.false_eq_true, if_false,
      ExecutionService.restore_recovered, hrestart, hresume, ExecutionService.restored_result,
      ExecutionRestoreResult.restored, if_true] at hframe ⊢
    generalize hservice : (d.service.recover_pending_items job.job_id persisted
      ).persist_restored_submission ctx.registry job.job_id submission
        (ctx.runtime_context job.agent_name <|> persisted.runtime_context) persisted
        (filter_pending_items persisted) = service at hframe hpersisted ⊢
    have hat : At job_id job [] { d with service := service } := h.congr rfl rfl rfl
    have htracker := undisturbed_ensure_completion_tracker ctx hat job
    refine ⟨_, rfl, htracker.bound hframe.1, Or.inr ⟨htracker.at_job, ?_⟩⟩
    refine Replaying.of_sameAt ⟨?_, filter_pending_items persisted, ?_⟩ htracker.service
    · rw [← hid, hpersisted.2.2.1]
      rfl
    · show service.pending_replays.get job_id = _
      rw [hpersisted.2.2.2]
      unfold ExecutionService.recover_pending_items
      rw [hempty, ← hpending, hid]
      exact Dict.get_set_self _ _ _

theorem restore_current_job_done (h : Done ctx job_id job decision d) (hbound : Bound d.service)
    (now : Timestamp) : Returns (fun d' => Done ctx job_id job decision d' ∧ Bound d'.service)
      (d.restore_current_job ctx k now) := by
  obtain ⟨tracker, time, hdone⟩ := h
  by_cases hk : job_id = k
  · subst hk
    have hterminal := PollingDispatcher.terminal_record_terminal ctx tracker job decision time
    have hstopped : (PollingDispatcher.terminal_record ctx tracker job decision time).status
        ≠ .running := by
      intro hstatus
      rw [hstatus] at hterminal
      cases hterminal
    unfold PollingDispatcher.restore_current_job
    rw [hdone.get_job]
    simp only [if_pos hstopped]
    exact ⟨d, rfl, ⟨tracker, time, hdone⟩, hbound⟩
  · refine (restore_current_job_other hreg hdone hbound hk now).mono ?_
    intro d' hd'
    exact ⟨⟨tracker, time, hd'.at_job⟩, hd'.bound hbound⟩

/-- Restoring a job again that is done, or active again. -/
theorem restore_current_job_restored
    (hrunning : job.status = .running) (hdelivery : MessageBureau.is_reply_delivery job = false)
    (h : Restored ctx job_id job decision d) (now : Timestamp) :
    Returns (Restored ctx job_id job decision) (d.restore_current_job ctx k now) := by
  obtain ⟨hbound, hdone | ⟨hat, hreplaying⟩⟩ := h
  · exact (restore_current_job_done hreg hdone hbound now).mono
      fun d' hd' => ⟨hd'.2, Or.inl hd'.1⟩
  · by_cases hk : job_id = k
    · subst hk
      have htracker := undisturbed_ensure_completion_tracker ctx hat job
      unfold PollingDispatcher.restore_current_job
      rw [hat.get_job]
      simp only [hrunning, ne_eq, not_true_eq_false, if_false, hdelivery, Bool.false_eq_true]
      unfold PollingDispatcher.restore_execution ExecutionService.restore_submission
      rw [hat.job_id_eq, if_pos hreplaying.active]
      refine ⟨_, rfl, htracker.bound hbound, Or.inr ⟨htracker.at_job, ?_⟩⟩
      exact hreplaying.of_sameAt htracker.service
    · refine (restore_current_job_other hreg hat hbound hk now).mono ?_
      intro d' hd'
      exact ⟨hd'.bound hbound, Or.inr ⟨hd'.at_job, hreplaying.of_sameAt hd'.service⟩⟩

theorem restore_running_jobs_restores (h : At job_id job [] d) (hrunning : job.status = .running)
    (hdelivery : MessageBureau.is_reply_delivery job = false)
    (hholding : Holding job_id job.provider decision d.service)
    {persisted : PersistedExecutionState} (hload : d.service.load job_id = some persisted)
    (hadapter : ctx.registry job.provider = some adapter)
    {now : Timestamp} (hreplayable : Replayable ctx job now persisted)
    (hitem : ∃ item ∈ d.state.active_items, item.2 = job_id) :
    Returns (Restored ctx job_id job decision) (d.restore_running_jobs ctx now) := by
  unfold PollingDispatcher.restore_running_jobs
  refine Returns.foldlM_reach (P := fun d => At job_id job [] d ∧
      Holding job_id job.provider decision d.service ∧
      d.service.load job_id = some persisted) (T := fun item => item.2 = job_id)
    ?_ ?_ ?_ hitem ⟨h, hholding, hload⟩
  · rintro d item - ⟨hat, hheld, hfile⟩ hne
    refine (restore_current_job_other hreg hat hheld.bound (Ne.symm hne) now).mono ?_
    intro d' hd'
    refine ⟨hd'.at_job, hheld.of_sameAt (hd'.bound hheld.bound) hd'.service, ?_⟩
    exact hd'.service.load.trans hfile
  · rintro d item - ⟨hat, hheld, hfile⟩ heq
    rw [heq]
    exact restore_current_job_own hreg hat hrunning hdelivery hheld hfile hadapter hreplayable
  · intro d item _ hrestored
    exact restore_current_job_restored hreg hrunning hdelivery hrestored now

/-- A running reply delivery is handed to `complete` with the failed decision. -/
theorem restore_running_jobs_requeues (h : At job_id job [] d) (hrunning : job.status = .running)
    (hdelivery : MessageBureau.is_reply_delivery job = true) (hbound : Bound d.service)
    (now : Timestamp) (hitem : ∃ item ∈ d.state.active_items, item.2 = job_id) :
    Returns (Done ctx job_id job
      (reply_delivery_failed_decision now "reply_delivery_restart_requeued"))
      (d.restore_running_jobs ctx now) := by
  have hopen : job.status.terminal = false := by
    rw [hrunning]
    rfl
  have hloop : Returns (fun d' => Done ctx job_id job
      (reply_delivery_failed_decision now "reply_delivery_restart_requeued") d' ∧
        Bound d'.service) (d.restore_running_jobs ctx now) := by
    unfold PollingDispatcher.restore_running_jobs
    refine Returns.foldlM_reach (P := fun d => At job_id job [] d ∧ Bound d.service)
      (T := fun item => item.2 = job_id) ?_ ?_ ?_ hitem ⟨h, hbound⟩
    · rintro d item - ⟨hat, hd⟩ hne
      refine (restore_current_job_other hreg hat hd (Ne.symm hne) now).mono ?_
      intro d' hd'
      exact ⟨hd'.at_job, hd'.bound hd⟩
    · rintro d item - ⟨hat, hd⟩ heq
      unfold PollingDispatcher.restore_current_job
      rw [heq, hat.get_job]
      simp only [hrunning, ne_eq, not_true_eq_false, if_false, hdelivery, if_true]
      rw [hat.job_id_eq]
      exact (done_of_complete ctx hat hopen _ now).mono fun d' hd' => ⟨hd'.1, hd'.2 hd⟩
    · rintro d item - ⟨hdone, hd⟩
      exact restore_current_job_done hreg hdone hd now
  exact hloop.mono fun d' hd' => hd'.1

end

theorem ingest_update_items_at (ctx : PollingContext τ) (h : At job_id job history d)
    (current : JobRecord) (update : ExecutionUpdate) :
    At job_id job history (d.ingest_update_items ctx current update).1 := by
  simp only [PollingDispatcher.ingest_update_items]
  split <;> exact h.congr rfl rfl rfl

theorem ingest_update_items_get_job (ctx : PollingContext τ) (current : JobRecord)
    (update : ExecutionUpdate) :
    (d.ingest_update_items ctx current update).1.get_job k = d.get_job k := by
  simp only [PollingDispatcher.ingest_update_items]
  split <;> rfl

theorem handle_update_other (h : At job_id job history d) {update : ExecutionUpdate}
    (hne : job_id ≠ update.job_id) (now : Timestamp) :
    Returns (fun handled => At job_id job history handled.1) (d.handle_update ctx update now) := by
  unfold PollingDispatcher.handle_update
  split
  · exact ⟨_, rfl, h.congr rfl rfl rfl⟩
  rename_i current hcurrent
  split
  · exact ⟨_, rfl, h.congr rfl rfl rfl⟩
  have hingested := ingest_update_items_at ctx h current update
  simp only
  split
  · rename_i decision _
    have hget := (ingest_update_items_get_job ctx current update).trans hcurrent
    exact (complete_other hingested hget hne decision now).bind
      fun d' hd' => ⟨_, rfl, hd'.at_job⟩
  · exact ⟨_, rfl, hingested.congr rfl rfl rfl⟩

theorem handle_update_terminal (h : At job_id job history d)
    (hjob : job.status.terminal = true) (update : ExecutionUpdate) (now : Timestamp) :
    Returns (fun handled => At job_id job history handled.1) (d.handle_update ctx update now) := by
  by_cases hne : job_id = update.job_id
  · unfold PollingDispatcher.handle_update
    rw [← hne, h.get_job]
    simp only [hjob, if_true]
    exact ⟨_, rfl, h.congr rfl rfl rfl⟩
  · exact handle_update_other h hne now

theorem acceptance_gate_none (reply_delivery : Bool) (decision : CompletionDecision) :
    acceptance_gate none reply_delivery decision = decision := by
  unfold acceptance_gate
  cases decision.status <;> rfl

theorem handle_update_replay (h : At job_id job [] d) (hopen : job.status.terminal = false)
    (hdelivery : MessageBureau.is_reply_delivery job = false)
    (hannotated : annotate_completion_authority none decision = decision) {update : ExecutionUpdate}
    (hjob : update.job_id = job_id) (hdecision : update.decision = some decision)
    (hsubmission : update.submission = none) (now : Timestamp) :
    Returns (fun handled => Done ctx job_id job decision handled.1)
      (d.handle_update ctx update now) := by
  have hvalid : validated none decision job = decision := by
    apply Subtype.ext
    show validate_provider_completion_decision none decision job = decision
    unfold validate_provider_completion_decision
    simp only [hdelivery, Bool.false_eq_true, if_false, hannotated, acceptance_gate_none]
  have hresolved : ∀ tracked, PollingDispatcher.resolve_update_decision update tracked job
      = some decision := by
    intro tracked
    unfold PollingDispatcher.resolve_update_decision
    rw [hdecision, hsubmission]
    exact congrArg some hvalid
  have hingested := ingest_update_items_at ctx h job update
  unfold PollingDispatcher.handle_update
  rw [hjob, h.get_job]
  simp only [hopen, Bool.false_eq_true, if_false, hresolved]
  refine (done_of_complete ctx hingested hopen decision now).bind ?_
  exact fun d' hd' => ⟨_, rfl, hd'.1⟩

theorem tick_tracker_keeps (h : At job_id job history d)
    (hjob : job.status.terminal = true) (completed_ids : List JobId) (now : Timestamp) :
    Returns (At job_id job history) (d.tick_tracker ctx completed_ids now) := by
  simp only [PollingDispatcher.tick_tracker]
  refine Returns.foldlM ?_ (h.congr rfl rfl rfl)
  intro d tracked _ hd
  unfold PollingDispatcher.handle_tracked
  split
  · exact ⟨d, rfl, hd⟩
  rename_i current hcurrent
  split
  · exact ⟨d, rfl, hd⟩
  split
  · exact ⟨d, rfl, hd⟩
  · by_cases hne : job_id = tracked.1
    · rw [← hne, complete_terminal hd hjob]
      exact ⟨d, rfl, hd⟩
    · exact (complete_other hd hcurrent hne _ now).mono fun d' hd' => hd'.at_job

theorem process_active_job_updates {registry : ProviderExecutionRegistry} {s : ExecutionService}
    {submission : ProviderSubmission} {now : Timestamp} {update : ExecutionUpdate}
    (h : update ∈ (s.process_active_job registry k submission now).2) : update.job_id = k := by
  obtain ⟨adapter, result, _, _, _, hrecord⟩ := process_active_job_recorded h
  rw [hrecord] at h
  rcases record_result_cases registry s k (annotate_poll_result_authority result)
    with ⟨_, _, hnone⟩ | ⟨decision, persisted, _, _, hfinal⟩
  · exact (hnone update h).1
  · rw [hfinal] at h
    rw [List.mem_singleton.mp h]

theorem process_active_jobs_updates {registry : ProviderExecutionRegistry} {s : ExecutionService}
    {now : Timestamp} {items : List (JobId × ProviderSubmission)} {update : ExecutionUpdate}
    (h : update ∈ (s.process_active_jobs registry now items).2) :
    ∃ item ∈ items, update.job_id = item.1 := by
  have hfold : ∀ (s : ExecutionService) (updates : List ExecutionUpdate),
      update ∈ (items.foldl (fun acc item =>
        ((acc.1.process_active_job registry item.1 item.2 now).1,
          acc.2 ++ (acc.1.process_active_job registry item.1 item.2 now).2))
        (s, updates)).2 →
      update ∈ updates ∨ ∃ item ∈ items, update.job_id = item.1 := by
    clear h
    induction items with
    | nil => exact fun s updates h => Or.inl h
    | cons item items ih =>
      intro s updates h
      rw [List.foldl_cons] at h
      rcases ih _ _ h with h | ⟨later, hlater, heq⟩
      · rcases List.mem_append.mp h with h | h
        · exact Or.inl h
        · exact Or.inr ⟨item, List.mem_cons_self, process_active_job_updates h⟩
      · exact Or.inr ⟨later, List.mem_cons_of_mem item hlater, heq⟩
  rcases hfold s [] h with h | h
  · exact absurd h List.not_mem_nil
  · exact h

/-- A poll reports the replay of the job, and nothing else of it. -/
theorem poll_updates_replay (registry : ProviderExecutionRegistry) {s : ExecutionService}
    (h : Replaying job_id decision s) (now : Timestamp) :
    (∃ update ∈ (s.poll_updates registry now).2, update.job_id = job_id) ∧
      ∀ update ∈ (s.poll_updates registry now).2, update.job_id = job_id →
        update.decision = some decision ∧ update.submission = none := by
  obtain ⟨items, hreplay⟩ := h.replay
  have hmem : (⟨job_id, items, some decision, none⟩ : ExecutionUpdate) ∈
      s.drain_pending_replays.2 :=
    List.mem_map.mpr ⟨(job_id, items, some decision), Dict.mem_of_get hreplay, rfl⟩
  constructor
  · exact ⟨_, List.mem_append_left _ hmem, rfl⟩
  · intro update hupdate hjob
    rcases List.mem_append.mp hupdate with hdrained | hpolled
    · obtain ⟨replay, hin, rfl⟩ := List.mem_map.mp hdrained
      obtain ⟨k, items', decision'⟩ := replay
      have hk : k = job_id := hjob
      subst hk
      rw [Dict.get_of_mem hin] at hreplay
      cases hreplay
      exact ⟨rfl, rfl⟩
    · obtain ⟨item, hitem, heq⟩ := process_active_jobs_updates hpolled
      have hskipped := (List.mem_filter.mp hitem).2
      rw [← heq, hjob] at hskipped
      have hany : (s.drain_pending_replays.2.any fun update => update.job_id = job_id)
          = true := List.any_eq_true.mpr ⟨_, hmem, by simp⟩
      rw [hany] at hskipped
      cases hskipped

theorem poll_done {now : Timestamp}
    (h : Returns (fun handled => Done ctx job_id job decision handled.1)
      ({ d with service := (d.service.poll_updates ctx.registry now).1 }.handle_updates ctx
        (d.service.poll_updates ctx.registry now).2 now)) :
    Returns (Done ctx job_id job decision) (d.poll_completion_updates ctx now) := by
  refine h.bind fun handled hd => ?_
  obtain ⟨tracker, time, hat⟩ := hd
  have hterminal := PollingDispatcher.terminal_record_terminal ctx tracker job decision time
  exact (tick_tracker_keeps hat hterminal handled.2 now).mono
    fun d' hd' => ⟨tracker, time, hd'⟩

theorem poll_keeps (h : Done ctx job_id job decision d) (now : Timestamp) :
    Returns (Done ctx job_id job decision) (d.poll_completion_updates ctx now) := by
  obtain ⟨tracker, time, hat⟩ := h
  have hterminal := PollingDispatcher.terminal_record_terminal ctx tracker job decision time
  have hpolled : At job_id
      (PollingDispatcher.terminal_record ctx tracker job decision time) [decision]
      { d with service := (d.service.poll_updates ctx.registry now).1 } :=
    hat.congr rfl rfl rfl
  refine poll_done (Returns.mono (P := fun handled => At job_id
    (PollingDispatcher.terminal_record ctx tracker job decision time) [decision] handled.1) ?_
    fun handled hd => ⟨tracker, time, hd⟩)
  unfold PollingDispatcher.handle_updates
  refine Returns.foldlM ?_ hpolled
  intro acc update _ hacc
  exact (handle_update_terminal hacc hterminal update now).bind
    fun handled hhandled => ⟨_, rfl, hhandled⟩

/-- The first poll takes the replayed decision to `complete`. -/
theorem poll_replays (ctx : PollingContext τ) (h : At job_id job [] d)
    (hopen : job.status.terminal = false) (hdelivery : MessageBureau.is_reply_delivery job = false)
    (hannotated : annotate_completion_authority none decision = decision)
    (hreplaying : Replaying job_id decision d.service) (now : Timestamp) :
    Returns (Done ctx job_id job decision) (d.poll_completion_updates ctx now) := by
  obtain ⟨hexists, honly⟩ := poll_updates_replay ctx.registry hreplaying now
  have hpolled : At job_id job []
      { d with service := (d.service.poll_updates ctx.registry now).1 } :=
    h.congr rfl rfl rfl
  apply poll_done
  unfold PollingDispatcher.handle_updates
  refine Returns.foldlM_reach
    (P := fun (acc : PollingDispatcher τ × List JobId) => At job_id job [] acc.1)
    (T := fun update => update.job_id = job_id) ?_ ?_ ?_ hexists hpolled
  · intro acc update _ hacc hne
    exact (handle_update_other hacc (Ne.symm hne) now).bind
      fun handled hhandled => ⟨_, rfl, hhandled⟩
  · intro acc update hupdate hacc hjob
    obtain ⟨hdecision, hsubmission⟩ := honly update hupdate hjob
    exact (handle_update_replay hacc hopen hdelivery hannotated hjob hdecision hsubmission
      now).bind fun handled hhandled => ⟨_, rfl, hhandled⟩
  · rintro acc update - ⟨tracker, time, hacc⟩
    have hterminal := PollingDispatcher.terminal_record_terminal ctx tracker job decision
      time
    exact (handle_update_terminal hacc hterminal update now).bind
      fun handled hhandled => ⟨_, rfl, tracker, time, hhandled⟩

theorem polls_keep (h : Done ctx job_id job decision d) (polls : List Timestamp) :
    Returns (Done ctx job_id job decision)
      (polls.foldlM (fun d now => d.poll_completion_updates ctx now) d) :=
  Returns.foldlM (fun _ now _ hd => poll_keeps hd now) h

structure RunningJob (jobs : List JobRecord) (agent_names : List AgentName) (job_id : JobId)
    (job : JobRecord) : Prop where
  latest : latest? (fun r => r.job_id) job_id (list_agent jobs job.agent_name) = some job
  running : job.status = .running
  owner : ∀ r ∈ jobs, r.job_id = job_id → r.agent_name = job.agent_name
  alone : ∀ r ∈ collapse (fun r => r.job_id) (list_agent jobs job.agent_name),
    r.status = .running → r.job_id = job_id
  agent : job.agent_name ∈ agent_names

variable {jobs : List JobRecord}

theorem RunningJob.owned {agent_names : List AgentName}
    (h : RunningJob jobs agent_names job_id job) (name : AgentName) :
    job_id ∈ DispatcherState.job_order (list_agent jobs name) ↔ name = job.agent_name := by
  unfold DispatcherState.job_order
  rw [mem_keys_collapse]
  constructor
  · intro hmem
    obtain ⟨r, hr, hid⟩ := List.mem_map.mp hmem
    obtain ⟨hjobs, hname⟩ := List.mem_filter.mp hr
    rw [← h.owner r hjobs hid]
    exact (of_decide_eq_true hname).symm
  · rintro rfl
    by_contra hnone
    rw [← latest?_eq_none_iff, h.latest] at hnone
    cases hnone

theorem RunningJob.jobs_with_running {agent_names : List AgentName}
    (h : RunningJob jobs agent_names job_id job) :
    DispatcherState.jobs_with (fun status => status = .running)
      (list_agent jobs job.agent_name) = [job_id] := by
  have hmem := (latest?_eq_some_iff _).mp h.latest
  have hnodup : (DispatcherState.jobs_with (fun status => status = .running)
      (list_agent jobs job.agent_name)).Nodup :=
    (collapse_nodup (fun (r : JobRecord) => r.job_id) _).sublist (List.filter_sublist.map _)
  have honly : ∀ k ∈ DispatcherState.jobs_with (fun status => status = .running)
      (list_agent jobs job.agent_name), k = job_id := by
    intro k hk
    obtain ⟨r, hr, rfl⟩ := List.mem_map.mp hk
    obtain ⟨hstanding, hrunning⟩ := List.mem_filter.mp hr
    exact h.alone r hstanding (of_decide_eq_true hrunning)
  have hin : job_id ∈ DispatcherState.jobs_with (fun status => status = .running)
      (list_agent jobs job.agent_name) := by
    refine List.mem_map.mpr ⟨job, List.mem_filter.mpr ⟨hmem.1, ?_⟩, hmem.2⟩
    exact decide_eq_true h.running
  have hlength := List.eq_replicate_of_mem honly
  rw [hlength] at hnodup hin ⊢
  have hle := List.nodup_replicate.mp hnodup
  have hpos := (List.mem_replicate.mp hin).1
  have hone : (DispatcherState.jobs_with (fun status => status = .running)
      (list_agent jobs job.agent_name)).length = 1 := by omega
  rw [hone]
  rfl

theorem restarted_pending {agent_names : List AgentName}
    (h : RunningJob jobs agent_names job_id job)
    (store : Option (Dict JobId PersistedExecutionState))
    (mailbox_order : AgentName → List JobId) (tracker : τ) :
    At job_id job [] (PollingDispatcher.restarted jobs store agent_names mailbox_order
        tracker) ∧
      ∃ item ∈ (PollingDispatcher.restarted jobs store agent_names mailbox_order
        tracker).state.active_items, item.2 = job_id := by
  refine ⟨⟨?_, h.latest, rfl⟩, ?_⟩
  · exact DispatcherState.rebuild_target_for_job h.owned h.agent
  · have hactive := DispatcherState.rebuild_active_job_for mailbox_order
      h.jobs_with_running h.agent
    exact ⟨_, Dict.mem_of_get hactive, rfl⟩

theorem holding_restarted {s : ExecutionService} {provider : ProviderName}
    (h : Holding job_id provider decision s) :
    Holding job_id provider decision (ExecutionService.init s.state_store) :=
  ⟨⟨h.bound.file, fun _ _ hactive => by cases hactive⟩, rfl, h.file⟩

theorem annotate_completion_authority_facts (submission : Option ProviderSubmission)
    (decision : CompletionDecision) :
    (annotate_completion_authority submission decision).source_kind = decision.source_kind ∧
      (annotate_completion_authority submission decision).diagnostics
        = annotated_diagnostics submission decision ∧
      ((annotate_completion_authority submission decision).status = .completed →
        declares_herdr_agent_state_authority (annotated_diagnostics submission decision)
          = false) := by
  simp only [annotate_completion_authority]
  split
  · exact ⟨rfl, rfl, fun h => by cases h⟩
  · rename_i hdeclared
    refine ⟨rfl, rfl, ?_⟩
    intro hcompleted
    rw [Bool.and_eq_true, not_and] at hdeclared
    simpa using hdeclared (decide_eq_true hcompleted)

theorem annotated_diagnostics_idem {submission : ProviderSubmission}
    {decision annotated : CompletionDecision}
    (hsource : annotated.source_kind = decision.source_kind)
    (hdiagnostics : annotated.diagnostics = annotated_diagnostics (some submission) decision) :
    annotated_diagnostics none annotated = annotated.diagnostics := by
  unfold annotated_diagnostics at hdiagnostics ⊢
  rw [hsource]
  cases hkind : decision.source_kind with
  | none => rfl
  | some source_kind =>
    rw [hkind] at hdiagnostics
    rw [hdiagnostics]
    obtain ⟨_, _, _, completion_source_kind, completion_source⟩ := decision.diagnostics
    cases completion_source_kind <;> cases completion_source <;> rfl

theorem annotate_completion_authority_idem (submission : ProviderSubmission)
    (decision : CompletionDecision) :
    annotate_completion_authority none (annotate_completion_authority (some submission) decision) =
      annotate_completion_authority (some submission) decision := by
  obtain ⟨hsource, hdiagnostics, hundeclared⟩ :=
    annotate_completion_authority_facts (some submission) decision
  generalize annotate_completion_authority (some submission) decision = annotated at *
  have hsame := annotated_diagnostics_idem hsource hdiagnostics
  simp only [annotate_completion_authority, hsame]
  rw [if_neg]
  rw [Bool.and_eq_true, not_and, hdiagnostics]
  intro hcompleted
  rw [hundeclared (of_decide_eq_true hcompleted)]
  exact Bool.false_ne_true

theorem process_active_job_annotated {registry : ProviderExecutionRegistry} {s : ExecutionService}
    {submission : ProviderSubmission} {now : Timestamp} {update : ExecutionUpdate}
    (h : update ∈ (s.process_active_job registry k submission now).2)
    (hdecision : update.decision = some decision) :
    annotate_completion_authority none decision = decision ∧
      (registry submission.provider).isSome := by
  obtain ⟨adapter, result, _, hadapter, _, hrecord⟩ := process_active_job_recorded h
  rw [hrecord] at h
  refine ⟨?_, by rw [hadapter]; rfl⟩
  rcases record_result_cases registry s k (annotate_poll_result_authority result)
    with ⟨_, _, hnone⟩ | ⟨recorded, persisted, hrecorded, _, hfinal⟩
  · rw [(hnone update h).2] at hdecision
    cases hdecision
  · rw [hfinal] at h
    rw [List.mem_singleton.mp h] at hdecision
    cases hdecision
    obtain ⟨first, _, hfirst⟩ := Option.map_eq_some_iff.mp hrecorded
    rw [← hfirst]
    exact annotate_completion_authority_idem _ _

/-- **A persisted decision survives a restart.**  Once a poll has handed on a terminal
decision, the job's file holds it at every later stop.  A restart completes a running job
with exactly that decision if no item of the file is unacknowledged or the adapter resumes
the submission; a reply delivery it completes with the failed decision of a requeue.

SOURCE: lib/provider_execution/service_runtime/restore.py:20-74,
lib/ccbd/services/dispatcher_runtime/restore_runtime/execution.py:32-126 -/
theorem persisted_decision_completes {τ : Type} (ctx : PollingContext τ)
    (hreg : KeepsBinding ctx.registry) (s : ExecutionService) (hs : Bound s)
    (hstore : s.state_store.isSome) (jobs : List JobRecord) (agent_names : List AgentName)
    (mailbox_order : AgentName → List JobId) (job_id : JobId) (job : JobRecord)
    (hjob : RunningJob jobs agent_names job_id job) (submission : ProviderSubmission)
    (hprovider : submission.provider = job.provider) (polled_at : Timestamp)
    (update : ExecutionUpdate) (decision : TerminalDecision)
    (hupdate : update ∈ (s.process_active_job ctx.registry job_id submission polled_at).2)
    (hdecision : update.decision = some decision) (steps : List ServiceStep)
    (hsteps : ∀ step ∈ steps, step.spares job_id) (stopped : ExecutionService)
    (hstopped : stopped = steps.foldl (ServiceStep.run ctx.registry)
      (s.process_active_job ctx.registry job_id submission polled_at).1)
    (tracker : τ) (now poll : Timestamp) (polls : List Timestamp) :
    ∃ persisted, stopped.load job_id = some persisted ∧
      persisted.pending_decision = some decision ∧
      (MessageBureau.is_reply_delivery job = false → Replayable ctx job now persisted →
        Returns (Done ctx job_id job decision)
          ((PollingDispatcher.restarted jobs stopped.state_store agent_names mailbox_order
            tracker).restore_and_poll ctx now (poll :: polls))) ∧
      (MessageBureau.is_reply_delivery job = true →
        Returns (Done ctx job_id job
            (reply_delivery_failed_decision now "reply_delivery_restart_requeued"))
          ((PollingDispatcher.restarted jobs stopped.state_store agent_names mailbox_order
            tracker).restore_and_poll ctx now (poll :: polls))) := by
  obtain ⟨hannotated, hadapter⟩ := process_active_job_annotated hupdate hdecision
  obtain ⟨adapter, hadapter⟩ := Option.isSome_iff_exists.mp hadapter
  rw [hprovider] at hadapter
  have hpersisted := process_active_job_holds hreg hs hstore hupdate hdecision
  rw [hprovider] at hpersisted
  have hheld : Holding job_id job.provider decision stopped := by
    rw [hstopped]
    exact run_holds hreg hpersisted hsteps
  have hholding := holding_restarted hheld
  obtain ⟨hat, hitem⟩ := restarted_pending hjob stopped.state_store mailbox_order tracker
  obtain ⟨persisted, hload, hpending, _⟩ := hheld.file
  have hopen : job.status.terminal = false := by
    rw [hjob.running]
    rfl
  refine ⟨persisted, hload, hpending, ?_, ?_⟩
  · intro hdelivery hreplayable
    have hrestored := restore_running_jobs_restores hreg hat hjob.running hdelivery hholding
      hload hadapter hreplayable hitem
    refine hrestored.bind fun d hd => ?_
    rw [List.foldlM_cons]
    rcases hd with ⟨_, hdone | ⟨hwaiting, hreplaying⟩⟩
    · exact (poll_keeps hdone poll).bind fun d' hd' => polls_keep hd' polls
    · have hfirst := poll_replays ctx hwaiting hopen hdelivery hannotated hreplaying poll
      exact hfirst.bind fun d' hd' => polls_keep hd' polls
  · intro hdelivery
    have hrequeued := restore_running_jobs_requeues hreg hat hjob.running hdelivery
      hholding.bound now hitem
    exact hrequeued.bind fun d hd => polls_keep hd (poll :: polls)

end Dispatcher

/-- An adapter that ends each submission at its first poll and does not resume. -/
def finishingAdapter : ProviderExecutionAdapter where
  poll submission now := some ⟨submission, [⟨.result, now, some 1⟩], some
    ⟨{ terminal := true
       status := .completed
       reason := "task_complete"
       reply := "done"
       anchor_seen := true
       source_kind := some .protocol_event_stream
       finished_at := some now
       diagnostics := Diagnostics.empty }, rfl⟩⟩
  export_runtime_state := none
  resume := none
  restart_resume_supported := false
  completion_reliability_policy := none

/-- A dispatcher without completion tracker whose agents all use that adapter. -/
def finishingContext : PollingContext Unit where
  registry _ := some finishingAdapter
  tracker :=
    { start := fun tracker _ => tracker
      current := fun _ _ => none
      ingest := fun tracker _ _ => tracker
      finish := fun tracker _ => tracker
      tick_all := fun tracker _ => (tracker, []) }
  runtime_context _ := none
  settle _ _ decision _ := decision

def runningJob (message_type : MessageType) : JobRecord :=
  { job_id := 0
    submission_id := none
    agent_name := 0
    provider := "fake"
    request := ⟨some 0, .user, "", none, none, message_type, .single, false, RouteOptions.empty⟩
    status := .running
    terminal_decision := none
    cancel_requested_at := none
    created_at := 0
    updated_at := 0
    provider_options := ProviderOptions.empty }

def runningSubmission : ProviderSubmission :=
  ⟨0, "fake", 0, 0, .protocol_event_stream, "", .incomplete, "in_progress", Diagnostics.empty,
    RuntimeState.empty⟩

def runningService : ExecutionService :=
  activated (ExecutionService.init (some Dict.empty)) 0 runningSubmission

def finishingPoll : ExecutionService × List ExecutionUpdate :=
  runningService.process_active_job finishingContext.registry 0 runningSubmission 7

def finishedDecision : TerminalDecision :=
  ⟨{ terminal := true
     status := .completed
     reason := "task_complete"
     reply := "done"
     anchor_seen := true
     source_kind := some .protocol_event_stream
     finished_at := some 7
     diagnostics := { Diagnostics.empty with
       completion_source_kind := some (.kind .protocol_event_stream)
       completion_source := some .provider_event_stream } }, rfl⟩

def completionsAfterRestart (message_type : MessageType) (stopped : ExecutionService) :
    Option (List (JobId × TerminalDecision)) :=
  ((PollingDispatcher.restarted [runningJob message_type] stopped.state_store [0]
    (fun _ => []) ()).restore_and_poll finishingContext 9 [10]).toOption.map
      fun d => d.completions

/-- **A persisted decision can be lost.**  The file of job 0 holds its decision; if its only
item is not acknowledged, the restart completes the job as one to resubmit, and a reply
delivery is completed as requeued even with the item acknowledged.

SOURCE: lib/provider_execution/service_runtime/restore_helpers.py:115-134 -/
theorem persisted_decision_dropped :
    ((finishingPoll.1.load 0).bind fun persisted => persisted.pending_decision)
        = some finishedDecision ∧
      completionsAfterRestart .ask finishingPoll.1 = some [(0, failed_restore_decision
        ⟨0, .abandoned, "provider_resume_unsupported", false, 1, none⟩ 9)] ∧
      (failed_restore_decision
        ⟨0, .abandoned, "provider_resume_unsupported", false, 1, none⟩ 9).val.reason
          = "ccbd_restart_requires_resubmit" ∧
      completionsAfterRestart .reply_delivery (finishingPoll.1.acknowledge_item 0 (some 1))
        = some [(0, reply_delivery_failed_decision 9 "reply_delivery_restart_requeued")] := by
  decide

theorem finishingContext_keepsBinding : KeepsBinding finishingContext.registry := by
  refine ⟨?_, ?_⟩
  · intro provider adapter submission now result hadapter hpoll
    cases hadapter
    cases hpoll
    exact ⟨rfl, rfl⟩
  · intro provider adapter resume job submission context persisted now resumed hadapter hresume
    cases hadapter
    cases hresume

theorem runningService_bound : Bound runningService := by
  refine bound_set_active ⟨?_, ?_⟩ rfl
  · intro job_id persisted hload
    cases hload
  · intro job_id submission hactive
    cases hactive

theorem runningJob_running (message_type : MessageType) :
    RunningJob [runningJob message_type] [0] 0 (runningJob message_type) where
  latest := rfl
  running := rfl
  owner := by
    intro r hr _
    rw [List.mem_singleton.mp hr]
  alone := by
    intro r hr _
    have hstanding : r ∈ [runningJob message_type] := hr
    rw [List.mem_singleton.mp hstanding]
    rfl
  agent := List.mem_singleton.mpr rfl

theorem persisted_decision_completes_acknowledged :
    Returns (Done finishingContext 0 (runningJob .ask) finishedDecision)
      ((PollingDispatcher.restarted [runningJob .ask]
        (finishingPoll.1.acknowledge_item 0 (some 1)).state_store [0] (fun _ => [])
        ()).restore_and_poll finishingContext 9 [10]) := by
  obtain ⟨persisted, hload, _, hcompletes, _⟩ := persisted_decision_completes
    finishingContext finishingContext_keepsBinding runningService runningService_bound rfl
    [runningJob .ask] [0] (fun _ => []) 0 (runningJob .ask) (runningJob_running .ask)
    runningSubmission rfl 7
    ⟨0, [⟨.result, 7, some 1⟩], some finishedDecision,
      some (with_last_progress_at runningSubmission 7)⟩ finishedDecision (by decide) rfl
    [.acknowledge_item 0 (some 1)] (by simp [ServiceStep.spares])
    (finishingPoll.1.acknowledge_item 0 (some 1)) rfl () 9 10 []
  have hitems : ((finishingPoll.1.acknowledge_item 0 (some 1)).load 0).map
      filter_pending_items = some [] := by decide
  rw [hload] at hitems
  exact hcompletes rfl (Or.inl (Option.some.inj hitems))

end ClaudeCodeBridge.Analysis
