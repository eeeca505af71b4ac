import ClaudeCodeBridge.Analysis.DispatcherRuns
import ClaudeCodeBridge.Program.Selection

/-!
# Retry and recovery on the latest attempt

A recovery takes the record that was appended last for an attempt's latest
(`latest_attempt_for_agent`), a retry the attempt with the greatest number
(`latest_attempt_of`).  They agree as long as every record of an attempt is appended in its
turn, while the agent has no later attempt on the message (`InTurn`).  A continuation breaks
this: it adds an attempt to the message of its parent, and the parent's own attempt may end
after that.
-/

set_option autoImplicit false

namespace ClaudeCodeBridge.Analysis

open Program Model
open DispatcherOperations Submission Callbacks

variable {config : DispatcherConfig} {terms : Terms} {s s' : DispatcherStore}

def attemptsOn (s : DispatcherStore) (m : MessageId) : List AttemptRecord :=
  s.bureau.attempts.filter fun r => r.message_id = m

variable {m : MessageId} {a : AttemptRecord}

theorem mem_attemptsOn : a ∈ attemptsOn s m ↔ a ∈ s.bureau.attempts ∧ a.message_id = m := by
  simp [attemptsOn]

variable {agent_name : AgentName}

theorem mem_of_latest_for_agent {attempts : List AttemptRecord}
    (h : latest_attempt_for_agent attempts agent_name = some a) :
    a ∈ attempts ∧ a.agent_name = agent_name := by
  have hmem := List.mem_filter.mp (List.mem_of_getLast? h)
  exact ⟨hmem.1, by simpa using hmem.2⟩

theorem latest_attempt_of_eq (attempts : List AttemptRecord) (agent_name : AgentName) :
    latest_attempt_of attempts agent_name =
      ((collapse (fun r => r.attempt_id) attempts).filter fun r => r.agent_name = agent_name).foldl
        (selectBest attempt_sort_key_lt) none := by
  unfold latest_attempt_of
  congr 1
  funext current record
  cases current with
  | none => rfl
  | some current => rfl

def LastIsGreatest (s : DispatcherStore) : Prop :=
  ∀ m agent_name last, latest_attempt_for_agent (attemptsOn s m) agent_name = some last →
    ∀ b ∈ s.bureau.attempts, b.message_id = m → b.agent_name = agent_name →
      b.retry_index ≤ last.retry_index

theorem Coherent.latest_for_agent_standing (hs : Coherent s) {last : AttemptRecord}
    (h : latest_attempt_for_agent (attemptsOn s m) agent_name = some last) :
    last ∈ collapse (fun r => r.attempt_id) (attemptsOn s m) := by
  obtain ⟨hmem, hagent⟩ := mem_of_latest_for_agent h
  have hstanding : latest? (fun r => r.attempt_id) last.attempt_id (attemptsOn s m) =
      some last := by
    rw [latest?_eq_getLast?]
    refine getLast?_filter_of_imp h (by simp) fun r hr hid => ?_
    have hkey := hs.attempt_of_id r (mem_attemptsOn.mp hr).1 last (mem_attemptsOn.mp hmem).1
      (by simpa using hid)
    simp only [attemptKey, AttemptKey.mk.injEq] at hkey
    simp [hkey.2.2.1, hagent]
  exact ((latest?_eq_some_iff _).mp hstanding).1

/-- **Where the last record has the greatest number, the two notions agree.** -/
theorem LastIsGreatest.agree (h : LastIsGreatest s) (hs : Coherent s) (m : MessageId)
    (agent_name : AgentName) :
    latest_attempt_for_agent (attemptsOn s m) agent_name =
      latest_attempt_of (attemptsOn s m) agent_name := by
  rw [latest_attempt_of_eq]
  cases hlast : latest_attempt_for_agent (attemptsOn s m) agent_name with
  | none =>
    have hnone : (attemptsOn s m).filter (fun r => r.agent_name = agent_name) = [] :=
      List.getLast?_eq_none_iff.mp hlast
    rw [List.filter_eq_nil_iff.mpr fun r hr => ?_]
    · rfl
    · exact List.filter_eq_nil_iff.mp hnone r (mem_of_mem_collapse hr)
  | some last =>
    obtain ⟨hmem, hagent⟩ := mem_of_latest_for_agent hlast
    have hstanding := hs.latest_for_agent_standing hlast
    symm
    refine foldl_selectBest (List.mem_filter.mpr ⟨hstanding, by simp [hagent]⟩) ?_
      fun r hr => ?_
    · simp [attempt_sort_key_lt]
    · obtain ⟨hr, hragent⟩ := List.mem_filter.mp hr
      obtain ⟨hrmem, hrm⟩ := mem_attemptsOn.mp (mem_of_mem_collapse hr)
      obtain ⟨hlmem, hlm⟩ := mem_attemptsOn.mp hmem
      have hragent : r.agent_name = agent_name := by simpa using hragent
      by_cases hid : r.attempt_id = last.attempt_id
      · exact Or.inl (collapse_key_inj _ hr hstanding hid)
      · right
        have hle := h m agent_name last hlast r hrmem hrm hragent
        have hne : r.retry_index ≠ last.retry_index := by
          intro hindex
          refine hid (hs.attempt_index r hrmem last hlmem ⟨?_, ?_, hindex⟩)
          · rw [hrm, hlm]
          · rw [hragent, hagent]
        constructor
        · simp only [attempt_sort_key_lt, Bool.or_eq_true, decide_eq_true_eq]
          left
          omega
        · simp only [attempt_sort_key_lt, Bool.or_eq_false_iff, decide_eq_false_iff_not,
            Bool.and_eq_false_imp, decide_eq_true_eq]
          constructor
          · omega
          · intro hindex
            omega

/-- A record of an attempt is appended only while its agent has no later attempt on the
message. -/
def InTurn (s s' : DispatcherStore) : Prop :=
  ∀ a, s'.bureau.attempts = s.bureau.attempts ++ [a] → ∀ b ∈ s.bureau.attempts,
    b.message_id = a.message_id → b.agent_name = a.agent_name → b.retry_index ≤ a.retry_index

theorem Change.attempts (h : Change config terms s s') :
    s'.bureau.attempts = s.bureau.attempts ∨
      ∃ a, s'.bureau.attempts = s.bureau.attempts ++ [a] := by
  cases h with
  | attempt_new a _ | attempt_again a x _ _ _ => exact Or.inr ⟨a, rfl⟩
  | _ => exact Or.inl rfl

theorem latest_for_agent_append
    (h : s'.bureau.attempts = s.bureau.attempts ++ [a]) (m : MessageId) (agent_name : AgentName) :
    latest_attempt_for_agent (attemptsOn s' m) agent_name =
      if a.message_id = m ∧ a.agent_name = agent_name then some a
      else latest_attempt_for_agent (attemptsOn s m) agent_name := by
  unfold latest_attempt_for_agent attemptsOn
  rw [h, List.filter_append, List.filter_append]
  by_cases hm : a.message_id = m
  · by_cases hagent : a.agent_name = agent_name
    · simp [hm, hagent]
    · simp [hm, hagent]
  · simp [hm]

theorem LastIsGreatest.append (h : LastIsGreatest s)
    (happend : s'.bureau.attempts = s.bureau.attempts ++ [a]) (hturn : InTurn s s') :
    LastIsGreatest s' := by
  intro m agent_name last hlast b hb hbm hbagent
  rw [latest_for_agent_append happend] at hlast
  rw [happend] at hb
  split at hlast
  · rename_i hkeys
    rw [← Option.some.inj hlast]
    rcases List.mem_append.mp hb with hb | hb
    · exact hturn a happend b hb (hbm.trans hkeys.1.symm) (hbagent.trans hkeys.2.symm)
    · rw [List.mem_singleton.mp hb]
  · rename_i hkeys
    rcases List.mem_append.mp hb with hb | hb
    · exact h m agent_name last hlast b hb hbm hbagent
    · rw [List.mem_singleton.mp hb] at hbm hbagent
      exact absurd ⟨hbm, hbagent⟩ hkeys

theorem LastIsGreatest.change (h : LastIsGreatest s) (hchange : Change config terms s s')
    (hturn : InTurn s s') : LastIsGreatest s' := by
  rcases hchange.attempts with hsame | ⟨a, happend⟩
  · unfold LastIsGreatest attemptsOn
    rw [hsame]
    exact h
  · exact h.append happend hturn

/-- The lineage that a recovery reads. -/
def lineageOf (s : DispatcherStore) (job : JobRecord) : Option Lineage :=
  (latest? (fun r : AttemptRecord => r.job_id) job.job_id s.bureau.attempts).map fun attempt =>
    { attempt := attempt
      latest_attempt :=
        latest_attempt_for_agent (attemptsOn s attempt.message_id) attempt.agent_name
      inbound := latest? (fun r : InboundEventRecord => r.attempt_id) (some attempt.attempt_id)
        (s.bureau.mailboxes attempt.agent_name).inbox }

theorem run_lineage_for_job (job : JobRecord) :
    (lineage_for_job job).run s = (.ok (lineageOf s job), s) := by
  unfold lineage_for_job lineageOf
  cases hattempt : latest? (fun r : AttemptRecord => r.job_id) job.job_id s.bureau.attempts with
  | none => simp [Prog.run_bind, run_onBureau, AttemptStore.get_latest_by_job_id, hattempt]
  | some attempt =>
    simp [Prog.run_bind, run_onBureau, run_onMailbox, AttemptStore.get_latest_by_job_id,
      AttemptStore.list_message, InboundEventStore.get_latest_for_attempt, attemptsOn, hattempt]

def Retryable (s : DispatcherStore) (job : JobRecord) : Prop :=
  ∃ attempt latest, latest? (fun r : AttemptRecord => r.job_id) job.job_id s.bureau.attempts =
      some attempt ∧
    latest_attempt_for_agent (attemptsOn s attempt.message_id) attempt.agent_name = some latest ∧
    latest.attempt_id = attempt.attempt_id

theorem retryable_of_can_retry_job {job : JobRecord}
    (h : ((can_retry_job job).run s).1 = .ok true) : Retryable s job := by
  have hrun : ((can_retry_job job).run s).1 = .ok ((lineageOf s job).any fun lineage =>
      lineage.is_latest_attempt && lineage.attempt.attempt_state.terminal
        && lineage.attempt.attempt_state ≠ .completed) := by
    unfold can_retry_job
    simp [Prog.run_bind, run_lineage_for_job]
  rw [hrun, Except.ok.injEq, Option.any_eq_true] at h
  obtain ⟨lineage, hlineage, hlatest⟩ := h
  simp only [Bool.and_eq_true] at hlatest
  obtain ⟨attempt, hattempt, rfl⟩ := Option.map_eq_some_iff.mp hlineage
  obtain ⟨latest, hfound, hid⟩ := (Option.any_eq_true _ _).mp hlatest.1.1
  exact ⟨attempt, latest, hattempt, hfound, by simpa using hid⟩

theorem run_can_retry_job (job : JobRecord) : ∃ b, (can_retry_job job).run s = (.ok b, s) := by
  unfold can_retry_job
  simp [Prog.run_bind, run_lineage_for_job]

def recoverableJob (source : JobRecord) : Recoverability → Option JobRecord
  | .reply_delivery delivery => some delivery
  | .terminal_retry => some source
  | .stale_running => some source
  | .not_recoverable => none

theorem recoverable_cases {env : DispatcherEnvironment} {source job : JobRecord}
    {delivery : Option JobRecord} {hint : Option String} {r : Recoverability}
    (h : ((comms_recoverability_for_job env source delivery hint).run s).1 = .ok r)
    (hjob : recoverableJob source r = some job) :
    Retryable s job ∨ job = source ∧ source.status = .running := by
  have hdelivery : ∃ found, (retryable_delivery delivery).run s = (.ok found, s) ∧
      ∀ job, found = some job → Retryable s job := by
    unfold retryable_delivery
    cases delivery.filter fun delivery => failed_terminal delivery.status with
    | none => exact ⟨none, rfl, by simp⟩
    | some delivery =>
      obtain ⟨b, hb⟩ := run_can_retry_job (s := s) delivery
      refine ⟨if b then some delivery else none, by simp [Prog.run_bind, hb], fun job hjob => ?_⟩
      cases b with
      | false => simp at hjob
      | true =>
        rw [← show delivery = job by simpa using hjob]
        exact retryable_of_can_retry_job (by rw [hb])
  obtain ⟨found, hfound, hretryable⟩ := hdelivery
  unfold comms_recoverability_for_job at h
  rw [Prog.bind_eq, Prog.run_bind_ok hfound] at h
  cases found with
  | some delivery =>
    rw [← show Recoverability.reply_delivery delivery = r by simpa using h] at hjob
    exact Or.inl (hretryable job hjob)
  | none =>
    dsimp only at h
    split at h
    · obtain ⟨b, hb⟩ := run_can_retry_job (s := s) source
      rw [Prog.bind_eq, Prog.run_bind_ok hb] at h
      cases b with
      | false =>
        rw [← show Recoverability.not_recoverable = r by simpa using h] at hjob
        simp [recoverableJob] at hjob
      | true =>
        rw [← show Recoverability.terminal_retry = r by simpa using h] at hjob
        rw [← show source = job by simpa [recoverableJob] using hjob]
        exact Or.inl (retryable_of_can_retry_job (by rw [hb]))
    · split at h
      · rename_i hrunning
        rw [← show Recoverability.stale_running = r by simpa using h] at hjob
        exact Or.inr ⟨by simpa [recoverableJob] using hjob.symm, hrunning.1⟩
      · rw [← show Recoverability.not_recoverable = r by simpa using h] at hjob
        simp [recoverableJob] at hjob

/-- What a retry of an earlier attempt is refused with. -/
def refusal (agent_name : AgentName) : Failure :=
  .dispatchError s!"retry requires latest attempt for agent: {agent_name}"

def Other (e : Failure) : Prop :=
  ∀ agent_name, e ≠ refusal agent_name

theorem other_of_value (text : String) : Other (.valueError text) :=
  fun _ => nofun

@[simp] theorem toString_text (text : String) : toString text = text := rfl

theorem other_of_take {text : String} (h : text.toList.take 9 ≠ "retry req".toList) :
    Other (.dispatchError text) := by
  intro agent_name he
  apply h
  rw [Failure.dispatchError.inj he]
  simp [String.toList_append, toString_text]

theorem other_not_found (job_id : JobId) :
    Other (.dispatchError s!"retry target not found: {repr (RetryTarget.job job_id)}") :=
  other_of_take (by simp)

theorem other_not_completed (id : AttemptId) :
    Other (.dispatchError s!"retry is not allowed for completed attempts: {id}") :=
  other_of_take (by simp)

theorem other_still_active (id : AttemptId) :
    Other (.dispatchError s!"attempt is still active: {id}") :=
  other_of_take (by simp)

section Raises

variable {α : Type} {P : Failure → Prop}

theorem raises_onBureau {p : BureauM α} (hp : p.Raises P) : (onBureau p).Raises P :=
  Prog.Raises.zoom hp

theorem raises_onMailbox {agent_name : AgentName} {p : MailboxM α} (hp : p.Raises P) :
    (onMailbox agent_name p).Raises P :=
  Prog.Raises.zoom (Prog.Raises.zoom hp)

theorem raises_rejectIf {condition : Bool} {text : String} (h : P (.dispatchError text)) :
    (rejectIf condition text).Raises P := by
  unfold rejectIf
  split
  · exact h
  · trivial

theorem raises_save_summary_record (record : MailboxRecord) (expected : Option ℕ) :
    (MailboxKernel.save_summary_record record expected).Raises P := by
  grind [MailboxKernel.save_summary_record, MailboxStore.compare_and_save, MailboxStore.load,
    MailboxStore.save]

theorem raises_latest_events : MailboxKernel.latest_events.Raises P := by
  grind [MailboxKernel.latest_events, InboundEventStore.list_agent]

theorem raises_pending_events : MailboxKernel.pending_events.Raises P := by
  grind [MailboxKernel.pending_events, raises_latest_events]

theorem raises_build_mailbox_summary_record (agent_name : AgentName)
    (prior : Option MailboxRecord) (lease : Option DeliveryLease)
    (fields : MailboxKernel.SummaryFields) (summary_head : Option SummaryHead) :
    (MailboxKernel.build_mailbox_summary_record agent_name prior lease fields
      summary_head).Raises P := by
  cases summary_head with
  | some summary_head => exact Prog.raises_pure _
  | none =>
    refine Prog.Raises.bind ?_ fun head => Prog.raises_pure _
    refine Prog.Raises.bind ?_ fun head => Prog.raises_pure _
    exact Prog.Raises.bind raises_pending_events fun events => Prog.raises_pure _

theorem raises_apply_incremental_summary_update (service : MailboxKernelService)
    (agent_name : AgentName) (queue_delta pending_reply_delta : ℤ)
    (active_inbound_event_id : Option (Option EventId))
    (last_started_at last_finished_at updated_at : Option Timestamp) :
    (MailboxKernel.apply_incremental_summary_update service agent_name queue_delta
      pending_reply_delta active_inbound_event_id last_started_at last_finished_at
      updated_at).Raises P := by
  refine Prog.Raises.bind (Prog.raises_read _ _) fun prior => ?_
  refine Prog.Raises.bind (Prog.raises_read _ _) fun lease => ?_
  refine Prog.Raises.bind (raises_build_mailbox_summary_record _ _ _ _ _) fun record => ?_
  exact raises_save_summary_record _ _

theorem raises_rebuild_mailbox_summary (service : MailboxKernelService) (agent_name : AgentName)
    (updated_at : Option Timestamp) :
    (MailboxKernel.rebuild_mailbox_summary service agent_name updated_at).Raises P := by
  refine Prog.Raises.bind (Prog.raises_read _ _) fun prior => ?_
  refine Prog.Raises.bind ?_ fun record => raises_save_summary_record _ _
  refine Prog.Raises.bind (Prog.raises_pure _) fun prior => ?_
  refine Prog.Raises.bind (Prog.raises_read _ _) fun lease => ?_
  refine Prog.Raises.bind raises_pending_events fun events => ?_
  refine Prog.Raises.bind ?_ fun activity => raises_build_mailbox_summary_record _ _ _ _ _
  exact Prog.Raises.bind raises_latest_events fun events => Prog.raises_pure _

theorem raises_queue_request (service : MailboxKernelService) (job : JobRecord)
    (message_id : MessageId) (attempt_id : AttemptId) (accepted_at : Timestamp) :
    (MessageBureau.queue_request service job message_id attempt_id accepted_at).Raises P := by
  refine Prog.Raises.bind (Prog.raises_update _ _ _) fun inbound_event_id => ?_
  refine Prog.Raises.bind (raises_onMailbox (Prog.raises_write _ _)) fun _ => ?_
  refine Prog.Raises.bind (raises_onMailbox ?_) fun _ => Prog.raises_pure _
  exact raises_apply_incremental_summary_update _ _ _ _ _ _ _ _

theorem raises_set_message_state (message_id : MessageId) (next_state : MessageState)
    (updated_at : Timestamp) :
    (MessageBureau.set_message_state message_id next_state updated_at).Raises P := by
  grind [MessageBureau.set_message_state, MessageStore.get_latest, MessageStore.append]

end Raises

theorem raises_record_retry_attempt (service : MailboxKernelService) (message_id : MessageId)
    (job : JobRecord) (accepted_at : Timestamp) :
    (MessageBureau.record_retry_attempt service message_id job accepted_at).Raises Other := by
  refine Prog.Raises.bind (Prog.raises_read _ _) fun message => ?_
  cases message with
  | none => exact other_of_value _
  | some message =>
    refine Prog.Raises.bind (Prog.raises_read _ _) fun existing => ?_
    cases existing with
    | some existing =>
      dsimp only
      split
      · exact other_of_value _
      · split
        · exact Prog.raises_pure _
        · refine Prog.Raises.bind ?_ fun _ => ?_
          · refine Prog.Raises.bind (raises_onMailbox (Prog.raises_read _ _)) fun inbound => ?_
            cases inbound with
            | some inbound => exact Prog.raises_pure _
            | none =>
              exact Prog.Raises.bind (Prog.raises_update _ _ _) fun inbound_event_id =>
                raises_onMailbox (Prog.raises_write _ _)
          · refine Prog.Raises.bind (raises_onMailbox ?_) fun _ => ?_
            · exact raises_rebuild_mailbox_summary _ _ _
            · exact Prog.Raises.bind (raises_set_message_state _ _ _) fun _ => Prog.raises_pure _
    | none =>
      refine Prog.Raises.bind ?_ fun retry_index => ?_
      · exact Prog.Raises.bind (Prog.raises_read _ _) fun attempts => Prog.raises_pure _
      · refine Prog.Raises.bind (Prog.raises_update _ _ _) fun attempt_id => ?_
        refine Prog.Raises.bind (Prog.raises_write _ _) fun _ => ?_
        refine Prog.Raises.bind (raises_queue_request _ _ _ _ _) fun _ => ?_
        exact Prog.Raises.bind (raises_set_message_state _ _ _) fun _ => Prog.raises_pure _

theorem raises_validate_target_available (config : DispatcherConfig)
    (env : DispatcherEnvironment) (agent_name : AgentName) :
    (validate_target_available config env agent_name).Raises Other := by
  refine Prog.Raises.bind ?_ fun spec => ?_
  · unfold spec_for
    split
    · exact Prog.raises_pure _
    · exact other_of_take (by simp)
  · refine Prog.Raises.bind (raises_rejectIf ?_) fun _ => ?_
    · exact other_of_take (by simp)
    · refine Prog.Raises.bind (raises_rejectIf ?_) fun _ => ?_
      · exact other_of_take (by simp)
      · split
        · refine Prog.Raises.bind (Prog.raises_read _ _) fun busy => raises_rejectIf ?_
          exact other_of_take (by simp)
        · exact Prog.raises_pure _

theorem raises_retry_job (env : DispatcherEnvironment) (original : AttemptRecord)
    (current : JobRecord) (message : MessageRecord) (accepted_at : Timestamp) :
    (retry_job env original current message accepted_at).Raises Other := by
  refine Prog.Raises.bind (raises_onBureau (Prog.raises_update _ _ _)) fun job_id => ?_
  refine Prog.Raises.bind ?_ fun status => ?_
  · exact Prog.Raises.bind (Prog.raises_read _ _) fun outstanding => Prog.raises_pure _
  · refine Prog.Raises.bind ?_ fun _ => ?_
    · refine Prog.Raises.bind ?_ fun _ => ?_
      · exact Prog.Raises.bind (Prog.raises_write _ _) fun _ => Prog.raises_write _ _
      · exact Prog.Raises.bind (Prog.raises_write _ _) fun _ => Prog.raises_write _ _
    · refine Prog.Raises.bind (raises_onBureau (raises_record_retry_attempt _ _ _ _)) fun id => ?_
      refine Prog.Raises.bind ?_ fun _ => Prog.raises_pure _
      unfold append_submission_job
      split
      · exact Prog.raises_pure _
      · refine Prog.Raises.bind (Prog.raises_read _ _) fun submission => ?_
        cases submission with
        | none => exact Prog.raises_pure _
        | some submission => exact Prog.raises_write _ _

theorem run_rejectIf_bind {α : Type} (condition : Bool) (text : String) (p : DispatcherM α) :
    (rejectIf condition text >>= fun _ => p).run s =
      if condition then (.error (.dispatchError text), s) else p.run s := by
  cases condition <;> rfl

section Retry

variable {env : DispatcherEnvironment} {job_id : JobId} {original latest : AttemptRecord}

theorem run_resolve_retry_attempt
    (h : latest? (fun r : AttemptRecord => r.job_id) job_id s.bureau.attempts = some original) :
    (resolve_retry_attempt (.job job_id)).run s = (.ok original, s) := by
  simp [resolve_retry_attempt, find_retry_attempt, Prog.run_bind, run_onBureau,
    AttemptStore.get_latest_by_job_id, h]

theorem retry_attempt_active
    (h : ∀ a, latest? (fun r : AttemptRecord => r.job_id) job_id s.bureau.attempts = some a →
      a.attempt_state.terminal = false) (agent_name : AgentName) :
    ((retry_attempt config env (.job job_id)).run s).1 ≠ .error (refusal agent_name) := by
  intro hrun
  cases hfound : latest? (fun r : AttemptRecord => r.job_id) job_id s.bureau.attempts with
  | none =>
    have hnone : (onBureau (AttemptStore.get_latest_by_job_id job_id)).run s = (.ok none, s) := by
      simp [run_onBureau, AttemptStore.get_latest_by_job_id, hfound]
    refine other_not_found job_id agent_name (Except.error.inj (Eq.trans ?_ hrun))
    simp [retry_attempt, resolve_retry_attempt, find_retry_attempt, Prog.run_bind, hnone,
        raiseDispatch]
  | some original =>
    refine other_still_active original.attempt_id agent_name (Except.error.inj (Eq.trans ?_ hrun))
    unfold retry_attempt
    rw [Prog.bind_eq, Prog.run_bind_ok (run_resolve_retry_attempt hfound), run_rejectIf_bind,
      h original hfound]
    rfl

theorem run_list_message (m : MessageId) :
    (onBureau (AttemptStore.list_message m)).run s = (.ok (attemptsOn s m), s) := by
  simp [run_onBureau, AttemptStore.list_message, attemptsOn]

/-- **The retry of the latest attempt is not refused, and that of an earlier one fails.** -/
theorem retry_attempt_checked
    (hfound : latest? (fun r : AttemptRecord => r.job_id) job_id s.bureau.attempts = some original)
    (hlatest : latest_attempt_of (attemptsOn s original.message_id) original.agent_name =
      some latest) :
    (latest.attempt_id = original.attempt_id → ∀ agent_name,
      ((retry_attempt config env (.job job_id)).run s).1 ≠ .error (refusal agent_name)) ∧
    (latest.attempt_id ≠ original.attempt_id → ∀ receipt,
      ((retry_attempt config env (.job job_id)).run s).1 ≠ .ok receipt) := by
  unfold retry_attempt
  rw [Prog.bind_eq, Prog.run_bind_ok (run_resolve_retry_attempt hfound), run_rejectIf_bind,
    run_rejectIf_bind, Prog.bind_eq, Prog.run_bind_ok (run_list_message _), hlatest]
  dsimp only
  rw [run_rejectIf_bind]
  split
  · exact ⟨fun _ agent_name hrun => other_still_active _ agent_name (Except.error.inj hrun),
      fun _ _ hrun => by cases hrun⟩
  split
  · exact ⟨fun _ agent_name hrun => other_not_completed _ agent_name (Except.error.inj hrun),
      fun _ _ hrun => by cases hrun⟩
  refine ⟨fun hid agent_name hrun => ?_, fun hid receipt hrun => ?_⟩
  · rw [if_neg (by simp [hid])] at hrun
    refine Prog.Raises.run (P := Other) ?_ hrun agent_name rfl
    refine Prog.Raises.bind (raises_onBureau (Prog.raises_read _ _)) fun message => ?_
    cases message with
    | none => exact other_of_take (by simp)
    | some message =>
      refine Prog.Raises.bind (raises_validate_target_available _ _ _) fun _ => ?_
      refine Prog.Raises.bind (Prog.raises_read _ _) fun current => ?_
      cases current with
      | none => exact other_of_take (by simp)
      | some current => exact raises_retry_job _ _ _ _ _
  · rw [if_pos (by simp [hid])] at hrun
    cases hrun

end Retry

/-- Retry and recovery agree on the latest attempts, and on what they make of a job. -/
structure RetriesAgree (config : DispatcherConfig) (s : DispatcherStore) : Prop where
  latest : ∀ m agent_name, latest_attempt_for_agent (attemptsOn s m) agent_name =
    latest_attempt_of (attemptsOn s m) agent_name
  recoverable : ∀ env source delivery hint r job, StandingJob s source →
    ((comms_recoverability_for_job env source delivery hint).run s).1 = .ok r →
    recoverableJob source r = some job → ∀ env agent_name,
      ((retry_attempt config env (.job job.job_id)).run s).1 ≠ .error (refusal agent_name)
  retried : ∀ job other, ((already_retried_job_id job).run s).1 = .ok (some other) →
    ∀ env receipt, ((retry_attempt config env (.job job.job_id)).run s).1 ≠ .ok receipt

theorem LastIsGreatest.toRetriesAgree (h : LastIsGreatest s) (hs : Coherent s) :
    RetriesAgree config s where
  latest := h.agree hs
  recoverable := by
    intro env source delivery hint r job hsource hreported hjob env agent_name
    rcases recoverable_cases hreported hjob with hretryable | ⟨rfl, hrunning⟩
    · obtain ⟨attempt, latest, hattempt, hlatest, hid⟩ := hretryable
      rw [h.agree hs] at hlatest
      exact (retry_attempt_checked hattempt hlatest).1 hid agent_name
    · refine retry_attempt_active (fun a ha => ?_) agent_name
      by_contra hterminal
      have hid := (mem_of_latest? ha).2
      have hended := hs.attempt_open job a hsource (by rw [StandingAttempt, hid, ha]) hid
        (by simpa using hterminal)
      rw [hrunning] at hended
      exact Bool.false_ne_true hended
  retried := by
    intro job other hretried env receipt
    have hrun : ((already_retried_job_id job).run s).1 = .ok ((lineageOf s job).bind
        fun lineage => (lineage.latest_attempt.filter fun latest =>
          latest.attempt_id ≠ lineage.attempt.attempt_id).map fun latest => latest.job_id) := by
      unfold already_retried_job_id
      simp [Prog.run_bind, run_lineage_for_job]
    rw [hrun, Except.ok.injEq, Option.bind_eq_some_iff] at hretried
    obtain ⟨lineage, hlineage, hlatest⟩ := hretried
    obtain ⟨attempt, hattempt, rfl⟩ := Option.map_eq_some_iff.mp hlineage
    obtain ⟨latest, hfiltered, -⟩ := Option.map_eq_some_iff.mp hlatest
    obtain ⟨hfound, hid⟩ := Option.filter_eq_some_iff.mp hfiltered
    rw [h.agree hs] at hfound
    exact (retry_attempt_checked hattempt hfound).2 (by simpa using hid) receipt

instance instDecidableInTurn (s s' : DispatcherStore) : Decidable (InTurn s s') :=
  decidable_of_iff (∀ a ∈ s'.bureau.attempts.getLast?,
      s'.bureau.attempts = s.bureau.attempts ++ [a] → ∀ b ∈ s.bureau.attempts,
        b.message_id = a.message_id → b.agent_name = a.agent_name →
          b.retry_index ≤ a.retry_index) (by
    constructor
    · intro h a ha
      exact h a (by simp [ha]) ha
    · intro h a _ ha
      exact h a ha)

def retriedStore : DispatcherStore :=
  let accepted := begun (DispatcherStore.empty [1, 2, 3]) 1 (.submit (askAgent 1 .user none))
  let failed := begun (begun accepted 2 .tick) 3 (.complete 0 (endedWith .failed))
  begun failed 4 (.retry (.job 0))

/-- The store after the child of a chain ended while its parent's job ran, and that job failed
then. -/
def overtakenStore : DispatcherStore :=
  afterwards (afterwards delegatedStore 5 (.complete 4 (endedWith .completed))) 6
    (.complete 0 (endedWith .failed))

theorem overtaken_reached : Reached threeAgents ⟨False, False⟩ (fun _ _ => True) overtakenStore :=
  ((delegated_reached _).afterwards 5 (.complete 4 (endedWith .completed)) trivial).afterwards 6
    (.complete 0 (endedWith .failed)) trivial

def failureOf {α : Type} : Except Failure α → Option Failure
  | .ok _ => none
  | .error e => some e

theorem eq_error_of_failureOf {α : Type} {r : Except Failure α} {e : Failure}
    (h : failureOf r = some e) : r = .error e := by
  cases r with
  | ok a => cases h
  | error f => rw [Option.some.inj h]

def reportsRetry (s : DispatcherStore) (source : JobRecord) : Bool :=
  match ((comms_recoverability_for_job (calmEnvironment 7) source none none).run s).1 with
  | .ok .terminal_retry => true
  | _ => false

end ClaudeCodeBridge.Analysis
