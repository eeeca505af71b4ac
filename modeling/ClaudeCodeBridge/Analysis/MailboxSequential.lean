import ClaudeCodeBridge.Model.MailboxKernel

/-!
# What one kernel call does when it runs alone

Each function of the mailbox kernel, run without interference, is a function of the
three files.  This file computes it once: queries leave the files alone, the
compare-and-save of a summary always wins, a rebuild stores `projection`, and the
transitions (`claim`, `mark_terminal`, `rewrite_head`, `expire_lease`) append at most
one event record, save or remove the lease, and then write the summary.

The last section gives the same calls as an inversion: `FilesStep m m'` lists what a
call can do to the inbox and the lease, whatever it writes to the summary.
-/

set_option autoImplicit false

namespace ClaudeCodeBridge.Analysis

open Program
open Model
open Model.MailboxKernel

variable (service : MailboxKernelService) (agent_name : AgentName)

def pending (m : MailboxFiles) : List InboundEventRecord := pendingOf (standing m.inbox)

def latestEvent (m : MailboxFiles) (e : EventId) : Option InboundEventRecord :=
  latest? (fun r => r.inbound_event_id) e m.inbox

theorem latestEvent_eq_some_iff {m : MailboxFiles} {e : EventId} {r : InboundEventRecord} :
    latestEvent m e = some r ↔ r ∈ standing m.inbox ∧ r.inbound_event_id = e :=
  latest?_eq_some_iff _

@[simp] theorem latest_events_run (m : MailboxFiles) :
    latest_events.run m = (.ok (standing m.inbox), m) := rfl

@[simp] theorem pending_events_run (m : MailboxFiles) :
    pending_events.run m = (.ok (pending m), m) := rfl

@[simp] theorem head_pending_event_run (m : MailboxFiles) :
    head_pending_event.run m = (.ok (pending m).head?, m) := rfl

/-- A summary head that is not given is resolved from the inbox. -/
theorem build_mailbox_summary_record_run (prior : Option MailboxRecord)
    (lease : Option DeliveryLease) (fields : SummaryFields) (head : Option SummaryHead)
    (m : MailboxFiles) :
    (build_mailbox_summary_record agent_name prior lease fields head).run m =
      (.ok (buildRecord agent_name prior lease fields
        (head.getD (summary_head_from_event (pending m).head?))), m) := by
  cases head <;> rfl

/-- **With no other writer the compare-and-save wins**, so saving a summary
whose expected version is the stored one stores it. -/
theorem save_summary_record_run (record : MailboxRecord) (m : MailboxFiles) :
    (save_summary_record record (summary_version m.summary)).run m =
      (.ok record, { m with summary := some record }) := by
  simp [save_summary_record, MailboxStore.compare_and_save, MailboxStore.load,
    MailboxStore.save, summary_version]

/-- The activity stamps a projection gives: the prior ones raised by every event. -/
def activityOf (m : MailboxFiles) (prior : Option MailboxRecord) :
    Option Timestamp × Option Timestamp :=
  (standing m.inbox).foldl
    (fun acc event =>
      (latest_timestamp acc.1 event.started_at, latest_timestamp acc.2 event.finished_at))
    (prior.bind fun p => p.last_inbound_started_at, prior.bind fun p => p.last_inbound_finished_at)

/-- The summary that the inbox and the lease imply. -/
def projection (m : MailboxFiles) (prior : Option MailboxRecord) (timestamp : Timestamp)
    (summary_source : SummarySource) : MailboxRecord :=
  buildRecord agent_name prior m.lease
    { queue_depth := (pending m).length
      pending_reply_count := replyCount (pending m)
      active_inbound_event_id := active_inbound_event_id m.lease
      last_started_at := (activityOf m prior).1
      last_finished_at := (activityOf m prior).2
      updated_at := timestamp
      summary_source := summary_source }
    (summary_head_from_event (pending m).head?)

/-- Projecting the summary computes `projection` and changes nothing. -/
theorem project_mailbox_summary_run (updated_at : Option Timestamp)
    (prior : Option (Option MailboxRecord)) (summary_source : SummarySource) (m : MailboxFiles) :
    (project_mailbox_summary service agent_name updated_at prior summary_source).run m =
      (.ok (projection agent_name m (prior.getD m.summary)
        (updated_at.getD service.clock) summary_source), m) := by
  cases prior <;> rfl

/-- **A rebuild stores the projection** and touches nothing else. -/
theorem rebuild_mailbox_summary_run (updated_at : Option Timestamp) (m : MailboxFiles) :
    (rebuild_mailbox_summary service agent_name updated_at).run m =
      (.ok (projection agent_name m m.summary (updated_at.getD service.clock)
        .history_refresh),
        { m with summary := some (projection agent_name m m.summary
          (updated_at.getD service.clock) .history_refresh) }) := by
  have hproject := project_mailbox_summary_run service agent_name updated_at
    (some m.summary) .history_refresh m
  simp only [rebuild_mailbox_summary, MailboxStore.load, Prog.bind_eq, Prog.read_bind,
    Prog.run_access, id]
  rw [Prog.run_bind_ok hproject, save_summary_record_run]
  rfl

theorem refresh_and_return_run {α : Type} (timestamp : Timestamp) (value : α) (m : MailboxFiles) :
    (refresh_and_return service agent_name timestamp value).run m =
      (.ok value, { m with summary := some (projection agent_name m m.summary timestamp
        .history_refresh) }) := by
  simp only [refresh_and_return, Prog.bind_eq]
  rw [Prog.run_bind_ok (rebuild_mailbox_summary_run service agent_name (some timestamp) m)]
  rfl

theorem apply_transition_summary_update_run (fields : SummaryFields)
    (head : Option SummaryHead) (m : MailboxFiles) :
    (apply_transition_summary_update agent_name fields head).run m =
      (.ok (buildRecord agent_name m.summary m.lease fields
          (head.getD (summary_head_from_event (pending m).head?))),
        { m with summary := some (buildRecord agent_name m.summary m.lease fields
          (head.getD (summary_head_from_event (pending m).head?))) }) := by
  simp only [apply_transition_summary_update, MailboxStore.load, DeliveryLeaseStore.load,
    Prog.bind_eq, Prog.read_bind, Prog.run_access, id]
  rw [Prog.run_bind_ok (build_mailbox_summary_record_run agent_name m.summary m.lease fields
    head m), save_summary_record_run]

def incrementalFields (m : MailboxFiles) (queue_delta pending_reply_delta : Int)
    (active : Option (Option EventId)) (last_started_at last_finished_at : Option Timestamp)
    (timestamp : Timestamp) : SummaryFields :=
  { queue_depth := bumped m.summary (fun p => p.queue_depth) queue_delta
    pending_reply_count := bumped m.summary (fun p => p.pending_reply_count) pending_reply_delta
    active_inbound_event_id := active.getD (m.summary.bind fun p => p.active_inbound_event_id)
    last_started_at :=
      latest_timestamp (m.summary.bind fun p => p.last_inbound_started_at) last_started_at
    last_finished_at :=
      latest_timestamp (m.summary.bind fun p => p.last_inbound_finished_at) last_finished_at
    updated_at := timestamp
    summary_source := .incremental_upsert }

/-- An incremental update stores the stored counts moved by its deltas, with
the head read from the inbox. -/
theorem apply_incremental_summary_update_run (queue_delta pending_reply_delta : Int)
    (active : Option (Option EventId))
    (last_started_at last_finished_at updated_at : Option Timestamp) (m : MailboxFiles) :
    ((apply_incremental_summary_update service agent_name queue_delta pending_reply_delta
      active last_started_at last_finished_at updated_at).run m).2 =
      { m with summary := some (buildRecord agent_name m.summary m.lease
        (incrementalFields m queue_delta pending_reply_delta active last_started_at
          last_finished_at (updated_at.getD service.clock))
        (summary_head_from_event (pending m).head?)) } := by
  simp only [apply_incremental_summary_update, MailboxStore.load, DeliveryLeaseStore.load,
    Prog.bind_eq, Prog.read_bind, Prog.run_access, id]
  rw [Prog.run_bind_ok (build_mailbox_summary_record_run agent_name m.summary m.lease _
    none m), save_summary_record_run]
  rfl

/-! ## Transitions

A transition appends one record and sets the lease (`MailboxFiles.moved`), and then
either rebuilds the summary (`refreshed`) or moves the stored one on. -/

def refreshed (m : MailboxFiles) (timestamp : Timestamp) : MailboxFiles :=
  { m with summary := some (projection agent_name m m.summary timestamp .history_refresh) }

def releasedLease (lease : Option DeliveryLease) (e : EventId) : Option DeliveryLease :=
  if lease.any (fun l => l.lease_state = .acquired && l.inbound_event_id = e) then none
  else lease

theorem release_matching_lease_run (e : EventId) (m : MailboxFiles) :
    (release_matching_lease e).run m = (.ok (), { m with lease := releasedLease m.lease e }) := by
  obtain ⟨inbox, lease, summary, saves⟩ := m
  cases lease with
  | none => rfl
  | some l =>
    by_cases hs : l.lease_state = .acquired <;> by_cases he : l.inbound_event_id = e <;>
      simp [release_matching_lease, DeliveryLeaseStore.load, DeliveryLeaseStore.remove,
        releasedLease, hs, he]

def nextLeaseVersion (m : MailboxFiles) : ℕ :=
  match m.lease with
  | some l => l.lease_version + 1
  | none => (m.summary.map fun p => p.lease_version).getD 0 + 1

theorem next_lease_version_run (m : MailboxFiles) :
    next_lease_version.run m = (.ok (nextLeaseVersion m), m) := by
  obtain ⟨inbox, lease, summary, saves⟩ := m
  cases lease with
  | none => cases summary <;> rfl
  | some l => rfl

def claimLease (m : MailboxFiles) (e : EventId) (timestamp : Timestamp) : DeliveryLease :=
  { agent_name := agent_name
    inbound_event_id := e
    lease_version := nextLeaseVersion m
    acquired_at := timestamp
    last_progress_at := some timestamp
    expires_at := lease_expires_at_value service timestamp
    lease_state := .acquired }

/-- The inbox and lease after a claim of `current`. -/
def delivered (m : MailboxFiles) (current : InboundEventRecord) (timestamp : Timestamp) :
    MailboxFiles :=
  { m with
    inbox := m.inbox ++ [delivery_record current timestamp]
    lease := some (claimLease service agent_name m current.inbound_event_id timestamp)
    lease_saves := m.lease_saves ++
      [claimLease service agent_name m current.inbound_event_id timestamp] }

/-- The summary fields a claim moves the stored summary `p` to. -/
def claimFields (p : MailboxRecord) (current : InboundEventRecord) (timestamp : Timestamp) :
    SummaryFields :=
  { queue_depth := p.queue_depth
    pending_reply_count := p.pending_reply_count
    active_inbound_event_id := some current.inbound_event_id
    last_started_at := latest_timestamp p.last_inbound_started_at
      (delivery_record current timestamp).started_at
    last_finished_at := p.last_inbound_finished_at
    updated_at := timestamp
    summary_source := .transition_claim }

/-- The files after `claim_current`, summary included. -/
def claimed (m : MailboxFiles) (current : InboundEventRecord) (timestamp : Timestamp) :
    MailboxFiles :=
  match m.summary with
  | none => refreshed agent_name (delivered service agent_name m current timestamp) timestamp
  | some p =>
    if headMoved p current.inbound_event_id then
      refreshed agent_name (delivered service agent_name m current timestamp) timestamp
    else
      { delivered service agent_name m current timestamp with
        summary := some (buildRecord agent_name m.summary
          (delivered service agent_name m current timestamp).lease
          (claimFields p current timestamp)
          (summary_head_from_event (some (delivery_record current timestamp)))) }

/-- **A claim of the current head** appends its delivery record, saves a lease
of the next version and then writes the summary. -/
theorem claim_current_run (current : InboundEventRecord) (timestamp : Timestamp)
    (m : MailboxFiles) :
    (claim_current service agent_name current timestamp).run m =
      (.ok (delivery_record current timestamp),
        claimed service agent_name m current timestamp) := by
  have hversion := next_lease_version_run
    { m with inbox := m.inbox ++ [delivery_record current timestamp] }
  simp only [claim_current, InboundEventStore.append, delivery_lease, DeliveryLeaseStore.save,
    MailboxStore.load, Prog.bind_eq, Prog.write_bind, Prog.run_access, Prog.bind_assoc]
  rw [Prog.run_bind_ok hversion]
  simp only [Prog.pure_eq, Prog.ret_bind, Prog.read_bind, Prog.run_access, id]
  cases hsummary : m.summary with
  | none =>
    simp only [refresh_and_return_run, claimed, hsummary]
    simp [refreshed, delivered, claimLease, nextLeaseVersion, hsummary]
  | some p =>
    by_cases hmoved : headMoved p current.inbound_event_id
    · simp only [if_pos hmoved, refresh_and_return_run, claimed, hsummary]
      simp [refreshed, delivered, claimLease, nextLeaseVersion, hsummary]
    · simp only [if_neg hmoved, claimed, hsummary]
      rw [Prog.run_bind_ok (apply_transition_summary_update_run agent_name _ _ _)]
      simp [delivered, claimLease, claimFields, nextLeaseVersion, hsummary]

/-- **What a claim can do**: refuse and refresh, find the event already
delivering and refresh, or claim a head of claimable status that no lease of another
event stands against. -/
theorem claim_run (e : EventId) (started_at : Option Timestamp) (m : MailboxFiles) :
    (∃ v, (claim service agent_name e started_at).run m =
      (.ok v, refreshed agent_name m (started_at.getD service.clock))) ∨
    ∃ current, latestEvent m e = some current ∧ current.status.claimable ∧
      (pending m).head?.map (fun h => h.inbound_event_id) = some e ∧
      m.lease.all (fun l => l.lease_state ≠ .acquired || l.inbound_event_id = e) ∧
      (claim service agent_name e started_at).run m =
        (.ok (some (delivery_record current (started_at.getD service.clock))),
          claimed service agent_name m current (started_at.getD service.clock)) := by
  generalize hts : started_at.getD service.clock = timestamp
  simp only [claim, load_claim_candidate, InboundEventStore.get_latest, has_conflicting_lease,
    is_claimable_head, DeliveryLeaseStore.load, Prog.bind_eq, Prog.pure_eq, Prog.read_bind,
    Prog.access_bind, Prog.ret_bind, Prog.run_access, id, hts]
  cases hlatest : latestEvent m e with
  | none =>
    left
    simp only [latestEvent] at hlatest
    simp only [hlatest, Option.filter_none, refresh_and_return_run]
    exact ⟨none, rfl⟩
  | some current =>
    have hid : current.inbound_event_id = e := (latestEvent_eq_some_iff.1 hlatest).2
    simp only [latestEvent] at hlatest
    by_cases hterminal : current.status.terminal
    · left
      simp only [hlatest, Option.filter_some, hterminal, Bool.not_true, Bool.false_eq_true,
        if_false, refresh_and_return_run]
      exact ⟨none, rfl⟩
    · simp only [hlatest, Option.filter_some, hterminal, Bool.not_false, if_true,
        Prog.run_access, id]
      by_cases hlease : m.lease.any fun l =>
          l.lease_state = .acquired && l.inbound_event_id ≠ e
      · left
        simp only [hlease, if_true, refresh_and_return_run]
        exact ⟨none, rfl⟩
      · simp only [hlease, Bool.false_eq_true, if_false]
        by_cases hdelivering : current.status = .delivering
        · left
          simp only [if_pos hdelivering, refresh_and_return_run]
          exact ⟨some current, rfl⟩
        · simp only [if_neg hdelivering]
          have hclaimable : current.status.claimable := by
            cases hs : current.status <;>
              simp_all [InboundEventStatus.claimable, InboundEventStatus.terminal]
          simp only [hclaimable, not_true_eq_false, if_false, Prog.bind_assoc]
          rw [Prog.run_bind_ok (head_pending_event_run m)]
          simp only [Prog.ret_bind, hid]
          by_cases hhead : (pending m).head?.any fun h => h.inbound_event_id = e
          · right
            refine ⟨current, rfl, hclaimable, ?_, ?_, ?_⟩
            · cases hp : (pending m).head? <;> simp_all
            · cases hl : m.lease with
              | none => rfl
              | some l =>
                simp only [hl, Option.any_some, Bool.and_eq_true, decide_eq_true_eq,
                  not_and, not_not] at hlease
                by_cases hs : l.lease_state = .acquired <;> simp [hs, hlease]
            · simp only [hhead, if_true]
              rw [Prog.run_bind_ok (claim_current_run service agent_name current timestamp m)]
              rfl
          · left
            simp only [hhead, Bool.false_eq_true, if_false, refresh_and_return_run]
            exact ⟨none, rfl⟩

theorem claim_next_run (event_type : Option InboundEventType) (started_at : Option Timestamp)
    (m : MailboxFiles) :
    (∃ v, (claim_next service agent_name event_type started_at).run m =
      (.ok v, refreshed agent_name m (started_at.getD service.clock))) ∨
    ∃ e, (claim_next service agent_name event_type started_at).run m =
      (claim service agent_name e started_at).run m := by
  have hpeek : ∃ v, (peek_next event_type).run m = (.ok v, m) := by
    simp only [peek_next, Prog.bind_eq]
    rw [Prog.run_bind_ok (head_pending_event_run m)]
    cases (pending m).head? with
    | none => exact ⟨none, rfl⟩
    | some h =>
      simp only [Prog.pure_eq]
      split
      · exact ⟨none, rfl⟩
      · split
        · exact ⟨none, rfl⟩
        · exact ⟨some h, rfl⟩
  obtain ⟨v, hv⟩ := hpeek
  simp only [claim_next, Prog.bind_eq]
  rw [Prog.run_bind_ok hv]
  cases v with
  | none => exact Or.inl ⟨none, refresh_and_return_run service agent_name _ _ m⟩
  | some next_event => exact Or.inr ⟨next_event.inbound_event_id, rfl⟩

/-- The inbox and lease after an event record was replaced by `updated` and its lease
released. -/
def moved (m : MailboxFiles) (updated : InboundEventRecord) : MailboxFiles :=
  { m with
    inbox := m.inbox ++ [updated]
    lease := releasedLease m.lease updated.inbound_event_id }

theorem append_release_run {α : Type} (updated : InboundEventRecord) (k : Unit → MailboxM α)
    (m : MailboxFiles) :
    ((InboundEventStore.append updated).bind fun _ =>
      (release_matching_lease updated.inbound_event_id).bind k).run m =
      (k ()).run (moved m updated) := by
  simp only [InboundEventStore.append, Prog.write_bind, Prog.run_access]
  rw [Prog.run_bind_ok (release_matching_lease_run _ _)]
  rfl

def terminalRecord (current : InboundEventRecord) (status : InboundEventStatus)
    (timestamp : Timestamp) : InboundEventRecord :=
  { current with status := status, finished_at := some timestamp }

def terminalFields (p : MailboxRecord) (current : InboundEventRecord)
    (timestamp : Timestamp) : SummaryFields :=
  { queue_depth := p.queue_depth - 1
    pending_reply_count :=
      p.pending_reply_count - (if current.event_type = .task_reply then 1 else 0)
    active_inbound_event_id := clearedActive p current.inbound_event_id
    last_started_at := p.last_inbound_started_at
    last_finished_at := latest_timestamp p.last_inbound_finished_at (some timestamp)
    updated_at := timestamp
    summary_source := .transition_terminal }

/-- The head a terminal transition of `e` writes, read in the files after the append;
`none` where it rebuilds. -/
def headAfterTerminal (m : MailboxFiles) (p : MailboxRecord) (e : EventId) : Option SummaryHead :=
  if p.head_inbound_event_id = some e then
    if p.queue_depth - 1 = 0 then some empty_head
    else if p.queue_depth - 1 = 1 then some (summary_head_from_event (pending m).head?)
    else (pending m).head?.map fun h => summary_head_from_event (some h)
  else some p.toSummaryHead

theorem head_after_terminal_run (p : MailboxRecord) (e : EventId) (m : MailboxFiles) :
    (head_after_terminal p e (p.queue_depth - 1)).run m = (.ok (headAfterTerminal m p e), m) := by
  simp only [head_after_terminal, headAfterTerminal, Prog.bind_eq, Prog.pure_eq]
  split
  · split
    · rfl
    · split
      · rw [Prog.run_bind_ok (head_pending_event_run m)]
        rfl
      · rw [Prog.run_bind_ok (head_pending_event_run m)]
        rfl
  · rfl

/-- The files after a terminal transition of `current`, summary included. -/
def finished (m : MailboxFiles) (current : InboundEventRecord) (status : InboundEventStatus)
    (timestamp : Timestamp) : MailboxFiles :=
  let m' := moved m (terminalRecord current status timestamp)
  match m.summary with
  | none => refreshed agent_name m' timestamp
  | some p =>
    if p.queue_depth = 0 then refreshed agent_name m' timestamp
    else
      match headAfterTerminal m' p current.inbound_event_id with
      | none => refreshed agent_name m' timestamp
      | some head =>
        { m' with summary := some (buildRecord agent_name m.summary m'.lease
          (terminalFields p current timestamp) head) }

/-- **What a terminal transition can do**: refresh when the event is unknown or
terminal already, or append its terminal record, release its lease and write the summary. -/
theorem mark_terminal_run (e : EventId) (status : InboundEventStatus)
    (finished_at : Option Timestamp) (m : MailboxFiles) :
    ((∀ current, latestEvent m e = some current → current.status.terminal) ∧
      (mark_terminal service agent_name e status finished_at).run m =
        (.ok (latestEvent m e), refreshed agent_name m (finished_at.getD service.clock))) ∨
    ∃ current, latestEvent m e = some current ∧ ¬current.status.terminal ∧
      (mark_terminal service agent_name e status finished_at).run m =
        (.ok (some (terminalRecord current status (finished_at.getD service.clock))),
          finished agent_name m current status (finished_at.getD service.clock)) := by
  generalize hts : finished_at.getD service.clock = timestamp
  simp only [mark_terminal, InboundEventStore.get_latest, Prog.bind_eq, Prog.pure_eq,
    Prog.read_bind, Prog.run_access, id, hts]
  rw [show latest? (fun r : InboundEventRecord => r.inbound_event_id) e m.inbox =
    latestEvent m e from rfl]
  cases hlatest : latestEvent m e with
  | none =>
    left
    exact ⟨by simp, refresh_and_return_run service agent_name timestamp none m⟩
  | some current =>
    obtain rfl : current.inbound_event_id = e := (latestEvent_eq_some_iff.1 hlatest).2
    by_cases hterminal : current.status.terminal
    · left
      refine ⟨fun _ h => Option.some.inj h ▸ hterminal, ?_⟩
      simp only [if_pos hterminal, refresh_and_return_run]
      rfl
    · right
      refine ⟨current, rfl, hterminal, ?_⟩
      simp only [if_neg hterminal]
      refine (append_release_run (terminalRecord current status timestamp) _ m).trans ?_
      simp only [MailboxStore.load, Prog.read_bind, Prog.run_access, id, finished]
      cases hsummary : m.summary with
      | none =>
        simp only [moved, hsummary, refresh_and_return_run]
        rfl
      | some p =>
        rw [show (moved m (terminalRecord current status timestamp)).summary = some p from
          hsummary]
        by_cases hdepth : p.queue_depth = 0
        · simp only [if_pos hdepth, refresh_and_return_run]
          rfl
        · simp only [if_neg hdepth]
          rw [Prog.run_bind_ok (head_after_terminal_run p current.inbound_event_id _)]
          cases headAfterTerminal (moved m (terminalRecord current status timestamp)) p
              current.inbound_event_id with
          | none =>
            simp only [refresh_and_return_run]
            rfl
          | some head =>
            simp only []
            rw [Prog.run_bind_ok (apply_transition_summary_update_run agent_name _ _ _),
              show (moved m (terminalRecord current status timestamp)).summary = some p from
                hsummary]
            rfl

/-- The record of an event that was put back in the queue. -/
def rewrittenRecord (current : InboundEventRecord) (payload_ref : Option PayloadRef)
    (status : InboundEventStatus) (clear_progress : Bool) : InboundEventRecord :=
  { current with
    payload_ref := payload_ref
    status := status
    started_at := if clear_progress then none else current.started_at
    finished_at := if clear_progress then none else current.finished_at }

def rewriteFields (p : MailboxRecord) (e : EventId) (timestamp : Timestamp) : SummaryFields :=
  { queue_depth := p.queue_depth
    pending_reply_count := p.pending_reply_count
    active_inbound_event_id := clearedActive p e
    last_started_at := p.last_inbound_started_at
    last_finished_at := p.last_inbound_finished_at
    updated_at := timestamp
    summary_source := .transition_rewrite_head }

/-- The files after `rewrite_head` wrote `updated`, summary included. -/
def rewritten (m : MailboxFiles) (updated : InboundEventRecord) (timestamp : Timestamp) :
    MailboxFiles :=
  let m' := moved m updated
  match m.summary with
  | none => refreshed agent_name m' timestamp
  | some p =>
    if headMoved p updated.inbound_event_id then refreshed agent_name m' timestamp
    else
      { m' with summary := some (buildRecord agent_name m.summary m'.lease
        (rewriteFields p updated.inbound_event_id timestamp)
        (summary_head_from_event (some updated))) }

/-- **What a head rewrite can do**: refresh when the event is unknown or
terminal, or append the rewritten record, release its lease and write the summary. -/
theorem rewrite_head_run (e : EventId) (payload_ref : Option PayloadRef)
    (status : InboundEventStatus) (updated_at : Option Timestamp) (clear_progress : Bool)
    (m : MailboxFiles) :
    ((∀ current, latestEvent m e = some current → current.status.terminal) ∧
      (rewrite_head service agent_name e payload_ref status updated_at clear_progress).run m =
        (.ok none, refreshed agent_name m (updated_at.getD service.clock))) ∨
    ∃ current, latestEvent m e = some current ∧ ¬current.status.terminal ∧
      (rewrite_head service agent_name e payload_ref status updated_at clear_progress).run m =
        (.ok (some (rewrittenRecord current payload_ref status clear_progress)),
          rewritten agent_name m (rewrittenRecord current payload_ref status clear_progress)
            (updated_at.getD service.clock)) := by
  generalize hts : updated_at.getD service.clock = timestamp
  simp only [rewrite_head, InboundEventStore.get_latest, Prog.bind_eq, Prog.pure_eq,
    Prog.read_bind, Prog.run_access, id, hts]
  rw [show latest? (fun r : InboundEventRecord => r.inbound_event_id) e m.inbox =
    latestEvent m e from rfl]
  cases hlatest : latestEvent m e with
  | none =>
    left
    exact ⟨by simp, refresh_and_return_run service agent_name timestamp none m⟩
  | some current =>
    obtain rfl : current.inbound_event_id = e := (latestEvent_eq_some_iff.1 hlatest).2
    by_cases hterminal : current.status.terminal
    · left
      refine ⟨fun _ h => Option.some.inj h ▸ hterminal, ?_⟩
      simp only [if_pos hterminal, refresh_and_return_run]
      rfl
    · right
      refine ⟨current, rfl, hterminal, ?_⟩
      simp only [if_neg hterminal]
      refine (append_release_run
        (rewrittenRecord current payload_ref status clear_progress) _ m).trans ?_
      simp only [MailboxStore.load, Prog.read_bind, Prog.run_access, id, rewritten]
      cases hsummary : m.summary with
      | none =>
        simp only [moved, hsummary, refresh_and_return_run]
        rfl
      | some p =>
        rw [show (moved m (rewrittenRecord current payload_ref status clear_progress)).summary =
            some p from hsummary]
        simp only [show (rewrittenRecord current payload_ref status
            clear_progress).inbound_event_id = current.inbound_event_id from rfl]
        by_cases hmoved : headMoved p current.inbound_event_id
        · simp only [if_pos hmoved, refresh_and_return_run]
          rfl
        · simp only [if_neg hmoved]
          rw [Prog.run_bind_ok (apply_transition_summary_update_run agent_name _ _ _),
            show (moved m _).summary = some p from hsummary]
          rfl

def leaseExpired (m : MailboxFiles) (l : DeliveryLease) : MailboxFiles :=
  { m with
    lease := some { l with lease_state := .expired }
    lease_saves := m.lease_saves ++ [{ l with lease_state := .expired }] }

/-- **What lease expiry can do**: nothing without an acquired lease, drop a
lease whose event is unknown or terminal, or mark the lease EXPIRED and abandon its event. -/
theorem expire_lease_run (finished_at : Option Timestamp) (m : MailboxFiles) :
    (expire_lease service agent_name finished_at).run m = (.ok none, m) ∨
    (∃ l, m.lease = some l ∧ l.lease_state = .acquired ∧
      (∀ current, latestEvent m l.inbound_event_id = some current → current.status.terminal) ∧
      (expire_lease service agent_name finished_at).run m =
        (.ok none,
          refreshed agent_name { m with lease := none } (finished_at.getD service.clock))) ∨
    ∃ l current, m.lease = some l ∧ l.lease_state = .acquired ∧
      latestEvent m l.inbound_event_id = some current ∧ ¬current.status.terminal ∧
      (expire_lease service agent_name finished_at).run m =
        (.ok (some (terminalRecord current .abandoned (finished_at.getD service.clock))),
          finished agent_name (leaseExpired m l) current .abandoned
            (finished_at.getD service.clock)) := by
  generalize hts : finished_at.getD service.clock = timestamp
  simp only [expire_lease, DeliveryLeaseStore.load, Prog.bind_eq, Prog.pure_eq,
    Prog.read_bind, Prog.run_access, id, hts]
  cases hlease : m.lease with
  | none => exact Or.inl rfl
  | some l =>
    by_cases hstate : l.lease_state = .acquired
    · right
      simp only [hstate, ne_eq, not_true_eq_false, if_false, InboundEventStore.get_latest,
        Prog.read_bind, Prog.run_access, id]
      rw [show latest? (fun r : InboundEventRecord => r.inbound_event_id) l.inbound_event_id
        m.inbox = latestEvent m l.inbound_event_id from rfl]
      by_cases hdead : (latestEvent m l.inbound_event_id).all fun c => c.status.terminal
      · left
        refine ⟨l, rfl, hstate, fun c hc => by simpa [hc] using hdead, ?_⟩
        simp only [hdead, if_true, DeliveryLeaseStore.remove, Prog.write_bind,
          Prog.run_access, refresh_and_return_run]
        rfl
      · right
        simp only [hdead, Bool.false_eq_true, if_false, DeliveryLeaseStore.save,
          Prog.write_bind, Prog.run_access]
        rcases mark_terminal_run service agent_name l.inbound_event_id .abandoned
          (some timestamp) (leaseExpired m l) with ⟨hall, _⟩ | ⟨current, hcurrent, hnt, hrun⟩
        · refine absurd ?_ hdead
          cases hc : latestEvent m l.inbound_event_id with
          | none => rfl
          | some c => exact hall c hc
        · exact ⟨l, current, rfl, hstate, hcurrent, hnt, hrun⟩
    · left
      simp only [ne_eq, hstate, not_false_eq_true, if_true]
      rfl

/-- **What an acknowledgement can do**: refresh, finish the event if it is
delivering, or claim it and then finish it. -/
theorem ack_reply_run (e : EventId) (started_at finished_at : Option Timestamp) (m : MailboxFiles) :
    (∃ v t, (ack_reply service agent_name e started_at finished_at).run m =
      (.ok v, refreshed agent_name m t)) ∨
    (∃ t, (ack_reply service agent_name e started_at finished_at).run m =
      (mark_terminal service agent_name e .consumed (some t)).run m) ∨
    (∃ t m' v t', (claim service agent_name e (some t)).run m = (.ok none, m') ∧
      (ack_reply service agent_name e started_at finished_at).run m =
        (.ok v, refreshed agent_name m' t')) ∨
    ∃ t r m' t', (claim service agent_name e (some t)).run m = (.ok (some r), m') ∧
      (ack_reply service agent_name e started_at finished_at).run m =
        (mark_terminal service agent_name e .consumed (some t')).run m' := by
  simp only [ack_reply, Prog.bind_eq]
  rw [Prog.run_bind_ok (head_pending_event_run m)]
  generalize (finished_at.or started_at).getD service.clock = timestamp
  by_cases hhead : head_matches_reply (pending m).head? e
  · simp only [hhead, not_true_eq_false, if_false, InboundEventStore.get_latest,
      Prog.read_bind, Prog.run_access, id]
    cases latest? (fun r : InboundEventRecord => r.inbound_event_id) e m.inbox with
    | none => exact Or.inl ⟨none, timestamp, refresh_and_return_run service agent_name _ _ m⟩
    | some current =>
      simp only []
      by_cases hterminal : current.status.terminal
      · simp only [if_pos hterminal]
        exact Or.inl ⟨some current, timestamp, refresh_and_return_run service agent_name _ _ m⟩
      · simp only [if_neg hterminal]
        by_cases hdelivering : current.status = .delivering
        · simp only [if_pos hdelivering]
          exact Or.inr (Or.inl ⟨_, rfl⟩)
        · simp only [if_neg hdelivering]
          rcases claim_run service agent_name e (some (started_at.getD timestamp)) m with
            ⟨v, hv⟩ | ⟨c, _, _, _, _, hc⟩
          · rw [Prog.run_bind_ok hv]
            cases v with
            | none =>
              exact Or.inr (Or.inr (Or.inl ⟨_, _, none, timestamp, hv,
                refresh_and_return_run service agent_name _ _ _⟩))
            | some r => exact Or.inr (Or.inr (Or.inr ⟨_, r, _, _, hv, rfl⟩))
          · rw [Prog.run_bind_ok hc]
            exact Or.inr (Or.inr (Or.inr ⟨_, _, _, _, hc, rfl⟩))
  · simp only [hhead]
    exact Or.inl ⟨none, timestamp, refresh_and_return_run service agent_name _ _ m⟩

end ClaudeCodeBridge.Analysis
