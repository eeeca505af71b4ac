import ClaudeCodeBridge.Model.MessageBureau
import ClaudeCodeBridge.Analysis.MailboxExclusion

/-!
# The mailbox summary agrees with history

The stored mailbox summary is kept up by three code paths: a rebuild from the inbox, a
delta added by the bureau after an append, and a transition that moves the stored record
on.  Run one at a time, all three leave the record that a projection from the inbox and
the lease would give.

The ladder: `Matches` says what a record has to agree with; a record built from matching
fields matches (`matches_build`), so a rebuild matches whatever stood before
(`agrees_refreshed`); each transition hands `buildRecord` matching fields
(`agrees_claimed`, `agrees_finished`, `agrees_rewritten`); so do the bureau's deltas
(`queue_event_agrees`).  `call_agrees` collects them for every call, and
`summary_agrees_with_history` is the run.
-/

set_option autoImplicit false

namespace ClaudeCodeBridge.Analysis

open Program
open Model
open Model.MailboxKernel

variable {service : MailboxKernelService} {agent_name : AgentName} {m : MailboxFiles}

/-- The record `p` says what the inbox and the lease of `m` say. -/
structure Matches (m : MailboxFiles) (p : MailboxRecord) : Prop where
  depth : p.queue_depth = (pending m).length
  replies : p.pending_reply_count = replyCount (pending m)
  active : p.active_inbound_event_id = active_inbound_event_id m.lease
  head : p.toSummaryHead = summary_head_from_event (pending m).head?
  state : p.mailbox_state =
    derive_mailbox_state (active_inbound_event_id m.lease).isSome (pending m).length
  version : ∀ l, m.lease = some l → p.lease_version = l.lease_version

/-- The stored record matches, and without one there is nothing to summarise. -/
structure Agrees (m : MailboxFiles) : Prop where
  stored : ∀ p, m.summary = some p → Matches m p
  unstored : m.summary = none → pending m = [] ∧ m.lease = none

theorem active_isSome (lease : Option DeliveryLease) :
    (active_inbound_event_id lease).isSome = lease.any fun l => l.lease_state = .acquired := by
  cases lease with
  | none => rfl
  | some l => by_cases hs : l.lease_state = .acquired <;> simp [active_inbound_event_id, hs]

theorem matches_build (prior : Option MailboxRecord) (fields : SummaryFields)
    (head : SummaryHead) (hdepth : fields.queue_depth = (pending m).length)
    (hreplies : fields.pending_reply_count = replyCount (pending m))
    (hactive : fields.active_inbound_event_id = active_inbound_event_id m.lease)
    (hhead : head = summary_head_from_event (pending m).head?) :
    Matches m (buildRecord agent_name prior m.lease fields head) where
  depth := hdepth
  replies := hreplies
  active := hactive
  head := hhead
  state := by
    show derive_mailbox_state _ fields.queue_depth = _
    rw [hactive, hdepth, active_isSome, Bool.or_self]
  version := by
    intro l hl
    simp [buildRecord, hl]

variable {p : MailboxRecord}

theorem agrees_store (h : Matches m p) : Agrees { m with summary := some p } where
  stored := by
    intro q hq
    obtain rfl : p = q := Option.some.inj hq
    exact ⟨h.depth, h.replies, h.active, h.head, h.state, h.version⟩
  unstored := by
    intro hnone
    cases hnone

theorem agrees_projection (m : MailboxFiles) (prior : Option MailboxRecord)
    (timestamp : Timestamp) (source : SummarySource) :
    Agrees { m with summary := some (projection agent_name m prior timestamp source) } :=
  agrees_store (matches_build _ _ _ rfl rfl rfl rfl)

theorem agrees_refreshed (timestamp : Timestamp) : Agrees (refreshed agent_name m timestamp) :=
  agrees_projection m _ _ _

theorem Matches.head_id (h : Matches m p) :
    p.head_inbound_event_id = (pending m).head?.map fun r => r.inbound_event_id := by
  have := congrArg SummaryHead.head_inbound_event_id h.head
  rw [this]
  cases (pending m).head? <;> rfl

theorem head_eq_of_id {current : InboundEventRecord} {e : EventId}
    (hlatest : latestEvent m e = some current)
    (hhead : (pending m).head?.map (fun r => r.inbound_event_id) = some e) :
    (pending m).head? = some current := by
  obtain ⟨r, hr, hid⟩ := Option.map_eq_some_iff.1 hhead
  have hmem := (List.mem_filter.1 (List.mem_of_mem_head? hr)).1
  rw [hr, ← latestEvent_eq_some_iff.2 ⟨hmem, hid⟩, hlatest]

/-- The head test of a transition reads the head of the pending events. -/
theorem Matches.head_of_not_headMoved (h : Matches m p)
    {current : InboundEventRecord} {e : EventId} (hlatest : latestEvent m e = some current)
    (hmoved : ¬headMoved p e) : (pending m).head? = some current := by
  refine head_eq_of_id hlatest ?_
  rw [← h.head_id]
  simp only [headMoved, Bool.or_eq_true, decide_eq_true_eq, not_or, not_not] at hmoved
  exact hmoved.2

theorem agrees_claimed (h : Agrees m) {current : InboundEventRecord} (timestamp : Timestamp)
    (hlatest : latestEvent m current.inbound_event_id = some current) :
    Agrees (claimed service agent_name m current timestamp) := by
  unfold claimed
  cases hsummary : m.summary with
  | none => exact agrees_refreshed timestamp
  | some p =>
    by_cases hmoved : headMoved p current.inbound_event_id
    · simp only [if_pos hmoved]
      exact agrees_refreshed timestamp
    · simp only [if_neg hmoved]
      have hmatch := h.stored p hsummary
      obtain ⟨behind, hold, hnew⟩ := pending_replace_head
        (hmatch.head_of_not_headMoved hlatest hmoved)
        (show (delivery_record current timestamp).inbound_event_id =
          current.inbound_event_id from rfl)
      rw [show (delivery_record current timestamp).status.terminal = false from rfl,
        if_neg (by simp)] at hnew
      have hpending : pending (delivered service agent_name m current timestamp) =
        delivery_record current timestamp :: behind := hnew
      refine agrees_store (matches_build _ _ _ ?_ ?_ ?_ ?_)
      · rw [hpending, List.length_cons]
        exact hmatch.depth.trans (by rw [hold, List.length_cons])
      · rw [hpending]
        exact hmatch.replies.trans (by rw [hold]; rfl)
      · rfl
      · rw [hpending]
        rfl

theorem Matches.clearedActive_eq (h : Matches m p) (e : EventId) :
    clearedActive p e = active_inbound_event_id (releasedLease m.lease e) := by
  rw [clearedActive, h.active]
  cases m.lease with
  | none => rfl
  | some l =>
    by_cases hs : l.lease_state = .acquired
    · by_cases he : l.inbound_event_id = e <;>
        simp [active_inbound_event_id, releasedLease, hs, he]
    · simp [active_inbound_event_id, releasedLease, hs]

theorem replyCount_remove (before behind : List InboundEventRecord) (current : InboundEventRecord) :
    replyCount (before ++ current :: behind) -
      (if current.event_type = .task_reply then 1 else 0) = replyCount (before ++ behind) := by
  simp only [replyCount, List.countP_append, List.countP_cons]
  by_cases ht : current.event_type = .task_reply <;> simp [ht]

/-- **The head a terminal transition writes** is the head of the events that
stay pending. -/
theorem headAfterTerminal_eq {current : InboundEventRecord}
    {before behind : List InboundEventRecord} {m' : MailboxFiles}
    (hdepth : p.queue_depth = (before ++ current :: behind).length) (hhead : p.toSummaryHead =
      summary_head_from_event (before ++ current :: behind).head?)
    (hdistinct : current.inbound_event_id ∉ before.map fun r => r.inbound_event_id)
    (hnew : pending m' = before ++ behind) {head : SummaryHead}
    (h : headAfterTerminal m' p current.inbound_event_id = some head) :
    head = summary_head_from_event (pending m').head? := by
  have hid := congrArg SummaryHead.head_inbound_event_id hhead
  cases before with
  | nil =>
    have hmine : p.head_inbound_event_id = some current.inbound_event_id := hid
    simp only [headAfterTerminal, if_pos hmine] at h
    rw [hnew] at h ⊢
    simp only [List.nil_append, List.length_cons] at hdepth h ⊢
    cases behind with
    | nil =>
      have hzero : p.queue_depth - 1 = 0 := by simp [hdepth]
      rw [if_pos hzero] at h
      exact (Option.some.inj h).symm
    | cons x xs =>
      have hpos : p.queue_depth - 1 ≠ 0 := by simp [hdepth]
      rw [if_neg hpos] at h
      split at h
      · exact (Option.some.inj h).symm
      · exact (Option.some.inj h).symm
  | cons x xs =>
    have hother : p.head_inbound_event_id = some x.inbound_event_id := hid
    have hne : p.head_inbound_event_id ≠ some current.inbound_event_id := by
      rw [hother]
      intro he
      exact hdistinct (by simp [Option.some.inj he])
    simp only [headAfterTerminal, if_neg hne] at h
    rw [hnew, ← Option.some.inj h, hhead]
    rfl

/-- **A terminal transition keeps the agreement.**  The stored record may still
name an active event whose lease has just expired: the transition clears it. -/
theorem agrees_finished {current : InboundEventRecord} {status : InboundEventStatus}
    (timestamp : Timestamp)
    (hstored : ∀ p, m.summary = some p → p.queue_depth = (pending m).length ∧
      p.pending_reply_count = replyCount (pending m) ∧
      p.toSummaryHead = summary_head_from_event (pending m).head? ∧
      clearedActive p current.inbound_event_id =
        active_inbound_event_id (releasedLease m.lease current.inbound_event_id))
    (hlatest : latestEvent m current.inbound_event_id = some current)
    (hlive : ¬current.status.terminal) (hstatus : status.terminal) :
    Agrees (finished agent_name m current status timestamp) := by
  unfold finished
  cases hsummary : m.summary with
  | none => exact agrees_refreshed timestamp
  | some p =>
    by_cases hzero : p.queue_depth = 0
    · simp only [if_pos hzero]
      exact agrees_refreshed timestamp
    · simp only [if_neg hzero]
      cases hhead : headAfterTerminal (moved m (terminalRecord current status timestamp)) p
          current.inbound_event_id with
      | none => exact agrees_refreshed timestamp
      | some head =>
        obtain ⟨hdepth, hreplies, hsummaryHead, hactive⟩ := hstored p hsummary
        obtain ⟨before, behind, hold, hnew⟩ := pending_replace
          (show latestEvent m (terminalRecord current status timestamp).inbound_event_id =
            some current from hlatest) hlive
        rw [show (terminalRecord current status timestamp).status.terminal = true from hstatus,
          if_pos rfl] at hnew
        have hpending : pending (moved m (terminalRecord current status timestamp)) =
          before ++ behind := hnew
        have hnd := pending_nodup m
        rw [hold, List.map_append, List.map_cons, List.nodup_middle, List.nodup_cons] at hnd
        rw [hold] at hdepth hreplies hsummaryHead
        refine agrees_store (matches_build _ _ _ ?_ ?_ ?_ ?_)
        · rw [hpending]
          show p.queue_depth - 1 = _
          rw [hdepth]
          simp
        · rw [hpending]
          show p.pending_reply_count - _ = _
          rw [hreplies]
          exact replyCount_remove before behind current
        · exact hactive
        · exact headAfterTerminal_eq hdepth hsummaryHead
            (fun hmem => hnd.1 (List.mem_append_left _ hmem)) hpending hhead

theorem agrees_rewritten (h : Agrees m) {current updated : InboundEventRecord}
    (timestamp : Timestamp) (hlatest : latestEvent m updated.inbound_event_id = some current)
    (htype : updated.event_type = current.event_type) (hstatus : ¬updated.status.terminal) :
    Agrees (rewritten agent_name m updated timestamp) := by
  unfold rewritten
  cases hsummary : m.summary with
  | none => exact agrees_refreshed timestamp
  | some p =>
    by_cases hmoved : headMoved p updated.inbound_event_id
    · simp only [if_pos hmoved]
      exact agrees_refreshed timestamp
    · simp only [if_neg hmoved]
      have hmatch := h.stored p hsummary
      have hid := (latestEvent_eq_some_iff.1 hlatest).2
      obtain ⟨behind, hold, hnew⟩ := pending_replace_head
        (hmatch.head_of_not_headMoved hlatest hmoved) hid.symm
      rw [if_neg hstatus] at hnew
      have hpending : pending (moved m updated) = updated :: behind := hnew
      refine agrees_store (matches_build _ _ _ ?_ ?_ ?_ ?_)
      · rw [hpending, List.length_cons]
        exact hmatch.depth.trans (by rw [hold, List.length_cons])
      · rw [hpending]
        refine hmatch.replies.trans ?_
        rw [hold]
        simp [replyCount, List.countP_cons, htype]
      · exact hmatch.clearedActive_eq _
      · rw [hpending]
        rfl

theorem Agrees.finishable (h : Agrees m) (e : EventId) : ∀ p, m.summary = some p →
    p.queue_depth = (pending m).length ∧ p.pending_reply_count = replyCount (pending m) ∧
      p.toSummaryHead = summary_head_from_event (pending m).head? ∧
      clearedActive p e = active_inbound_event_id (releasedLease m.lease e) := by
  intro p hp
  have hmatch := h.stored p hp
  exact ⟨hmatch.depth, hmatch.replies, hmatch.head, hmatch.clearedActive_eq e⟩

theorem claim_agrees (h : Agrees m) (e : EventId) (started_at : Option Timestamp) :
    Agrees ((MailboxKernel.claim service agent_name e started_at).run m).2 := by
  rcases claim_run service agent_name e started_at m with
    ⟨v, hv⟩ | ⟨current, hlatest, _, _, _, hrun⟩
  · rw [hv]
    exact agrees_refreshed _
  · rw [hrun]
    obtain rfl := (latestEvent_eq_some_iff.1 hlatest).2
    exact agrees_claimed h _ hlatest

theorem mark_terminal_agrees (h : Agrees m) (e : EventId) (status : InboundEventStatus)
    (finished_at : Option Timestamp) (hstatus : status.terminal) :
    Agrees ((mark_terminal service agent_name e status finished_at).run m).2 := by
  rcases mark_terminal_run service agent_name e status finished_at m with
    ⟨_, hrun⟩ | ⟨current, hlatest, hlive, hrun⟩
  · rw [hrun]
    exact agrees_refreshed _
  · rw [hrun]
    obtain rfl := (latestEvent_eq_some_iff.1 hlatest).2
    exact agrees_finished _ (h.finishable _) hlatest hlive hstatus

/-- Lease expiry keeps the agreement: the stored record names the expired lease
until the terminal transition clears it. -/
theorem expire_lease_agrees (h : Agrees m) (finished_at : Option Timestamp) :
    Agrees ((expire_lease service agent_name finished_at).run m).2 := by
  rcases expire_lease_run service agent_name finished_at m with
    hrun | ⟨l, hlease, hacquired, hdead, hrun⟩ |
      ⟨l, current, hlease, hacquired, hlatest, hlive, hrun⟩
  · rw [hrun]
    exact h
  · rw [hrun]
    exact agrees_refreshed _
  · rw [hrun]
    have hid := (latestEvent_eq_some_iff.1 hlatest).2
    refine agrees_finished _ ?_ (hid ▸ hlatest) hlive rfl
    intro p hp
    have hmatch := h.stored p hp
    refine ⟨hmatch.depth, hmatch.replies, hmatch.head, ?_⟩
    have hactive : p.active_inbound_event_id = some current.inbound_event_id := by
      rw [hmatch.active, hlease, active_inbound_event_id, if_pos hacquired, hid]
    simp [clearedActive, hactive, leaseExpired, releasedLease, active_inbound_event_id]

theorem call_agrees (h : Agrees m) (call : KernelCall) :
    Agrees ((call.exec service agent_name).run m).2 := by
  cases call with
  | claim e started_at =>
    exact discard_of (P := Agrees) (claim_agrees h e started_at)
  | claim_next event_type started_at =>
    refine discard_of (P := Agrees) ?_
    rcases claim_next_run service agent_name event_type started_at m with ⟨v, hv⟩ | ⟨e, he⟩
    · rw [hv]
      exact agrees_refreshed _
    · rw [he]
      exact claim_agrees h e started_at
  | ack_reply e started_at finished_at =>
    refine discard_of (P := Agrees) ?_
    rcases ack_reply_run service agent_name e started_at finished_at m with
      ⟨v, t, hrun⟩ | ⟨t, hrun⟩ | ⟨t, m', v, t', hclaim, hrun⟩ | ⟨t, r, m', t', hclaim, hrun⟩
    · rw [hrun]
      exact agrees_refreshed _
    · rw [hrun]
      exact mark_terminal_agrees h e .consumed (some t) rfl
    · rw [hrun]
      exact agrees_refreshed _
    · have hfirst : Agrees ((MailboxKernel.claim service agent_name e (some t)).run m).2 :=
        claim_agrees h e (some t)
      rw [hclaim] at hfirst
      rw [hrun]
      exact mark_terminal_agrees hfirst e .consumed (some t') rfl
  | consume e finished_at =>
    exact discard_of (P := Agrees) (mark_terminal_agrees h e .consumed finished_at rfl)
  | abandon e finished_at =>
    exact discard_of (P := Agrees) (mark_terminal_agrees h e .abandoned finished_at rfl)
  | supersede e finished_at =>
    exact discard_of (P := Agrees) (mark_terminal_agrees h e .superseded finished_at rfl)
  | rewrite_head e payload_ref updated_at clear_progress =>
    refine discard_of (P := Agrees) ?_
    rcases rewrite_head_run service agent_name e payload_ref .queued updated_at
      clear_progress m with ⟨_, hrun⟩ | ⟨current, hlatest, hlive, hrun⟩
    · rw [hrun]
      exact agrees_refreshed _
    · rw [hrun]
      have hid := (latestEvent_eq_some_iff.1 hlatest).2
      have hrewritten : latestEvent m
          (rewrittenRecord current payload_ref .queued clear_progress).inbound_event_id =
          some current := hid ▸ hlatest
      exact agrees_rewritten h _ hrewritten rfl
        (by simp [rewrittenRecord, InboundEventStatus.terminal])
  | expire_lease finished_at =>
    exact discard_of (P := Agrees) (expire_lease_agrees h finished_at)
  | rebuild_mailbox_summary updated_at =>
    refine discard_of (P := Agrees) ?_
    rw [rebuild_mailbox_summary_run]
    exact agrees_refreshed (updated_at.getD service.clock)

def counted (service : MailboxKernelService) (agent_name : AgentName) (m : MailboxFiles)
    (event : InboundEventRecord) (replies : Int) (timestamp : Timestamp) : MailboxFiles :=
  ((apply_incremental_summary_update service agent_name 1 replies none none none
    (some timestamp)).run { m with inbox := m.inbox ++ [event] }).2

/-- **A delta of one for an appended pending event keeps the agreement.** -/
theorem queue_event_agrees (h : Agrees m) {event : InboundEventRecord} {replies : Int}
    (timestamp : Timestamp)
    (hfresh : event.inbound_event_id ∉ m.inbox.map fun r => r.inbound_event_id)
    (hlive : ¬event.status.terminal)
    (hreplies : replies = if event.event_type = .task_reply then 1 else 0) :
    Agrees (counted service agent_name m event replies timestamp) := by
  rw [counted, apply_incremental_summary_update_run]
  have hpending : pending { m with inbox := m.inbox ++ [event] } = pending m ++ [event] := by
    rw [pending, pending_append hfresh, if_neg hlive]
  have hcount : replyCount (pending m ++ [event]) =
      replyCount (pending m) + (if event.event_type = .task_reply then 1 else 0) := by
    simp [replyCount, List.countP_append, List.countP_cons]
  refine agrees_store (matches_build _ _ _ ?_ ?_ ?_ rfl)
  · rw [hpending, List.length_append]
    cases hsummary : m.summary with
    | none =>
      rw [(h.unstored hsummary).1]
      simp [incrementalFields, bumped]
    | some p =>
      simp only [incrementalFields, bumped, Option.map_some, Option.getD_some,
        (h.stored p hsummary).depth, List.length_singleton]
      omega
  · rw [hpending, hcount]
    cases hsummary : m.summary with
    | none =>
      rw [(h.unstored hsummary).1]
      simp only [incrementalFields, bumped, Option.map_none, Option.getD_none, hreplies]
      split <;> rfl
    | some p =>
      simp only [incrementalFields, bumped, Option.map_some, Option.getD_some,
        (h.stored p hsummary).replies, hreplies]
      split <;> omega
  · show ((m.summary.bind fun p => p.active_inbound_event_id) : Option EventId) = _
    cases hsummary : m.summary with
    | none =>
      rw [(h.unstored hsummary).2]
      rfl
    | some p => exact (h.stored p hsummary).active

theorem append_terminal_agrees (h : Agrees m) {event : InboundEventRecord}
    (hfresh : event.inbound_event_id ∉ m.inbox.map fun r => r.inbound_event_id)
    (hterminal : event.status.terminal) :
    Agrees { m with inbox := m.inbox ++ [event] } := by
  have hpending : pending { m with inbox := m.inbox ++ [event] } = pending m := by
    rw [pending, pending_append hfresh, if_pos hterminal, List.append_nil]
  constructor
  · intro p hp
    have hmatch := h.stored p hp
    exact ⟨by rw [hpending]; exact hmatch.depth, by rw [hpending]; exact hmatch.replies,
      hmatch.active, by rw [hpending]; exact hmatch.head,
      by rw [hpending]; exact hmatch.state, hmatch.version⟩
  · intro hnone
    rw [hpending]
    exact h.unstored hnone

/-- Every mailbox agrees, and every id in an inbox has been given out. -/
structure BureauAgrees (s : BureauStore) : Prop where
  agrees : ∀ agent_name, Agrees (s.mailboxes agent_name)
  given : ∀ agent_name, ∀ e ∈ (s.mailboxes agent_name).inbox.map fun r => r.inbound_event_id,
    e < s.next_id

variable {s : BureauStore}

theorem BureauAgrees.update (h : BureauAgrees s) {m' : MailboxFiles} {next_id : ℕ}
    (hagrees : Agrees m') (hnext : s.next_id ≤ next_id)
    (hgiven : ∀ e ∈ m'.inbox.map fun r => r.inbound_event_id, e < next_id) :
    BureauAgrees { s with
      mailboxes := Function.update s.mailboxes agent_name m'
      next_id := next_id } := by
  constructor
  · intro a
    by_cases ha : a = agent_name
    · subst ha
      simpa using hagrees
    · simpa [ha] using h.agrees a
  · intro a e he
    by_cases ha : a = agent_name
    · subst ha
      exact hgiven e (by simpa using he)
    · exact Nat.lt_of_lt_of_le (h.given a e (by simpa [ha] using he)) hnext

theorem kernel_call_keeps (call : KernelCall) :
    Prog.Keeps BureauAgrees (onMailbox agent_name (call.exec service agent_name)) := by
  intro s h
  rw [run_onMailbox]
  refine h.update (call_agrees (h.agrees agent_name) call) (Nat.le_refl _) fun e he => ?_
  exact h.given agent_name e (filesSteps_ids (exec_filesSteps call) he)

theorem rebuild_keeps (updated_at : Option Timestamp) :
    Prog.Keeps BureauAgrees
      (onMailbox agent_name (rebuild_mailbox_summary service agent_name updated_at)) := by
  intro s h
  have hcall : Prog.Keeps BureauAgrees (onMailbox agent_name
      ((KernelCall.rebuild_mailbox_summary updated_at).exec service agent_name)) :=
    kernel_call_keeps _
  simpa [run_onMailbox, KernelCall.exec, run_discard] using hcall s h

theorem BureauAgrees.fresh (h : BureauAgrees s) (agent_name : AgentName) :
    s.next_id ∉ (s.mailboxes agent_name).inbox.map fun r => r.inbound_event_id :=
  fun hmem => absurd (h.given agent_name _ hmem) (Nat.lt_irrefl _)

theorem BureauAgrees.given_append (h : BureauAgrees s) {event : InboundEventRecord}
    (hid : event.inbound_event_id = s.next_id) :
    ∀ e ∈ ((s.mailboxes agent_name).inbox ++ [event]).map fun r => r.inbound_event_id,
      e < s.next_id + 1 := by
  intro e he
  rw [List.map_append, List.mem_append] at he
  rcases he with he | he
  · exact Nat.lt_succ_of_lt (h.given agent_name e he)
  · obtain rfl : e = event.inbound_event_id := by simpa using he
    rw [hid]
    exact Nat.lt_succ_self _

/-- Draw an id, append an event with it, and count the event: `queue_request` and
`queue_reply_delivery` are this program. -/
def queueEvent (service : MailboxKernelService) (agent_name : AgentName)
    (event : EventId → InboundEventRecord) (replies : Int) (timestamp : Timestamp) :
    BureauM Unit := do
  let inbound_event_id ← new_id
  onMailbox agent_name (InboundEventStore.append (event inbound_event_id))
  let _ ← onMailbox agent_name (apply_incremental_summary_update service agent_name 1 replies
    none none none (some timestamp))

theorem queueEvent_run (event : EventId → InboundEventRecord) (replies : Int)
    (timestamp : Timestamp) (s : BureauStore) :
    ((queueEvent service agent_name event replies timestamp).run s).2 =
      { s with
        mailboxes := Function.update s.mailboxes agent_name
          (counted service agent_name (s.mailboxes agent_name) (event s.next_id) replies
            timestamp)
        next_id := s.next_id + 1 } := by
  simp only [queueEvent, new_id, Prog.update, Prog.bind_eq, Prog.access_bind, Prog.ret_bind,
    Prog.run_access]
  rw [Prog.run_bind_ok (run_onMailbox agent_name _ _)]
  simp only [InboundEventStore.append, Prog.run_write, Prog.pure_eq, Prog.run_bind,
    run_onMailbox, Function.update_self, Function.update_idem, counted]
  split
  · rename_i heq
    simp only [Prod.mk.injEq] at heq
    simp [← heq.2]
  · rename_i heq
    simp only [Prod.mk.injEq] at heq
    simp [← heq.2]

theorem queueEvent_keeps (event : EventId → InboundEventRecord) (replies : Int)
    (timestamp : Timestamp) (hid : ∀ e, (event e).inbound_event_id = e)
    (hlive : ∀ e, ¬(event e).status.terminal)
    (hreplies : ∀ e, replies = if (event e).event_type = .task_reply then 1 else 0) :
    Prog.Keeps BureauAgrees (queueEvent service agent_name event replies timestamp) := by
  intro s h
  rw [queueEvent_run]
  have hfresh : (event s.next_id).inbound_event_id ∉
      (s.mailboxes agent_name).inbox.map fun r => r.inbound_event_id := by
    rw [hid]
    exact h.fresh agent_name
  refine h.update (queue_event_agrees (h.agrees agent_name) timestamp hfresh
    (hlive s.next_id) (hreplies s.next_id)) (Nat.le_succ _) fun e he => ?_
  rw [counted, apply_incremental_summary_update_run] at he
  exact h.given_append (hid s.next_id) e he

theorem keeps_beside {access : BureauAccess} {f : BureauStore → BureauStore}
    (hboxes : ∀ s, (f s).mailboxes = s.mailboxes) (hnext : ∀ s, (f s).next_id = s.next_id) :
    Prog.Keeps BureauAgrees (Prog.write access f : BureauM Unit) := by
  intro s h
  constructor
  · intro a
    show Agrees ((f s).mailboxes a)
    rw [hboxes]
    exact h.agrees a
  · intro a
    show ∀ e ∈ ((f s).mailboxes a).inbox.map _, e < (f s).next_id
    rw [hboxes, hnext]
    exact h.given a

theorem new_id_keeps : Prog.Keeps BureauAgrees new_id :=
  fun _ h => ⟨h.agrees, fun a e he => Nat.lt_succ_of_lt (h.given a e he)⟩

theorem set_message_state_keeps (message_id : MessageId) (next_state : MessageState)
    (updated_at : Timestamp) :
    Prog.Keeps BureauAgrees (MessageBureau.set_message_state message_id next_state updated_at) := by
  refine Prog.Keeps.bind (Prog.keeps_read _ _) fun current => ?_
  cases current with
  | none => exact Prog.keeps_ret ()
  | some current =>
    dsimp only
    split
    · exact Prog.keeps_ret ()
    · exact keeps_beside (fun _ => rfl) fun _ => rfl

theorem queue_request_keeps (job : JobRecord) (message_id : MessageId)
    (attempt_id : AttemptId) (accepted_at : Timestamp) :
    Prog.Keeps BureauAgrees
      (MessageBureau.queue_request service job message_id attempt_id accepted_at) :=
  queueEvent_keeps (fun e => MessageBureau.request_event e job message_id attempt_id
    accepted_at) 0 accepted_at (fun _ => rfl)
    (fun _ => by simp [MessageBureau.request_event, InboundEventStatus.terminal])
    fun _ => rfl

theorem record_submission_keeps (request : MessageEnvelope) (jobs : List JobRecord)
    (submission_id : Option SubmissionId) (accepted_at : Timestamp)
    (origin_message_id : Option MessageId) :
    Prog.Keeps BureauAgrees (MessageBureau.record_submission service request jobs
      submission_id accepted_at origin_message_id) := by
  unfold MessageBureau.record_submission
  split
  · exact Prog.keeps_ret none
  · refine Prog.Keeps.bind new_id_keeps fun message_id => ?_
    have horigin : ∀ reply_to,
        Prog.Keeps BureauAgrees (MessageBureau.resolve_origin_message_id reply_to) := by
      intro reply_to
      unfold MessageBureau.resolve_origin_message_id
      split
      · exact Prog.keeps_ret none
      · exact Prog.Keeps.bind (Prog.keeps_read _ _) fun _ => Prog.keeps_ret _
      · exact Prog.Keeps.bind (Prog.keeps_read _ _) fun _ => Prog.keeps_ret _
      · exact Prog.Keeps.bind (Prog.keeps_read _ _) fun _ => Prog.keeps_ret _
    refine Prog.Keeps.bind ?_ fun origin => ?_
    · cases origin_message_id with
      | none => exact horigin _
      | some origin => exact Prog.keeps_ret (some origin)
    · refine Prog.Keeps.bind (keeps_beside (fun _ => rfl) fun _ => rfl) fun _ => ?_
      refine Prog.Keeps.bind (Prog.Keeps.forEach fun job _ => ?_) fun _ => Prog.keeps_ret _
      refine Prog.Keeps.bind new_id_keeps fun attempt_id => ?_
      refine Prog.Keeps.bind (keeps_beside (fun _ => rfl) fun _ => rfl) fun _ => ?_
      exact queue_request_keeps job message_id attempt_id accepted_at

theorem get_latest_for_attempt_run (attempt_id : AttemptId) (s : BureauStore) :
    (onMailbox agent_name (InboundEventStore.get_latest_for_attempt attempt_id)).run s =
      (.ok (latest? (fun r => r.attempt_id) (some attempt_id)
        (s.mailboxes agent_name).inbox), s) := by
  rw [run_onMailbox]
  simp [InboundEventStore.get_latest_for_attempt]

/-- **Restoring a lost inbound event and rebuilding the summary** keeps the
agreement: the append alone would not. -/
theorem restore_rebuild_keeps (service : MailboxKernelService) (job : JobRecord)
    (message_id : MessageId) (existing : AttemptRecord) (updated_at : Option Timestamp) :
    Prog.Keeps BureauAgrees
      ((MessageBureau.restore_inbound job message_id existing).bind fun _ =>
        onMailbox job.agent_name (rebuild_mailbox_summary service job.agent_name updated_at)) := by
  intro s h
  simp only [MessageBureau.restore_inbound, Prog.bind_eq, Prog.bind_assoc]
  rw [Prog.run_bind_ok (get_latest_for_attempt_run _ s)]
  cases latest? (fun r => r.attempt_id) (some existing.attempt_id)
      (s.mailboxes job.agent_name).inbox with
  | some inbound => exact rebuild_keeps updated_at s h
  | none =>
    simp only [new_id, Prog.update, Prog.access_bind, Prog.ret_bind, Prog.run_access]
    rw [Prog.run_bind_ok (run_onMailbox job.agent_name _ _)]
    simp only [run_onMailbox, rebuild_mailbox_summary_run, InboundEventStore.append,
      Prog.run_write, Function.update_self, Function.update_idem]
    let m' := { s.mailboxes job.agent_name with
      inbox := (s.mailboxes job.agent_name).inbox ++ [MessageBureau.request_event s.next_id
        job message_id existing.attempt_id existing.started_at] }
    exact h.update (agrees_projection m' _ _ _) (Nat.le_succ _) (h.given_append rfl)

/-- **Recording a retry attempt keeps the agreement**, on a first recording, on
a replay and when it fails. -/
theorem record_retry_attempt_keeps (message_id : MessageId) (job : JobRecord)
    (accepted_at : Timestamp) :
    Prog.Keeps BureauAgrees
      (MessageBureau.record_retry_attempt service message_id job accepted_at) := by
  unfold MessageBureau.record_retry_attempt
  refine Prog.Keeps.bind (Prog.keeps_read _ _) fun message => ?_
  cases message with
  | none => exact Prog.keeps_raise _
  | some message =>
    refine Prog.Keeps.bind (Prog.keeps_read _ _) fun existing => ?_
    cases existing with
    | some existing =>
      dsimp only
      split
      · exact Prog.keeps_raise _
      · split
        · exact Prog.keeps_ret _
        · have hrestore := Prog.Keeps.bind
            (restore_rebuild_keeps service job message_id existing (some accepted_at))
            fun _ => Prog.Keeps.bind (set_message_state_keeps message_id .queued accepted_at)
              fun _ => Prog.keeps_ret existing.attempt_id
          simpa only [Prog.bind_assoc, Prog.bind_eq, Prog.pure_eq] using hrestore
    | none =>
      refine Prog.Keeps.bind ?_ fun retry_index => ?_
      · exact Prog.Keeps.bind (Prog.keeps_read _ _) fun _ => Prog.keeps_ret _
      · refine Prog.Keeps.bind new_id_keeps fun attempt_id => ?_
        refine Prog.Keeps.bind (keeps_beside (fun _ => rfl) fun _ => rfl) fun _ => ?_
        refine Prog.Keeps.bind (queue_request_keeps _ _ _ _) fun _ => ?_
        exact Prog.Keeps.bind (set_message_state_keeps _ _ _) fun _ => Prog.keeps_ret _

theorem record_consumed_completion_notice_keeps (message_id : MessageId)
    (attempt_id : AttemptId) (reply_id : ReplyId) (finished_at : Timestamp) :
    Prog.Keeps BureauAgrees (MessageBureau.record_consumed_completion_notice agent_name
      message_id attempt_id reply_id finished_at) := by
  intro s h
  simp only [MessageBureau.record_consumed_completion_notice, new_id, Prog.update,
    Prog.bind_eq, Prog.access_bind, Prog.ret_bind, Prog.run_access, run_onMailbox,
    InboundEventStore.append, Prog.run_write]
  exact h.update (append_terminal_agrees (h.agrees agent_name) (h.fresh agent_name) rfl)
    (Nat.le_succ _) (h.given_append rfl)

/-- The calls of the bureau and of the kernel that reach a mailbox. -/
inductive BureauCall where
  | record_submission (request : MessageEnvelope) (jobs : List JobRecord)
      (submission_id : Option SubmissionId) (accepted_at : Timestamp)
      (origin_message_id : Option MessageId)
  | record_retry_attempt (message_id : MessageId) (job : JobRecord) (accepted_at : Timestamp)
  | queue_reply_delivery (caller_mailbox : AgentName) (message_id : MessageId)
      (attempt_id : AttemptId) (reply_id : ReplyId) (finished_at : Timestamp)
  | record_consumed_completion_notice (caller_mailbox : AgentName) (message_id : MessageId)
      (attempt_id : AttemptId) (reply_id : ReplyId) (finished_at : Timestamp)
  | kernel (agent_name : AgentName) (call : KernelCall)

def BureauCall.exec (service : MailboxKernelService) : BureauCall → BureauM Unit
  | record_submission request jobs submission_id accepted_at origin_message_id => do
    let _ ← MessageBureau.record_submission service request jobs submission_id accepted_at
      origin_message_id
  | record_retry_attempt message_id job accepted_at => do
    let _ ← MessageBureau.record_retry_attempt service message_id job accepted_at
  | queue_reply_delivery caller_mailbox message_id attempt_id reply_id finished_at =>
    MessageBureau.queue_reply_delivery service caller_mailbox message_id attempt_id reply_id
      finished_at
  | record_consumed_completion_notice caller_mailbox message_id attempt_id reply_id
      finished_at =>
    MessageBureau.record_consumed_completion_notice caller_mailbox message_id attempt_id
      reply_id finished_at
  | kernel agent_name call => onMailbox agent_name (call.exec service agent_name)

/-- The bureau after a sequence of calls, each with its own clock, run one at a time. -/
def runCalls (calls : List (MailboxKernelService × BureauCall)) (s : BureauStore) : BureauStore :=
  calls.foldl (fun s c => ((c.2.exec c.1).run s).2) s

theorem bureauCall_keeps (call : BureauCall) : Prog.Keeps BureauAgrees (call.exec service) := by
  cases call with
  | record_submission request jobs submission_id accepted_at origin_message_id =>
    exact Prog.Keeps.bind (record_submission_keeps _ _ _ _ _) fun _ => Prog.keeps_ret ()
  | record_retry_attempt message_id job accepted_at =>
    exact Prog.Keeps.bind (record_retry_attempt_keeps _ _ _) fun _ => Prog.keeps_ret ()
  | queue_reply_delivery caller_mailbox message_id attempt_id reply_id finished_at =>
    exact queueEvent_keeps (fun e => MessageBureau.reply_event e caller_mailbox message_id
      attempt_id reply_id finished_at) 1 finished_at (fun _ => rfl)
      (fun _ => by simp [MessageBureau.reply_event, InboundEventStatus.terminal])
      fun _ => rfl
  | record_consumed_completion_notice caller_mailbox message_id attempt_id reply_id
      finished_at =>
    exact record_consumed_completion_notice_keeps _ _ _ _
  | kernel agent_name call => exact kernel_call_keeps call

theorem runCalls_agrees (calls : List (MailboxKernelService × BureauCall))
    (h : BureauAgrees s) : BureauAgrees (runCalls calls s) := by
  induction calls generalizing s with
  | nil => exact h
  | cons c calls ih => exact ih (bureauCall_keeps c.2 s h)

theorem empty_agrees : BureauAgrees BureauStore.empty where
  agrees := fun _ => { stored := fun _ h => (by cases h), unstored := fun _ => ⟨rfl, rfl⟩ }
  given := fun _ e he => by cases he

/-- **The mailbox summary agrees with history.**  After any sequence of submissions,
retries, reply deliveries, notices and kernel calls, run one at a time from empty stores,
every stored mailbox record has the depth, the reply count, the active event, the head
fields, the state and the lease version that a projection recomputes, whatever clock and
source it is given; and where no record is stored no event is pending.
SOURCE: lib/mailbox_kernel/service_runtime/mailbox.py:9-60 -/
theorem summary_agrees_with_history (calls : List (MailboxKernelService × BureauCall))
    (service : MailboxKernelService) (agent_name : AgentName) (updated_at : Option Timestamp)
    (source : SummarySource) :
    let m := (runCalls calls BureauStore.empty).mailboxes agent_name
    (∀ p, m.summary = some p → ∃ q,
      (project_mailbox_summary service agent_name updated_at none source).run m = (.ok q, m) ∧
      p.queue_depth = q.queue_depth ∧
      p.pending_reply_count = q.pending_reply_count ∧
      p.active_inbound_event_id = q.active_inbound_event_id ∧
      p.toSummaryHead = q.toSummaryHead ∧
      p.mailbox_state = q.mailbox_state ∧
      p.lease_version = q.lease_version) ∧
    (m.summary = none → pendingOf (standing m.inbox) = []) := by
  intro m
  have hagrees : Agrees m := (runCalls_agrees calls empty_agrees).agrees agent_name
  refine ⟨fun p hp => ?_, fun hnone => (hagrees.unstored hnone).1⟩
  have hmatch := hagrees.stored p hp
  refine ⟨_, project_mailbox_summary_run service agent_name updated_at none source m,
    hmatch.depth, hmatch.replies, hmatch.active, hmatch.head, ?_, ?_⟩
  · rw [hmatch.state]
    simp only [projection, buildRecord, ← active_isSome, Bool.or_self]
  · simp only [projection, buildRecord, Option.getD_none]
    cases hl : m.lease with
    | none => simp [hp]
    | some l => exact hmatch.version l hl

end ClaudeCodeBridge.Analysis
