import ClaudeCodeBridge.Model.MailboxCalls
import ClaudeCodeBridge.Analysis.MailboxSequential

/-!
# Exclusive FIFO delivery

The head order of a mailbox, the status of its events and its lease file are three
facts that the kernel writes one after another.  Run one call at a time, the calls keep
them in step: at most one event is DELIVERING, it is the oldest pending one, and the
ACQUIRED lease is its lease.

The ladder: `FilesStep` lists what a call can do to the inbox and the lease
(`exec_filesSteps`, one inversion for all calls); `pending_replace` says what replacing
one record does to the pending events; each kind of step keeps `Exclusive`
(`filesStep_exclusive`); so every reachable mailbox has it (`reachable_exclusive`).
-/

set_option autoImplicit false

namespace ClaudeCodeBridge.Analysis

open Program
open Model
open Model.MailboxKernel

/-- One change of the inbox and the lease, with any summary written beside it. -/
inductive FilesStep (m : MailboxFiles) : MailboxFiles → Prop where
  | refresh (summary : Option MailboxRecord) : FilesStep m { m with summary := summary }
  | deliver (service : MailboxKernelService) (agent_name : AgentName)
      (current : InboundEventRecord) (timestamp : Timestamp)
      (summary : Option MailboxRecord)
      (head : (pending m).head? = some current) (claimable : current.status.claimable) :
      FilesStep m { delivered service agent_name m current timestamp with summary := summary }
  | replace (current updated : InboundEventRecord) (summary : Option MailboxRecord)
      (latest : latestEvent m updated.inbound_event_id = some current)
      (live : ¬current.status.terminal) (status : updated.status ≠ .delivering) :
      FilesStep m { moved m updated with summary := summary }
  | expire (l : DeliveryLease) (current updated : InboundEventRecord)
      (summary : Option MailboxRecord) (lease : m.lease = some l)
      (acquired : l.lease_state = .acquired)
      (latest : latestEvent m l.inbound_event_id = some current)
      (same : updated.inbound_event_id = l.inbound_event_id)
      (live : ¬current.status.terminal) (status : updated.status ≠ .delivering) :
      FilesStep m { moved (leaseExpired m l) updated with summary := summary }
  | drop (l : DeliveryLease) (summary : Option MailboxRecord) (lease : m.lease = some l)
      (acquired : l.lease_state = .acquired)
      (dead : ∀ current, latestEvent m l.inbound_event_id = some current →
        current.status.terminal) :
      FilesStep m { m with lease := none, summary := summary }

abbrev FilesSteps := Relation.ReflTransGen FilesStep

variable {service : MailboxKernelService} {agent_name : AgentName} {m : MailboxFiles}

theorem refreshed_filesSteps (timestamp : Timestamp) :
    FilesSteps m (refreshed agent_name m timestamp) :=
  Relation.ReflTransGen.single (FilesStep.refresh _)

theorem claim_filesSteps (e : EventId) (started_at : Option Timestamp) :
    FilesSteps m ((MailboxKernel.claim service agent_name e started_at).run m).2 := by
  rcases claim_run service agent_name e started_at m with
    ⟨v, hv⟩ | ⟨current, hlatest, hclaimable, hhead, hlease, hrun⟩
  · rw [hv]
    exact refreshed_filesSteps _
  · rw [hrun]
    have hcurrent : (pending m).head? = some current := by
      obtain ⟨h, hh, hid⟩ := Option.map_eq_some_iff.1 hhead
      have hmem : h ∈ standing m.inbox := (List.mem_filter.1 (List.mem_of_mem_head? hh)).1
      have := latestEvent_eq_some_iff.2 ⟨hmem, hid⟩
      rw [hh, ← this, hlatest]
    refine Relation.ReflTransGen.single ?_
    have hstep := fun summary => FilesStep.deliver service agent_name current
      (started_at.getD service.clock) summary hcurrent hclaimable
    simp only [claimed]
    split
    · exact hstep _
    · split
      · exact hstep _
      · exact hstep _

/-- Whatever summary a terminal transition writes, it replaces one record. -/
theorem finished_eq (agent_name : AgentName) (m : MailboxFiles)
    (current : InboundEventRecord) (status : InboundEventStatus) (timestamp : Timestamp) :
    ∃ summary, finished agent_name m current status timestamp =
      { moved m (terminalRecord current status timestamp) with summary := summary } := by
  simp only [finished]
  split
  · exact ⟨_, rfl⟩
  · split
    · exact ⟨_, rfl⟩
    · split
      · exact ⟨_, rfl⟩
      · exact ⟨_, rfl⟩

theorem mark_terminal_filesSteps (e : EventId) (status : InboundEventStatus)
    (finished_at : Option Timestamp) (hstatus : status ≠ .delivering) :
    FilesSteps m ((mark_terminal service agent_name e status finished_at).run m).2 := by
  rcases mark_terminal_run service agent_name e status finished_at m with
    ⟨_, hrun⟩ | ⟨current, hlatest, hlive, hrun⟩
  · rw [hrun]
    exact refreshed_filesSteps _
  · rw [hrun]
    obtain ⟨summary, hsummary⟩ := finished_eq agent_name m current status
      (finished_at.getD service.clock)
    rw [hsummary]
    have hid := (latestEvent_eq_some_iff.1 hlatest).2
    exact Relation.ReflTransGen.single
      (FilesStep.replace current _ summary (by rw [← hlatest, ← hid]; rfl) hlive hstatus)

theorem rewrite_head_filesSteps (e : EventId) (payload_ref : Option PayloadRef)
    (updated_at : Option Timestamp) (clear_progress : Bool) :
    FilesSteps m ((rewrite_head service agent_name e payload_ref .queued updated_at
      clear_progress).run m).2 := by
  rcases rewrite_head_run service agent_name e payload_ref .queued updated_at clear_progress
    m with ⟨_, hrun⟩ | ⟨current, hlatest, hlive, hrun⟩
  · rw [hrun]
    exact refreshed_filesSteps _
  · rw [hrun]
    have hid := (latestEvent_eq_some_iff.1 hlatest).2
    have hstep := fun summary => FilesStep.replace current
      (rewrittenRecord current payload_ref .queued clear_progress) summary
      (by rw [← hlatest, ← hid]; rfl) hlive (by simp [rewrittenRecord])
    refine Relation.ReflTransGen.single ?_
    simp only [rewritten]
    split
    · exact hstep _
    · split
      · exact hstep _
      · exact hstep _

theorem expire_lease_filesSteps (finished_at : Option Timestamp) :
    FilesSteps m ((expire_lease service agent_name finished_at).run m).2 := by
  rcases expire_lease_run service agent_name finished_at m with
    hrun | ⟨l, hlease, hacquired, hdead, hrun⟩ |
      ⟨l, current, hlease, hacquired, hlatest, hlive, hrun⟩
  · rw [hrun]
  · rw [hrun]
    exact Relation.ReflTransGen.single (FilesStep.drop l _ hlease hacquired hdead)
  · rw [hrun]
    obtain ⟨summary, hsummary⟩ := finished_eq agent_name (leaseExpired m l) current .abandoned
      (finished_at.getD service.clock)
    rw [hsummary]
    have hid := (latestEvent_eq_some_iff.1 hlatest).2
    exact Relation.ReflTransGen.single (FilesStep.expire l current _ summary hlease hacquired
      hlatest hid hlive (by simp [terminalRecord]))

theorem ack_reply_filesSteps (e : EventId) (started_at finished_at : Option Timestamp) :
    FilesSteps m ((ack_reply service agent_name e started_at finished_at).run m).2 := by
  rcases ack_reply_run service agent_name e started_at finished_at m with
    ⟨v, t, hrun⟩ | ⟨t, hrun⟩ | ⟨t, m', v, t', hclaim, hrun⟩ | ⟨t, r, m', t', hclaim, hrun⟩
  · rw [hrun]
    exact refreshed_filesSteps _
  · rw [hrun]
    exact mark_terminal_filesSteps e .consumed (some t) (by decide)
  · rw [hrun]
    have hfirst : FilesSteps m ((MailboxKernel.claim service agent_name e (some t)).run m).2 :=
      claim_filesSteps e (some t)
    rw [hclaim] at hfirst
    exact hfirst.trans (refreshed_filesSteps _)
  · rw [hrun]
    have hfirst : FilesSteps m ((MailboxKernel.claim service agent_name e (some t)).run m).2 :=
      claim_filesSteps e (some t)
    rw [hclaim] at hfirst
    exact hfirst.trans (mark_terminal_filesSteps e .consumed (some t') (by decide))

theorem run_discard {α : Type} (p : MailboxM α) :
    ((p.bind fun _ => Prog.ret ()).run m).2 = (p.run m).2 := by
  rw [Prog.run_bind]
  rcases p.run m with ⟨_ | a, m'⟩ <;> rfl

theorem discard_of {α : Type} {P : MailboxFiles → Prop} {p : MailboxM α} (h : P (p.run m).2) :
    P ((p.bind fun _ => Prog.ret ()).run m).2 := by
  rwa [run_discard]

/-- **Every kernel call is a sequence of file steps.** -/
theorem exec_filesSteps (call : KernelCall) :
    FilesSteps m ((call.exec service agent_name).run m).2 := by
  cases call with
  | claim e started_at =>
    exact discard_of (P := FilesSteps m) (claim_filesSteps e started_at)
  | claim_next event_type started_at =>
    refine discard_of (P := FilesSteps m) ?_
    rcases claim_next_run service agent_name event_type started_at m with ⟨v, hv⟩ | ⟨e, he⟩
    · rw [hv]
      exact refreshed_filesSteps _
    · rw [he]
      exact claim_filesSteps e started_at
  | ack_reply e started_at finished_at =>
    exact discard_of (P := FilesSteps m) (ack_reply_filesSteps e started_at finished_at)
  | consume e finished_at =>
    refine discard_of (P := FilesSteps m) ?_
    exact mark_terminal_filesSteps e .consumed finished_at (by decide)
  | abandon e finished_at =>
    refine discard_of (P := FilesSteps m) ?_
    exact mark_terminal_filesSteps e .abandoned finished_at (by decide)
  | supersede e finished_at =>
    refine discard_of (P := FilesSteps m) ?_
    exact mark_terminal_filesSteps e .superseded finished_at (by decide)
  | rewrite_head e payload_ref updated_at clear_progress =>
    refine discard_of (P := FilesSteps m) ?_
    exact rewrite_head_filesSteps e payload_ref updated_at clear_progress
  | expire_lease finished_at =>
    exact discard_of (P := FilesSteps m) (expire_lease_filesSteps finished_at)
  | rebuild_mailbox_summary updated_at =>
    refine discard_of (P := FilesSteps m) ?_
    rw [rebuild_mailbox_summary_run]
    exact Relation.ReflTransGen.single (FilesStep.refresh _)

variable {m' : MailboxFiles} {e : EventId}

theorem filesStep_ids (hstep : FilesStep m m') (he : e ∈ m'.inbox.map fun r => r.inbound_event_id) :
    e ∈ m.inbox.map fun r => r.inbound_event_id := by
  have hknown : ∀ {updated current : InboundEventRecord},
      latestEvent m updated.inbound_event_id = some current →
      e ∈ (m.inbox ++ [updated]).map (fun r => r.inbound_event_id) →
      e ∈ m.inbox.map fun r => r.inbound_event_id := by
    intro updated current hlatest hmem
    rw [List.map_append, List.mem_append] at hmem
    rcases hmem with hmem | hmem
    · exact hmem
    · obtain rfl : e = updated.inbound_event_id := by simpa using hmem
      by_contra hnone
      rw [show latestEvent m updated.inbound_event_id = none from
        (latest?_eq_none_iff _).2 hnone] at hlatest
      cases hlatest
  cases hstep with
  | refresh summary => exact he
  | deliver service agent_name current timestamp summary hhead hclaimable =>
    have hmem := (List.mem_filter.1 (List.mem_of_mem_head? hhead)).1
    have hlatest : latestEvent m (delivery_record current timestamp).inbound_event_id =
      some current := latestEvent_eq_some_iff.2 ⟨hmem, rfl⟩
    exact hknown hlatest he
  | replace current updated summary hlatest => exact hknown hlatest he
  | expire l current updated summary hlease hacquired hlatest hsame =>
    exact hknown (hsame ▸ hlatest) he
  | drop l summary => exact he

theorem filesSteps_ids (hsteps : FilesSteps m m')
    (he : e ∈ m'.inbox.map fun r => r.inbound_event_id) :
    e ∈ m.inbox.map fun r => r.inbound_event_id := by
  induction hsteps with
  | refl => exact he
  | tail _ hstep ih => exact ih (filesStep_ids hstep he)

def LeasedTo (m : MailboxFiles) (e : EventId) : Prop :=
  ∃ l, m.lease = some l ∧ l.lease_state = .acquired ∧ l.inbound_event_id = e

def DeliveringEvent (m : MailboxFiles) (e : EventId) : Prop :=
  ∃ r, latestEvent m e = some r ∧ r.status = .delivering

variable {r : InboundEventRecord}

theorem latestEvent_of_mem (h : r ∈ standing m.inbox) : latestEvent m r.inbound_event_id = some r :=
  latestEvent_eq_some_iff.2 ⟨h, rfl⟩

variable {updated : InboundEventRecord}

/-- **Replacing a live record** keeps its place among the pending events: the
events before and behind it stay, and it stays itself unless it became terminal. -/
theorem pending_replace {current : InboundEventRecord}
    (hlatest : latestEvent m updated.inbound_event_id = some current)
    (hlive : ¬current.status.terminal) :
    ∃ before behind, pending m = before ++ current :: behind ∧
      pendingOf (standing (m.inbox ++ [updated])) =
        before ++ (if updated.status.terminal then behind else updated :: behind) := by
  obtain ⟨pre, post, hold, hnew⟩ :=
    collapse_append_known (fun r : InboundEventRecord => r.inbound_event_id) hlatest
  refine ⟨pendingOf pre, pendingOf post, ?_, ?_⟩
  · simp only [pending, standing, pendingOf] at *
    rw [hold, List.filter_append, List.filter_cons, if_pos (by simp [hlive])]
  · simp only [standing, pendingOf] at *
    rw [hnew, List.filter_append, List.filter_cons]
    by_cases ht : updated.status.terminal <;> simp [ht]

theorem pending_nodup (m : MailboxFiles) : ((pending m).map fun r => r.inbound_event_id).Nodup :=
  (List.filter_sublist.map _).nodup (collapse_nodup _ m.inbox)

theorem pending_replace_head {current : InboundEventRecord}
    (hhead : (pending m).head? = some current)
    (hid : updated.inbound_event_id = current.inbound_event_id) :
    ∃ behind, pending m = current :: behind ∧
      pendingOf (standing (m.inbox ++ [updated])) =
        if updated.status.terminal then behind else updated :: behind := by
  have hmem : current ∈ pending m := List.mem_of_mem_head? hhead
  obtain ⟨hstanding, hlive⟩ := List.mem_filter.1 hmem
  have hlatest : latestEvent m updated.inbound_event_id = some current :=
    hid ▸ latestEvent_of_mem hstanding
  obtain ⟨before, behind, hold, hnew⟩ := pending_replace hlatest (by simpa using hlive)
  have hnd := pending_nodup m
  cases before with
  | nil => exact ⟨behind, hold, hnew⟩
  | cons x xs =>
    rw [hold] at hhead hnd
    obtain rfl : x = current := by simpa using hhead
    simp at hnd

/-- A new event is queued behind the others, or not at all when it is terminal. -/
theorem pending_append {event : InboundEventRecord}
    (hfresh : event.inbound_event_id ∉ m.inbox.map fun r => r.inbound_event_id) :
    pendingOf (standing (m.inbox ++ [event])) =
      pending m ++ (if event.status.terminal then [] else [event]) := by
  simp only [pending, pendingOf, standing]
  rw [collapse_append_fresh _ hfresh, List.filter_append, List.filter_cons, List.filter_nil]
  by_cases ht : event.status.terminal <;> simp [ht]

theorem latestEvent_moved (updated : InboundEventRecord) (e : EventId) :
    latestEvent (moved m updated) e =
      if updated.inbound_event_id = e then some updated else latestEvent m e := by
  simp only [latestEvent, moved, latest?_append]

/-- Everything the log says about the order of deliveries: whenever a DELIVERING record
was appended, every event appended before that event was already terminal. -/
def FifoLog (inbox : List InboundEventRecord) : Prop :=
  ∀ pre r post, inbox = pre ++ r :: post → r.status = .delivering →
    ∃ before c after, standing pre = before ++ c :: after ∧
      c.inbound_event_id = r.inbound_event_id ∧ ∀ b ∈ before, b.status.terminal

/-- The three facts of one mailbox in step. -/
structure Exclusive (m : MailboxFiles) : Prop where
  head : ∀ r ∈ standing m.inbox, r.status = .delivering → (pending m).head? = some r
  leased : ∀ e, LeasedTo m e ↔ DeliveringEvent m e
  fifo : FifoLog m.inbox

theorem Exclusive.deliveringEvent_head (h : Exclusive m) (he : DeliveringEvent m e) :
    ∃ r, (pending m).head? = some r ∧ r.inbound_event_id = e ∧ r.status = .delivering := by
  obtain ⟨r, hr, hs⟩ := he
  obtain ⟨hmem, hid⟩ := latestEvent_eq_some_iff.1 hr
  exact ⟨r, h.head r hmem hs, hid, hs⟩

theorem Exclusive.deliveringEvent_unique (h : Exclusive m) {e' : EventId}
    (he : DeliveringEvent m e) (he' : DeliveringEvent m e') : e = e' := by
  obtain ⟨r, hr, hid, _⟩ := h.deliveringEvent_head he
  obtain ⟨r', hr', hid', _⟩ := h.deliveringEvent_head he'
  rw [← hid, ← hid', Option.some.inj (hr.symm.trans hr')]

theorem Exclusive.not_deliveringEvent (h : Exclusive m) {current : InboundEventRecord}
    (hhead : (pending m).head? = some current) (hclaimable : current.status.claimable)
    (e : EventId) : ¬DeliveringEvent m e := by
  intro he
  obtain ⟨r, hr, _, hs⟩ := h.deliveringEvent_head he
  obtain rfl := Option.some.inj (hr.symm.trans hhead)
  rw [hs] at hclaimable
  exact absurd hclaimable (by decide)

theorem fifoLog_append {inbox : List InboundEventRecord} (h : FifoLog inbox)
    (hr : r.status = .delivering → ∃ before c after, standing inbox = before ++ c :: after ∧
      c.inbound_event_id = r.inbound_event_id ∧ ∀ b ∈ before, b.status.terminal) :
    FifoLog (inbox ++ [r]) := by
  intro pre x post hsplit hx
  rcases List.append_eq_append_iff.1 hsplit with ⟨l, hpre, hlast⟩ | ⟨l, hpre, hlast⟩
  · cases l with
    | nil =>
      obtain ⟨rfl, rfl⟩ : r = x ∧ post = [] := by simpa using hlast
      obtain rfl : pre = inbox := by simpa using hpre
      exact hr hx
    | cons y ys => simp at hlast
  · cases l with
    | nil =>
      obtain ⟨rfl, rfl⟩ : x = r ∧ post = [] := by simpa using hlast
      obtain rfl : inbox = pre := by simpa using hpre
      exact hr hx
    | cons y ys =>
      obtain ⟨rfl, rfl⟩ : x = y ∧ post = ys ++ [r] := by simpa using hlast
      exact h pre x ys hpre hx

/-- The head of the pending events has only terminal events before it. -/
theorem standing_split_head {current : InboundEventRecord}
    (hhead : (pending m).head? = some current) :
    ∃ before after, standing m.inbox = before ++ current :: after ∧
      ∀ b ∈ before, b.status.terminal := by
  rw [pending, pendingOf, List.head?_filter, List.find?_eq_some_iff_append] at hhead
  obtain ⟨_, before, after, hsplit, hbefore⟩ := hhead
  exact ⟨before, after, hsplit, fun b hb => by simpa using hbefore b hb⟩

theorem leasedTo_moved (updated : InboundEventRecord) (e : EventId) :
    LeasedTo (moved m updated) e ↔ LeasedTo m e ∧ e ≠ updated.inbound_event_id := by
  simp only [LeasedTo, moved, releasedLease]
  cases hl : m.lease with
  | none => simp
  | some l =>
    by_cases hs : l.lease_state = .acquired
    · by_cases he : l.inbound_event_id = updated.inbound_event_id
      · simp only [Option.any_some, hs, he, decide_true, Bool.and_self, if_true, reduceCtorEq,
          false_and, exists_false, Option.some.injEq, exists_eq_left', true_and, false_iff,
          not_and, not_not]
        exact fun h => h.symm
      · simp only [Option.any_some, hs, he, decide_true, decide_false, Bool.and_false,
          Bool.false_eq_true, if_false, Option.some.injEq, exists_eq_left', true_and]
        exact ⟨fun h => ⟨h, fun e' => he (h.trans e')⟩, fun h => h.1⟩
    · simp [hs]

theorem deliveringEvent_moved (hstatus : updated.status ≠ .delivering) (e : EventId) :
    DeliveringEvent (moved m updated) e ↔ DeliveringEvent m e ∧ e ≠ updated.inbound_event_id := by
  simp only [DeliveringEvent, latestEvent_moved]
  by_cases he : updated.inbound_event_id = e
  · simp only [if_pos he, Option.some.injEq, exists_eq_left', hstatus, false_iff, not_and, not_not]
    exact fun _ => he.symm
  · simp only [if_neg he]
    exact ⟨fun h => ⟨h, Ne.symm he⟩, fun h => h.1⟩

theorem mem_standing_append (h : r ∈ standing (m.inbox ++ [updated])) :
    r = updated ∨ r ∈ standing m.inbox ∧ r.inbound_event_id ≠ updated.inbound_event_id := by
  simp only [standing, collapse_append] at h ⊢
  exact (mem_upsert _ (collapse_nodup _ m.inbox)).1 h

/-- **Replacing a live record by one that is not DELIVERING** keeps the
DELIVERING event at the head. -/
theorem Exclusive.head_moved (h : Exclusive m) {current : InboundEventRecord}
    (hlatest : latestEvent m updated.inbound_event_id = some current)
    (hlive : ¬current.status.terminal) (hstatus : updated.status ≠ .delivering) :
    ∀ r ∈ standing (m.inbox ++ [updated]), r.status = .delivering →
      (pendingOf (standing (m.inbox ++ [updated]))).head? = some r := by
  intro r hr hdelivering
  have hold : r ∈ standing m.inbox ∧ r.inbound_event_id ≠ updated.inbound_event_id := by
    rcases mem_standing_append hr with rfl | hr
    · exact absurd hdelivering hstatus
    · exact hr
  obtain ⟨before, behind, hpending, hnew⟩ := pending_replace hlatest hlive
  have hhead := h.head r hold.1 hdelivering
  have hid := (latestEvent_eq_some_iff.1 hlatest).2
  rw [hpending] at hhead
  cases before with
  | nil =>
    obtain rfl : current = r := by simpa using hhead
    exact absurd hid hold.2
  | cons x xs =>
    obtain rfl : x = r := by simpa using hhead
    rw [hnew]
    rfl

/-- **A new event that is not DELIVERING** leaves the three facts in step. -/
theorem append_exclusive (h : Exclusive m) {event : InboundEventRecord}
    (hfresh : event.inbound_event_id ∉ m.inbox.map fun r => r.inbound_event_id)
    (hstatus : event.status ≠ .delivering) :
    Exclusive { m with inbox := m.inbox ++ [event] } := by
  have hstanding : standing (m.inbox ++ [event]) = standing m.inbox ++ [event] :=
    collapse_append_fresh _ hfresh
  refine ⟨fun r hr hdelivering => ?_, fun e => ?_, ?_⟩
  · rw [hstanding, List.mem_append, List.mem_singleton] at hr
    rcases hr with hr | rfl
    · show (pendingOf (standing (m.inbox ++ [event]))).head? = some r
      rw [pending_append hfresh, List.head?_append, h.head r hr hdelivering]
      rfl
    · exact absurd hdelivering hstatus
  · have hlatest : ∀ r, latestEvent { m with inbox := m.inbox ++ [event] } e = some r ∧
        r.status = .delivering ↔ latestEvent m e = some r ∧ r.status = .delivering := by
      intro r
      simp only [latestEvent, latest?_append]
      by_cases he : event.inbound_event_id = e
      · have hnone : latest? (fun r : InboundEventRecord => r.inbound_event_id) e m.inbox =
            none := (latest?_eq_none_iff _).2 (he ▸ hfresh)
        rw [if_pos he, hnone]
        constructor
        · rintro ⟨hr, hs⟩
          exact absurd (Option.some.inj hr ▸ hs) hstatus
        · rintro ⟨hr, _⟩
          cases hr
      · rw [if_neg he]
    exact (h.leased e).trans (exists_congr fun r => (hlatest r).symm)
  · exact fifoLog_append h.fifo fun hs => absurd hs hstatus

/-- **Each kind of step keeps the three facts in step.** -/
theorem filesStep_exclusive (h : Exclusive m) (hstep : FilesStep m m') : Exclusive m' := by
  cases hstep with
  | refresh summary => exact ⟨h.head, h.leased, h.fifo⟩
  | deliver service agent_name current timestamp summary hhead hclaimable =>
    have hid : (delivery_record current timestamp).inbound_event_id =
        current.inbound_event_id := rfl
    obtain ⟨behind, _, hnew⟩ := pending_replace_head hhead hid
    have hnone := h.not_deliveringEvent hhead hclaimable
    refine ⟨fun r hr hdelivering => ?_, fun e => ?_, ?_⟩
    · rcases mem_standing_append hr with rfl | ⟨hr, _⟩
      · show (pendingOf (standing (m.inbox ++ [delivery_record current timestamp]))).head? = _
        rw [hnew]
        rfl
      · exact absurd ⟨r, latestEvent_of_mem hr, hdelivering⟩ (hnone r.inbound_event_id)
    · have hlatest : latestEvent { delivered service agent_name m current timestamp with
          summary := summary } e = if current.inbound_event_id = e then
            some (delivery_record current timestamp) else latestEvent m e := by
        simp only [latestEvent, delivered, latest?_append, hid]
      simp only [LeasedTo, DeliveringEvent, hlatest]
      by_cases he : current.inbound_event_id = e
      · simp [he, delivered, claimLease, delivery_record]
      · have := hnone e
        simp only [DeliveringEvent] at this
        simp [he, delivered, claimLease, this]
    · refine fifoLog_append h.fifo fun _ => ?_
      obtain ⟨before, after, hsplit, hbefore⟩ := standing_split_head hhead
      exact ⟨before, current, after, hsplit, rfl, hbefore⟩
  | replace current updated summary hlatest hlive hstatus =>
    refine ⟨h.head_moved hlatest hlive hstatus, fun e => ?_,
      fifoLog_append h.fifo fun hs => absurd hs hstatus⟩
    exact (leasedTo_moved updated e).trans
      ((and_congr_left' (h.leased e)).trans (deliveringEvent_moved hstatus e).symm)
  | expire l current updated summary hlease hacquired hlatest hsame hlive hstatus =>
    refine ⟨h.head_moved (hsame ▸ hlatest) hlive hstatus, fun e => ?_,
      fifoLog_append h.fifo fun hs => absurd hs hstatus⟩
    have hlost : ¬LeasedTo (moved (leaseExpired m l) updated) e := by
      rw [leasedTo_moved]
      rintro ⟨⟨l', hl', hs, _⟩, _⟩
      obtain rfl := Option.some.inj hl'
      exact absurd hs (by simp)
    have hgone : ¬DeliveringEvent (moved (leaseExpired m l) updated) e := by
      rw [deliveringEvent_moved hstatus]
      rintro ⟨he, hne⟩
      obtain ⟨l', hl', _, hid⟩ := (h.leased e).2 he
      obtain rfl := Option.some.inj (hlease.symm.trans hl')
      exact hne (hid.symm.trans hsame.symm)
    exact iff_of_false hlost hgone
  | drop l summary hlease hacquired hdead =>
    -- an ACQUIRED lease is the lease of a DELIVERING event, which is not terminal
    obtain ⟨r, hr, hs⟩ := (h.leased l.inbound_event_id).1 ⟨l, hlease, hacquired, rfl⟩
    have := hdead r hr
    rw [hs] at this
    exact absurd this (by decide)

theorem filesSteps_exclusive (h : Exclusive m) (hsteps : FilesSteps m m') : Exclusive m' := by
  induction hsteps with
  | refl => exact h
  | tail _ hstep ih => exact filesStep_exclusive ih hstep

theorem empty_exclusive : Exclusive MailboxFiles.empty :=
  ⟨by simp [MailboxFiles.empty, standing],
    by simp [LeasedTo, DeliveringEvent, latestEvent, MailboxFiles.empty],
    by simp [FifoLog, MailboxFiles.empty]⟩

theorem update_exclusive {boxes : Mailboxes} {caller : AgentName}
    (h : ∀ agent_name, Exclusive (boxes agent_name)) (h' : Exclusive m')
    (agent_name : AgentName) : Exclusive (Function.update boxes caller m' agent_name) := by
  by_cases ha : agent_name = caller
  · subst ha
    rwa [Function.update_self]
  · rw [Function.update_of_ne ha]
    exact h agent_name

/-- **Every mailbox that calls run one at a time can reach is exclusive.** -/
theorem reachable_exclusive {boxes : Mailboxes} (h : KernelReachable boxes)
    (agent_name : AgentName) : Exclusive (boxes agent_name) := by
  induction h generalizing agent_name with
  | start => exact empty_exclusive
  | append caller event _ hfresh hstatus ih =>
    simp only [appendEvent, run_atMailbox]
    exact update_exclusive ih (append_exclusive (ih caller) hfresh hstatus) agent_name
  | call service caller call _ ih =>
    simp only [callKernel, run_atMailbox]
    exact update_exclusive ih (filesSteps_exclusive (ih caller) (exec_filesSteps call))
      agent_name

/-- **Exclusive FIFO delivery.**  In every mailbox that event appends and kernel calls, run one at
a time, can reach: at most one event is DELIVERING; an ACQUIRED lease exists for an event exactly
when it is DELIVERING; that event is the first non-terminal one in first-append order; and
whenever a DELIVERING record was appended, every event appended before that event was
terminal at that moment.
SOURCE: lib/mailbox_kernel/service_runtime/transitions_runtime/claiming.py:12-105 -/
theorem exclusive_fifo_delivery {boxes : Mailboxes} (h : KernelReachable boxes)
    (agent_name : AgentName) :
    (∀ e e', DeliveringEvent (boxes agent_name) e → DeliveringEvent (boxes agent_name) e' →
      e = e') ∧
    (∀ e, LeasedTo (boxes agent_name) e ↔ DeliveringEvent (boxes agent_name) e) ∧
    (∀ e, DeliveringEvent (boxes agent_name) e →
      ((standing (boxes agent_name).inbox).find? fun r => !r.status.terminal).map
        (fun r => r.inbound_event_id) = some e) ∧
    ∀ pre r post, (boxes agent_name).inbox = pre ++ r :: post → r.status = .delivering →
      ∃ before c after, standing pre = before ++ c :: after ∧
        c.inbound_event_id = r.inbound_event_id ∧ ∀ b ∈ before, b.status.terminal := by
  have hexclusive := reachable_exclusive h agent_name
  refine ⟨fun e e' => hexclusive.deliveringEvent_unique, hexclusive.leased, ?_, hexclusive.fifo⟩
  intro e he
  obtain ⟨r, hhead, hid, _⟩ := hexclusive.deliveringEvent_head he
  rw [pending, pendingOf, List.head?_filter] at hhead
  rw [hhead, Option.map_some, hid]

/-- A request in the inbox of agent `0`. -/
def queuedRequest (id : Nat) : InboundEventRecord :=
  { inbound_event_id := id, agent_name := 0, event_type := .task_request
    message_id := id, attempt_id := some id, payload_ref := some (.job id), priority := 100
    status := .queued, created_at := 3, started_at := none, finished_at := none }

/-- The mailbox of agent `0` with two requests, claimed twice. -/
def claimedMailboxes : Mailboxes :=
  callKernel ⟨6, none⟩ 0 (.claim_next none none)
    (callKernel ⟨5, none⟩ 0 (.claim_next none none)
      (appendEvent 0 (queuedRequest 2) (appendEvent 0 (queuedRequest 1) Mailboxes.empty)))

/-- The second claim finds the first request DELIVERING; the second request waits.
SOURCE: lib/mailbox_kernel/service_runtime/transitions_runtime/claiming.py:100-105 -/
theorem claimedMailboxes_fifo :
    DeliveringEvent (claimedMailboxes 0) 1 ∧ ¬ LeasedTo (claimedMailboxes 0) 2 ∧
      ((standing (claimedMailboxes 0).inbox).find? fun r => !r.status.terminal).map
        (fun r => r.inbound_event_id) = some 1 := by
  have hreach : KernelReachable claimedMailboxes :=
    .call _ _ _ (.call _ _ _
      (.append _ _ (.append _ _ .start (by decide) (by decide)) (by decide) (by decide)))
  have hdelivering : DeliveringEvent (claimedMailboxes 0) 1 :=
    ⟨(latestEvent (claimedMailboxes 0) 1).get (by decide), by decide, by decide⟩
  obtain ⟨honly, hleased, hhead, -⟩ := exclusive_fifo_delivery hreach 0
  refine ⟨hdelivering, fun hsecond => ?_, hhead 1 hdelivering⟩
  exact absurd (honly 1 2 hdelivering ((hleased 2).mp hsecond)) (by decide)

end ClaudeCodeBridge.Analysis
