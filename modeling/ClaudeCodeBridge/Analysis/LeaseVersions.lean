import ClaudeCodeBridge.Program.Stops
import ClaudeCodeBridge.Model.MailboxCalls
import ClaudeCodeBridge.Analysis.MailboxSequential

/-!
# Lease versions across stops

A claim numbers its lease one above the lease file, or above the mailbox summary when
there is no lease file.  The summary learns a lease version only after the lease was
saved, so a process that stops between the two writes leaves a lease whose version no
summary has seen; when that lease is then removed its number is free again, and the next
claim hands it out a second time (`lease_versions_repeat`).

That removal is the only way to lose a number.  The ladder: `LeasesBounded` bounds every
version saved so far by the one the next claim starts from; each kernel function keeps it
at every stop as long as no access drops an unseen lease (`op_maintains`); so along any
run of stopped calls without such an access the versions are fresh
(`lease_versions_fresh`).
-/

set_option autoImplicit false

namespace ClaudeCodeBridge.Analysis

open Program
open Program.Prog
open Model
open Model.MailboxKernel

/-- What reaches a mailbox: the bureau queueing an event (an append, then the delta of the
summary), or a kernel call. -/
inductive MailboxOp where
  | queue (event : InboundEventRecord) (replies : Int) (accepted_at : Timestamp)
  | kernel (call : KernelCall)

def MailboxOp.exec (service : MailboxKernelService) (agent_name : AgentName) :
    MailboxOp → MailboxM Unit
  | queue event replies accepted_at => do
    InboundEventStore.append event
    let _ ← apply_incremental_summary_update service agent_name 1 replies none none none
      (some accepted_at)
  | kernel call => call.exec service agent_name

/-- An operation on the mailbox of one agent, by a process that stops after `stop` steps
of it; with `stop` large enough the operation completes. -/
structure StoppedOp where
  service : MailboxKernelService
  agent_name : AgentName
  op : MailboxOp
  stop : ℕ

/-- The mailboxes after the operation was stopped.  A restart reads the files as they are. -/
def StoppedOp.after (o : StoppedOp) (boxes : Mailboxes) : Mailboxes :=
  stopAfter o.stop (atMailbox o.agent_name (o.op.exec o.service o.agent_name)) boxes

def runStopped (ops : List StoppedOp) (boxes : Mailboxes) : Mailboxes :=
  ops.foldl (fun boxes o => o.after boxes) boxes

def FreshLeases (saves : List DeliveryLease) : Prop :=
  saves.Pairwise fun l l' => l'.lease_state = .acquired → l.lease_version < l'.lease_version

instance (saves : List DeliveryLease) : Decidable (FreshLeases saves) :=
  inferInstanceAs (Decidable (List.Pairwise _ saves))

/-- A request event of agent `0`. -/
def requestEvent (e : EventId) : InboundEventRecord :=
  { inbound_event_id := e, agent_name := 0, event_type := .task_request, message_id := 1
    attempt_id := some e, payload_ref := some (.job e), priority := 100, status := .queued
    created_at := 1, started_at := none, finished_at := none }

/-- Two requests are queued; the claim of the first stops between the lease save and the
mailbox save; after the restart the first is consumed and the second claimed. -/
def stoppedClaim : List StoppedOp :=
  [⟨⟨1, none⟩, 0, .queue (requestEvent 1) 0 1, 20⟩,
   ⟨⟨2, none⟩, 0, .queue (requestEvent 2) 0 2, 20⟩,
   ⟨⟨3, none⟩, 0, .kernel (.claim_next none none), 8⟩,
   ⟨⟨4, none⟩, 0, .kernel (.consume 1 none), 40⟩,
   ⟨⟨5, none⟩, 0, .kernel (.claim_next none none), 40⟩]

/-- **Lease versions are not fresh.**  Not every run of stopped operations saves fresh
lease versions: after `stoppedClaim` the version `1` was saved for both claims.
SOURCE: lib/mailbox_kernel/service_runtime/transitions_runtime/claiming.py:51-71 -/
theorem lease_versions_repeat :
    ¬∀ (ops : List StoppedOp) (agent_name : AgentName),
      FreshLeases ((runStopped ops Mailboxes.empty) agent_name).lease_saves := by
  intro h
  exact absurd (h stoppedClaim 0) (by decide)

def seenVersion (m : MailboxFiles) : ℕ := (m.summary.map fun p => p.lease_version).getD 0

/-- The version above which the next claim numbers its lease. -/
def leaseBound (m : MailboxFiles) : ℕ :=
  match m.lease with
  | some l => l.lease_version
  | none => seenVersion m

theorem nextLeaseVersion_eq (m : MailboxFiles) : nextLeaseVersion m = leaseBound m + 1 := by
  unfold nextLeaseVersion leaseBound seenVersion
  cases m.lease <;> rfl

/-- The access removed a lease whose version the summary had not seen. -/
def dropsUnseenLease (m m' : MailboxFiles) : Bool :=
  m.lease.any fun l => m'.lease.isNone && decide (seenVersion m < l.lease_version)

def Careful (m m' : MailboxFiles) : Prop := dropsUnseenLease m m' = false

instance (m m' : MailboxFiles) : Decidable (Careful m m') :=
  inferInstanceAs (Decidable (_ = _))

/-- Every version saved so far is below the next one, and was fresh when it was saved. -/
structure LeasesBounded (m : MailboxFiles) : Prop where
  bounded : ∀ l ∈ m.lease_saves, l.lease_version ≤ leaseBound m
  fresh : FreshLeases m.lease_saves

/-- A program that keeps the bound at every stop after careful accesses. -/
def Maintains {α : Type} (p : MailboxM α) : Prop :=
  ∀ m, LeasesBounded m → Along Careful LeasesBounded p (fun _ => LeasesBounded) m

variable {service : MailboxKernelService} {agent_name : AgentName} {m : MailboxFiles}

theorem LeasesBounded.of_le {m' : MailboxFiles} (h : LeasesBounded m)
    (hsaves : m'.lease_saves = m.lease_saves) (hbound : leaseBound m ≤ leaseBound m') :
    LeasesBounded m' :=
  ⟨fun l hl => Nat.le_trans (h.bounded l (hsaves ▸ hl)) hbound, hsaves ▸ h.fresh⟩

theorem along_append {event : InboundEventRecord} {Q : Unit → MailboxFiles → Prop}
    (h : LeasesBounded m)
    (hQ : LeasesBounded { m with inbox := m.inbox ++ [event] } →
      Q () { m with inbox := m.inbox ++ [event] }) :
    Along Careful LeasesBounded (InboundEventStore.append event) Q m := by
  have hnext : LeasesBounded { m with inbox := m.inbox ++ [event] } := h.of_le rfl (Nat.le_refl _)
  exact along_write fun _ => ⟨hnext, hQ hnext⟩

theorem along_save {record : MailboxRecord} {version : Option ℕ} (h : LeasesBounded m)
    (hrecord : m.lease = none → seenVersion m ≤ record.lease_version) :
    Along Careful LeasesBounded (save_summary_record record version)
      (fun _ => LeasesBounded) m := by
  have hsaved : LeasesBounded { m with summary := some record } := by
    refine h.of_le rfl ?_
    cases hlease : m.lease with
    | none =>
      have := hrecord hlease
      simpa [leaseBound, seenVersion, hlease] using this
    | some l => simp [leaseBound, hlease]
  refine Along.bind (Along.bind (along_read h ?_))
  split
  · refine Along.bind (along_read h ?_)
    cases m.summary with
    | some current => exact h
    | none => exact Along.bind (along_write fun _ => ⟨hsaved, hsaved⟩)
  · exact Along.bind (along_write fun _ => ⟨hsaved, hsaved⟩)

theorem buildRecord_seenVersion (fields : SummaryFields) (head : SummaryHead)
    (hlease : m.lease = none) :
    seenVersion m ≤ (buildRecord agent_name m.summary m.lease fields head).lease_version := by
  simp [buildRecord, seenVersion, hlease]

theorem along_build {prior : Option MailboxRecord} {lease : Option DeliveryLease}
    {fields : SummaryFields} {head : Option SummaryHead} {Q : MailboxRecord → MailboxFiles → Prop}
    (h : LeasesBounded m) (hQ : ∀ head, Q (buildRecord agent_name prior lease fields head) m) :
    Along Careful LeasesBounded (build_mailbox_summary_record agent_name prior lease fields
      head) Q m := by
  cases head with
  | some head => exact hQ head
  | none => exact fun _ => ⟨h, hQ _⟩

theorem transition_maintains (fields : SummaryFields) (head : Option SummaryHead) :
    Maintains (apply_transition_summary_update agent_name fields head) := by
  intro m h
  refine Along.bind (along_read h (Along.bind (along_read h (Along.bind ?_))))
  refine along_build h fun head => ?_
  exact along_save h (buildRecord_seenVersion fields head)

theorem incremental_maintains (queue_delta pending_reply_delta : Int)
    (active : Option (Option EventId))
    (last_started_at last_finished_at updated_at : Option Timestamp) :
    Maintains (apply_incremental_summary_update service agent_name queue_delta
      pending_reply_delta active last_started_at last_finished_at updated_at) := by
  intro m h
  refine Along.bind (along_read h (Along.bind (along_read h (Along.bind ?_))))
  refine along_build h fun head => ?_
  exact along_save h (buildRecord_seenVersion _ head)

theorem rebuild_maintains (updated_at : Option Timestamp) :
    Maintains (rebuild_mailbox_summary service agent_name updated_at) := by
  intro m h
  refine Along.bind (along_read h (Along.bind (Along.bind (along_pure ?_))))
  refine Along.bind (along_read h ?_)
  -- the pending events and the latest activity are two more reads of the inbox
  refine fun _ => ⟨h, fun _ => ⟨h, ?_⟩⟩
  show Along Careful LeasesBounded
    (build_mailbox_summary_record agent_name m.summary m.lease _ none) _ m
  refine along_build h fun head => ?_
  exact along_save h (buildRecord_seenVersion _ head)

theorem refresh_maintains {α : Type} (timestamp : Timestamp) (value : α) :
    Maintains (refresh_and_return service agent_name timestamp value) :=
  fun m h => Along.bind ((rebuild_maintains (some timestamp) m h).mono fun _ _ h => h)

/-- **Saving the lease of a claim** gives its version to the bound: it is above
every version saved before. -/
theorem claimLease_bounded (h : LeasesBounded m) {l : DeliveryLease}
    (hversion : l.lease_version = leaseBound m + 1) :
    LeasesBounded { m with lease := some l, lease_saves := m.lease_saves ++ [l] } := by
  constructor
  · intro l' hl'
    rw [List.mem_append, List.mem_singleton] at hl'
    show l'.lease_version ≤ l.lease_version
    rcases hl' with hl' | rfl
    · have := h.bounded l' hl'
      omega
    · exact Nat.le_refl _
  · refine List.pairwise_append.2 ⟨h.fresh, List.pairwise_singleton _ _, ?_⟩
    intro l₁ h₁ l₂ h₂ _
    obtain rfl := List.mem_singleton.1 h₂
    have := h.bounded l₁ h₁
    omega

theorem leaseExpired_bounded (h : LeasesBounded m) {l : DeliveryLease}
    (hlease : m.lease = some l) : LeasesBounded (leaseExpired m l) := by
  have hbound : leaseBound m = l.lease_version := by simp [leaseBound, hlease]
  constructor
  · intro l' hl'
    show l'.lease_version ≤ l.lease_version
    rcases List.mem_append.1 hl' with hl' | hl'
    · exact hbound ▸ h.bounded l' hl'
    · obtain rfl := List.mem_singleton.1 hl'
      exact Nat.le_refl _
  · refine List.pairwise_append.2 ⟨h.fresh, List.pairwise_singleton _ _, ?_⟩
    intro l₁ _ l₂ h₂ hacquired
    rw [List.mem_singleton.1 h₂] at hacquired
    cases hacquired

theorem along_head_pending_event {Q : Option InboundEventRecord → MailboxFiles → Prop}
    (h : LeasesBounded m) (hQ : Q (pending m).head? m) :
    Along Careful LeasesBounded head_pending_event Q m := fun _ => ⟨h, hQ⟩

theorem along_next_lease_version {Q : ℕ → MailboxFiles → Prop} (h : LeasesBounded m)
    (hQ : Q (nextLeaseVersion m) m) :
    Along Careful LeasesBounded next_lease_version Q m := by
  refine Along.bind (along_read h ?_)
  cases hlease : m.lease with
  | some l =>
    simp only [nextLeaseVersion, hlease] at hQ
    exact along_pure hQ
  | none =>
    refine Along.bind (along_read h ?_)
    cases hsummary : m.summary with
    | some p | none =>
      simp only [nextLeaseVersion, hlease, hsummary] at hQ
      exact along_pure hQ

theorem claim_current_maintains (current : InboundEventRecord) (timestamp : Timestamp) :
    Maintains (claim_current service agent_name current timestamp) := by
  intro m h
  refine Along.bind (along_append h fun h => ?_)
  refine Along.bind (Along.bind (along_next_lease_version h ?_))
  refine Along.bind (along_write fun _ => ?_)
  have hsaved : LeasesBounded (delivered service agent_name m current timestamp) :=
    claimLease_bounded h (nextLeaseVersion_eq m)
  refine ⟨hsaved, Along.bind (along_read hsaved ?_)⟩
  split
  · exact refresh_maintains _ _ _ hsaved
  · split
    · exact refresh_maintains _ _ _ hsaved
    · exact Along.bind ((transition_maintains _ _ _ hsaved).mono fun _ _ h => h)

/-- **Releasing a lease keeps the bound if the summary has seen its version**;
this is the one place where carefulness is needed. -/
theorem along_remove {Q : Unit → MailboxFiles → Prop} {l : DeliveryLease}
    (h : LeasesBounded m) (hlease : m.lease = some l)
    (hQ : LeasesBounded { m with lease := none } → Q () { m with lease := none }) :
    Along Careful LeasesBounded DeliveryLeaseStore.remove Q m := by
  refine along_write fun hcareful => ?_
  have hseen : l.lease_version ≤ seenVersion m := by
    simpa [Careful, dropsUnseenLease, hlease] using hcareful
  have hbound : leaseBound m = l.lease_version := by simp [leaseBound, hlease]
  have hremoved : LeasesBounded { m with lease := none } := h.of_le rfl (hbound ▸ hseen)
  exact ⟨hremoved, hQ hremoved⟩

theorem release_maintains (e : EventId) : Maintains (release_matching_lease e) := by
  intro m h
  refine Along.bind (along_read h ?_)
  cases hlease : m.lease with
  | none => exact along_pure h
  | some l =>
    dsimp only
    split
    · exact along_pure h
    · split
      · exact along_pure h
      · exact along_remove h hlease id

theorem claim_maintains (e : EventId) (started_at : Option Timestamp) :
    Maintains (MailboxKernel.claim service agent_name e started_at) := by
  intro m h
  refine Along.bind (Along.bind (along_read h (along_pure ?_)))
  split
  · exact refresh_maintains _ _ m h
  · refine Along.bind (Along.bind (along_read h (along_pure ?_)))
    split
    · exact refresh_maintains _ _ m h
    · split
      · exact refresh_maintains _ _ m h
      · refine Along.bind ?_
        unfold is_claimable_head
        split
        · exact refresh_maintains _ _ m h
        · refine Along.bind (along_head_pending_event h (along_pure ?_))
          split
          · exact Along.bind ((claim_current_maintains _ _ m h).mono fun _ _ h => h)
          · exact refresh_maintains _ _ m h

theorem claim_next_maintains (event_type : Option InboundEventType)
    (started_at : Option Timestamp) :
    Maintains (claim_next service agent_name event_type started_at) := by
  intro m h
  have hnext : ∀ next_event : Option InboundEventRecord, Along Careful LeasesBounded
      (next_event.elim (refresh_and_return service agent_name (started_at.getD service.clock) none)
        fun next_event => MailboxKernel.claim service agent_name
          next_event.inbound_event_id started_at)
      (fun _ => LeasesBounded) m := by
    intro next_event
    cases next_event with
    | none => exact refresh_maintains _ _ m h
    | some next_event => exact claim_maintains _ _ m h
  refine Along.bind (Along.bind (along_head_pending_event h ?_))
  cases (pending m).head? with
  | none => exact hnext none
  | some head =>
    dsimp only
    split
    · exact hnext none
    · split
      · exact hnext none
      · exact hnext (some head)

theorem along_head_after_terminal {p : MailboxRecord} {e : EventId} {queue_depth : ℕ}
    {Q : Option SummaryHead → MailboxFiles → Prop} (h : LeasesBounded m) (hQ : ∀ head, Q head m) :
    Along Careful LeasesBounded (head_after_terminal p e queue_depth) Q m := by
  unfold head_after_terminal
  split
  · split
    · exact along_pure (hQ _)
    · split
      · exact Along.bind (along_head_pending_event h (along_pure (hQ _)))
      · exact Along.bind (along_head_pending_event h (along_pure (hQ _)))
  · exact along_pure (hQ _)

theorem mark_terminal_maintains (e : EventId) (status : InboundEventStatus)
    (finished_at : Option Timestamp) :
    Maintains (mark_terminal service agent_name e status finished_at) := by
  intro m h
  refine Along.bind (along_read h ?_)
  split
  · exact refresh_maintains _ _ m h
  · split
    · exact refresh_maintains _ _ m h
    · refine Along.bind (along_append h fun h => ?_)
      refine Along.bind ((release_maintains e _ h).mono fun _ m h => ?_)
      refine Along.bind (along_read h ?_)
      split
      · exact refresh_maintains _ _ m h
      · split
        · exact refresh_maintains _ _ m h
        · refine Along.bind (along_head_after_terminal h fun head => ?_)
          split
          · exact refresh_maintains _ _ m h
          · exact Along.bind ((transition_maintains _ _ m h).mono fun _ _ h => h)

theorem rewrite_head_maintains (e : EventId) (payload_ref : Option PayloadRef)
    (status : InboundEventStatus) (updated_at : Option Timestamp) (clear_progress : Bool) :
    Maintains (rewrite_head service agent_name e payload_ref status updated_at
      clear_progress) := by
  intro m h
  refine Along.bind (along_read h ?_)
  split
  · exact refresh_maintains _ _ m h
  · split
    · exact refresh_maintains _ _ m h
    · refine Along.bind (along_append h fun h => ?_)
      refine Along.bind ((release_maintains e _ h).mono fun _ m h => ?_)
      refine Along.bind (along_read h ?_)
      split
      · exact refresh_maintains _ _ m h
      · split
        · exact refresh_maintains _ _ m h
        · exact Along.bind ((transition_maintains _ _ m h).mono fun _ _ h => h)

theorem ack_reply_maintains (e : EventId) (started_at finished_at : Option Timestamp) :
    Maintains (ack_reply service agent_name e started_at finished_at) := by
  intro m h
  refine Along.bind (along_head_pending_event h ?_)
  dsimp only
  split
  · exact refresh_maintains _ _ m h
  · refine Along.bind (along_read h ?_)
    split
    · exact refresh_maintains _ _ m h
    · split
      · exact refresh_maintains _ _ m h
      · split
        · exact mark_terminal_maintains _ _ _ m h
        · refine Along.bind ((claim_maintains _ _ m h).mono fun claimed m h => ?_)
          cases claimed with
          | none => exact refresh_maintains _ _ m h
          | some r => exact mark_terminal_maintains _ _ _ m h

theorem expire_lease_maintains (finished_at : Option Timestamp) :
    Maintains (expire_lease service agent_name finished_at) := by
  intro m h
  refine Along.bind (along_read h ?_)
  cases hlease : m.lease with
  | none => exact along_pure h
  | some l =>
    dsimp only
    split
    · exact along_pure h
    · refine Along.bind (along_read h ?_)
      split
      · exact Along.bind (along_remove h hlease fun h => refresh_maintains _ _ _ h)
      · refine Along.bind (along_write fun _ => ?_)
        have hexpired := leaseExpired_bounded h hlease
        exact ⟨hexpired, mark_terminal_maintains _ _ _ _ hexpired⟩

/-- **Every operation keeps the bound** at each of its stops. -/
theorem op_maintains (op : MailboxOp) : Maintains (op.exec service agent_name) := by
  intro m h
  cases op with
  | queue event replies accepted_at =>
    refine Along.bind (along_append h fun h => ?_)
    exact Along.bind ((incremental_maintains _ _ _ _ _ _ _ h).mono fun _ _ h => h)
  | kernel call =>
    cases call with
    | claim e started_at => exact Along.bind (claim_maintains e started_at m h)
    | claim_next event_type started_at =>
      exact Along.bind (claim_next_maintains event_type started_at m h)
    | ack_reply e started_at finished_at =>
      exact Along.bind (ack_reply_maintains e started_at finished_at m h)
    | consume e finished_at => exact Along.bind (mark_terminal_maintains e _ finished_at m h)
    | abandon e finished_at => exact Along.bind (mark_terminal_maintains e _ finished_at m h)
    | supersede e finished_at => exact Along.bind (mark_terminal_maintains e _ finished_at m h)
    | rewrite_head e payload_ref updated_at clear_progress =>
      exact Along.bind (rewrite_head_maintains e payload_ref _ updated_at clear_progress m h)
    | expire_lease finished_at => exact Along.bind (expire_lease_maintains finished_at m h)
    | rebuild_mailbox_summary updated_at =>
      exact Along.bind (rebuild_maintains updated_at m h)

/-- Along the run every access, up to the stop of its operation, was careful. -/
def CarefulRun : List StoppedOp → Mailboxes → Prop
  | [], _ => True
  | o :: ops, boxes =>
    (∀ t ∈ trace o.stop (o.op.exec o.service o.agent_name) (boxes o.agent_name),
      Careful t.1 t.2) ∧ CarefulRun ops (o.after boxes)

instance decidableCarefulRun : (ops : List StoppedOp) → (boxes : Mailboxes) →
    Decidable (CarefulRun ops boxes)
  | [], _ => .isTrue trivial
  | o :: ops, boxes =>
    have := decidableCarefulRun ops (o.after boxes)
    inferInstanceAs (Decidable (_ ∧ _))

theorem after_eq (o : StoppedOp) (boxes : Mailboxes) :
    o.after boxes = Function.update boxes o.agent_name
      (stopAfter o.stop (o.op.exec o.service o.agent_name) (boxes o.agent_name)) := by
  refine stopAfter_zoom ?_ ?_ ?_ _ _ _
  · simp
  · simp
  · simp

/-- **A careful run keeps every mailbox bounded.** -/
theorem runStopped_bounded (ops : List StoppedOp) {boxes : Mailboxes}
    (h : ∀ agent_name, LeasesBounded (boxes agent_name)) (hcareful : CarefulRun ops boxes)
    (agent_name : AgentName) : LeasesBounded (runStopped ops boxes agent_name) := by
  induction ops generalizing boxes with
  | nil => exact h agent_name
  | cons o ops ih =>
    refine ih (fun a => ?_) hcareful.2
    show LeasesBounded (o.after boxes a)
    rw [after_eq]
    by_cases ha : a = o.agent_name
    · subst ha
      rw [Function.update_self]
      exact (op_maintains o.op _ (h _)).stopAfter (h _) o.stop hcareful.1
    · rw [Function.update_of_ne ha]
      exact h a

/-- **Lease versions are fresh while no unseen lease is dropped.**  Along every run of
operations, each stopped anywhere, none of whose accesses removes a lease that the mailbox
summary has not seen, every claim saves a lease version greater than all versions saved
for that mailbox before.
SOURCE: lib/mailbox_kernel/service_runtime/transitions_runtime/claiming.py:51-92 -/
theorem lease_versions_fresh (ops : List StoppedOp)
    (hcareful : CarefulRun ops Mailboxes.empty) (agent_name : AgentName) :
    FreshLeases ((runStopped ops Mailboxes.empty) agent_name).lease_saves := by
  have hempty : LeasesBounded MailboxFiles.empty := ⟨fun _ hl => (by cases hl), List.Pairwise.nil⟩
  exact (runStopped_bounded ops (fun _ => hempty) hcareful agent_name).fresh

/-- A run in which a claim is stopped before its lease save, and two later
claims complete, is careful.
SOURCE: lib/mailbox_kernel/service_runtime/transitions_runtime/claiming.py:51-92 -/
theorem lease_versions_fresh_carefulRun :
    FreshLeases ((runStopped
      [⟨⟨1, none⟩, 0, .queue (requestEvent 1) 0 1, 20⟩,
       ⟨⟨2, none⟩, 0, .queue (requestEvent 2) 0 2, 20⟩,
       ⟨⟨3, none⟩, 0, .kernel (.claim_next none none), 4⟩,
       ⟨⟨4, none⟩, 0, .kernel (.claim_next none none), 40⟩,
       ⟨⟨5, none⟩, 0, .kernel (.consume 1 none), 40⟩,
       ⟨⟨6, none⟩, 0, .kernel (.claim_next none none), 40⟩] Mailboxes.empty) 0).lease_saves :=
  lease_versions_fresh _ (by decide) 0

end ClaudeCodeBridge.Analysis
