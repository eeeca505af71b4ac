import ClaudeCodeBridge.Model.MailboxKernel

/-!
# The calls a mailbox receives

The public calls of `MailboxKernelService` as one type, and the mailboxes of all agents
as one store: a call names the agent whose files it works on.  Inbound events are
appended by the message bureau, not by the kernel; `KernelReachable.append` is that
append, without the summary update that follows it.
-/

set_option autoImplicit false

namespace ClaudeCodeBridge.Model

open Program

abbrev Mailboxes := AgentName → MailboxFiles

/-- No mailbox written yet. -/
def Mailboxes.empty : Mailboxes := fun _ => MailboxFiles.empty

/-- Run a kernel function on the files of one agent; its accesses are named with it. -/
def atMailbox {α : Type} (agent_name : AgentName) (p : MailboxM α) :
    Prog (AgentName × MailboxAccess) Mailboxes Failure α :=
  p.zoom (fun l => (agent_name, l)) (fun boxes => boxes agent_name) (fun m boxes =>
    Function.update boxes agent_name m)

/-- On its own agent's files a call does what it does on them alone, and it leaves the
other agents' files as they are. -/
theorem run_atMailbox {α : Type} (agent_name : AgentName) (p : MailboxM α) (boxes : Mailboxes) :
    (atMailbox agent_name p).run boxes =
      ((p.run (boxes agent_name)).1,
        Function.update boxes agent_name (p.run (boxes agent_name)).2) :=
  Prog.run_zoom (by simp) (by simp) (by simp) p boxes

/-- The kernel operations that change a mailbox. -/
inductive KernelCall where
  | claim (e : EventId) (started_at : Option Timestamp)
  | claim_next (event_type : Option InboundEventType) (started_at : Option Timestamp)
  | ack_reply (e : EventId) (started_at finished_at : Option Timestamp)
  | consume (e : EventId) (finished_at : Option Timestamp)
  | abandon (e : EventId) (finished_at : Option Timestamp)
  | supersede (e : EventId) (finished_at : Option Timestamp)
  | rewrite_head (e : EventId) (payload_ref : Option PayloadRef)
      (updated_at : Option Timestamp) (clear_progress : Bool)
  | expire_lease (finished_at : Option Timestamp)
  | rebuild_mailbox_summary (updated_at : Option Timestamp)
  deriving DecidableEq

namespace KernelCall

/-- The program of a call.  `rewrite_head` is called with the status QUEUED only. -/
def exec (service : MailboxKernelService) (agent_name : AgentName) : KernelCall → MailboxM Unit
  | claim e started_at => do
    let _ ← MailboxKernel.claim service agent_name e started_at
  | claim_next event_type started_at => do
    let _ ← MailboxKernel.claim_next service agent_name event_type started_at
  | ack_reply e started_at finished_at => do
    let _ ← MailboxKernel.ack_reply service agent_name e started_at finished_at
  | consume e finished_at => do
    let _ ← MailboxKernel.consume service agent_name e finished_at
  | abandon e finished_at => do
    let _ ← MailboxKernel.abandon service agent_name e finished_at
  | supersede e finished_at => do
    let _ ← MailboxKernel.supersede service agent_name e finished_at
  | rewrite_head e payload_ref updated_at clear_progress => do
    let _ ← MailboxKernel.rewrite_head service agent_name e payload_ref .queued updated_at
      clear_progress
  | expire_lease finished_at => do
    let _ ← MailboxKernel.expire_lease service agent_name finished_at
  | rebuild_mailbox_summary updated_at => do
    let _ ← MailboxKernel.rebuild_mailbox_summary service agent_name updated_at

end KernelCall

def callKernel (service : MailboxKernelService) (agent_name : AgentName)
    (call : KernelCall) (boxes : Mailboxes) : Mailboxes :=
  ((atMailbox agent_name (call.exec service agent_name)).run boxes).2

def appendEvent (agent_name : AgentName) (event : InboundEventRecord) (boxes : Mailboxes) :
    Mailboxes :=
  ((atMailbox agent_name (InboundEventStore.append event)).run boxes).2

/-- The mailboxes that event appends and kernel calls, run one at a time, can reach.  A new
event has a new id, and the bureau appends it as QUEUED or CONSUMED; what the kernel
relies on is that it is not DELIVERING.  Each call reads its own clock. -/
inductive KernelReachable : Mailboxes → Prop where
  | start : KernelReachable Mailboxes.empty
  | append {boxes : Mailboxes} (agent_name : AgentName) (event : InboundEventRecord)
      (before : KernelReachable boxes)
      (fresh : event.inbound_event_id ∉ (boxes agent_name).inbox.map fun r => r.inbound_event_id)
      (status : event.status ≠ .delivering) :
      KernelReachable (appendEvent agent_name event boxes)
  | call {boxes : Mailboxes} (service : MailboxKernelService) (agent_name : AgentName)
      (call : KernelCall) (before : KernelReachable boxes) :
      KernelReachable (callKernel service agent_name call boxes)

end ClaudeCodeBridge.Model
