import ClaudeCodeBridge.Program.Threads
import ClaudeCodeBridge.Analysis.SummaryAgreement

/-!
# Two threads on one mailbox summary

The kernel takes no lock.  While one thread appends a new event and counts it in the
mailbox summary, another may claim an event or mark one terminal, and each of the two is
several loads, appends and saves.  The stored counts survive exactly the schedules in
which no summary update is lost: `updates` is the monitor that says which accesses lose
one, and `summary_update_lost` is a schedule with such an access.

The ladder: `Accounted` is the balance that every permitted access keeps, the stored
counts plus what the arriving thread has yet to add being the pending counts plus what the
moving thread has yet to take off; `safe_save` is the step lemma of all summary writers;
`safe_rebuild`, `safe_delta` and `safe_transition` are the three writers;
`safe_claim`, `safe_mark_terminal` and the arrivals follow, and `clean_schedule_counts`
runs them side by side.
-/

set_option autoImplicit false

namespace ClaudeCodeBridge.Analysis

open Program
open Model
open Model.MailboxKernel

/-- The thread that brings a new event and the thread that moves an old one. -/
inductive Side where
  | arriving | moving
  deriving DecidableEq

def Side.other : Side → Side
  | arriving => moving
  | moving => arriving

inductive Arrival where
  | record_submission (request : MessageEnvelope) (jobs : List JobRecord)
      (submission_id : Option SubmissionId) (accepted_at : Timestamp)
      (origin_message_id : Option MessageId)
  | queue_reply_delivery (message_id : MessageId) (attempt_id : AttemptId)
      (reply_id : ReplyId) (finished_at : Timestamp)

/-- What the moving thread runs; `consume`, `abandon` and `supersede` are the callers of
`mark_terminal`. -/
inductive Move where
  | claim (e : EventId) (started_at : Option Timestamp)
  | mark_terminal (e : EventId) (status : InboundEventStatus) (terminal : status.terminal)
      (finished_at : Option Timestamp)

def Arrival.program (service : MailboxKernelService) (agent_name : AgentName) :
    Arrival → BureauM Unit
  | record_submission request jobs submission_id accepted_at origin_message_id => do
    let _ ← MessageBureau.record_submission service request jobs submission_id accepted_at
      origin_message_id
  | queue_reply_delivery message_id attempt_id reply_id finished_at =>
    MessageBureau.queue_reply_delivery service agent_name message_id attempt_id reply_id
      finished_at

def Move.program (service : MailboxKernelService) (agent_name : AgentName) : Move → BureauM Unit
  | claim e started_at => do
    let _ ← onMailbox agent_name (MailboxKernel.claim service agent_name e started_at)
  | mark_terminal e status _ finished_at => do
    let _ ← onMailbox agent_name
      (MailboxKernel.mark_terminal service agent_name e status finished_at)

/-- The two threads before their first step, each with its own clock. -/
def race (service : Side → MailboxKernelService) (agent_name : AgentName) (arrival : Arrival)
    (move : Move) (s : BureauStore) : Config Side BureauAccess BureauStore Failure Unit where
  store := s
  lock := none
  thread
    | .arriving => arrival.program (service .arriving) agent_name
    | .moving => move.program (service .moving) agent_name

/-- A queue depth and a number of replies in it. -/
structure Counts where
  depth : ℕ
  replies : ℕ
  deriving DecidableEq

def storedCounts (m : MailboxFiles) : Counts :=
  match m.summary with
  | none => ⟨0, 0⟩
  | some p => ⟨p.queue_depth, p.pending_reply_count⟩

def pendingCounts (m : MailboxFiles) : Counts := ⟨(pending m).length, replyCount (pending m)⟩

def eventCounts (r : InboundEventRecord) : Counts :=
  ⟨1, if r.event_type = .task_reply then 1 else 0⟩

/-- How far a thread is with its summary update: the counts it read in the stored summary,
what it has changed in the inbox and not yet in the summary, and whether it has begun a
rebuild without having scanned the inbox for it. -/
structure Window where
  base : Counts
  due : Counts
  rebuilding : Bool

def Window.start : Window := ⟨⟨0, 0⟩, ⟨0, 0⟩, false⟩

/-- The window of a thread after one of its accesses. -/
def Window.note (w : Window) (access : MailboxAccess) (m : MailboxFiles) : Window :=
  match access with
  | .append_event r => if r.status = .delivering then w else { w with due := eventCounts r }
  | .load_summary => { w with base := storedCounts m }
  | .load_rebuilt => { w with base := storedCounts m, rebuilding := true }
  | .scan_inbox => { w with rebuilding := false }
  | .save_summary => { w with due := ⟨0, 0⟩ }
  | _ => w

/-- The accesses that lose no summary update: a thread saves a summary only while the
stored counts are those it read, it is refused a save only when it has nothing to count,
it rebuilds the summary from an inbox in which the other thread has counted everything,
and it does not finish the only pending reply while the other has yet to count that one. -/
def keepsUpdates (i : Side) (access : MailboxAccess) (m : MailboxFiles)
    (windows : Side → Window) : Bool :=
  match access with
  | .save_summary => storedCounts m = (windows i).base
  | .reload_summary => (windows i).due = ⟨0, 0⟩
  | .scan_inbox => !(windows i).rebuilding || (windows i.other).due = ⟨0, 0⟩
  | .append_event r =>
    !r.status.terminal || r.event_type ≠ .task_reply
      || (windows i.other).due.replies < replyCount (pending m)
  | _ => true

/-- The monitor of the accesses to one agent's mailbox. -/
def updates (agent_name : AgentName) : Monitor Side BureauAccess BureauStore (Side → Window) where
  permits i access s windows :=
    match access with
    | .mailbox b access => b ≠ agent_name || keepsUpdates i access (s.mailboxes agent_name) windows
    | _ => true
  notes i access s _ windows :=
    match access with
    | .mailbox b access =>
      if b = agent_name then
        Function.update windows i ((windows i).note access (s.mailboxes agent_name))
      else windows
    | _ => windows

/-- The stored counts are the pending ones, and new ids are new. -/
structure CountsRight (agent_name : AgentName) (s : BureauStore) : Prop where
  counts : storedCounts (s.mailboxes agent_name) = pendingCounts (s.mailboxes agent_name)
  given : ∀ e ∈ (s.mailboxes agent_name).inbox.map fun r => r.inbound_event_id, e < s.next_id

/-- An attempt of agent `1` was answered; its reply is in the mailbox of agent `0`. -/
def oneReply : BureauStore :=
  runCalls [(⟨1, none⟩, .queue_reply_delivery 0 1 2 3 1)] BureauStore.empty

theorem oneReply_counts : CountsRight 0 oneReply := ⟨by decide, by decide⟩

/-- A second reply arrives while the first is consumed. -/
def twoReplies : Config Side BureauAccess BureauStore Failure Unit :=
  race (fun _ => ⟨2, none⟩) 0 (.queue_reply_delivery 4 5 6 2) (.mark_terminal 0 .consumed rfl none)
    oneReply

/-- The arriving thread has loaded the summary when the moving thread takes all its steps;
the save of the arriving thread is then refused, and nobody counts the second reply. -/
def droppedUpdate : List Side :=
  List.replicate 3 .arriving ++ List.replicate 20 .moving ++ List.replicate 20 .arriving

/-- **A summary update can be lost.**  Not every schedule of the two threads leaves the
right counts: after `droppedUpdate` the stored summary has no pending reply and the inbox
has one.
SOURCE: lib/mailbox_kernel/service_runtime/summary.py:236-244 -/
theorem summary_update_lost :
    ¬∀ (service : Side → MailboxKernelService) (agent_name : AgentName) (arrival : Arrival)
      (move : Move) (s : BureauStore) (schedule : List Side), CountsRight agent_name s →
      (∀ i, ((race service agent_name arrival move s).run schedule).returned i) →
      CountsRight agent_name ((race service agent_name arrival move s).run schedule).store := by
  intro h
  have hreturned : ∀ i, (twoReplies.run droppedUpdate).returned i := by
    intro i
    cases i with
    | arriving => decide
    | moving => decide
  have hcounts := (h _ 0 _ _ oneReply droppedUpdate oneReply_counts hreturned).counts
  exact absurd hcounts (by decide)

/-- The two threads' shared state, with their windows as its ghost. -/
abbrev Pair := Shared Side BureauStore (Side → Window)

/-- The mailbox the two threads meet in. -/
def box (agent_name : AgentName) (x : Pair) : MailboxFiles := x.store.mailboxes agent_name

def eventIds (m : MailboxFiles) : List EventId := m.inbox.map fun r => r.inbound_event_id

/-- The stored counts and what the arriving thread has yet to add make up the pending
counts and what the moving thread has yet to take off. -/
structure Accounted (agent_name : AgentName) (x : Pair) : Prop where
  depth : (storedCounts (box agent_name x)).depth + (x.ghost .arriving).due.depth =
    (pendingCounts (box agent_name x)).depth + (x.ghost .moving).due.depth
  replies : (storedCounts (box agent_name x)).replies + (x.ghost .arriving).due.replies =
    (pendingCounts (box agent_name x)).replies + (x.ghost .moving).due.replies
  spare : (x.ghost .arriving).due.replies ≤ (pendingCounts (box agent_name x)).replies
  given : ∀ e ∈ eventIds (box agent_name x), e < x.store.next_id

/-- What the steps of the other thread, and the own ones that neither append nor save,
leave to side `i`.  The moving thread keeps the events it has read; either the stored depth
has grown meanwhile, or every event that came is one the arriving thread has yet to add. -/
structure Kept (agent_name : AgentName) (i : Side) (x y : Pair) : Prop where
  base : (y.ghost i).base = (x.ghost i).base
  due : (y.ghost i).due = (x.ghost i).due
  next : x.store.next_id ≤ y.store.next_id
  ids : i = .arriving → ∀ e ∈ eventIds (box agent_name y), e ∈ eventIds (box agent_name x)
  latest : i = .moving → ∀ e r, latestEvent (box agent_name x) e = some r →
    latestEvent (box agent_name y) e = some r
  grew : i = .moving →
    (storedCounts (box agent_name x)).depth < (storedCounts (box agent_name y)).depth ∨
      (storedCounts (box agent_name x)).depth = (storedCounts (box agent_name y)).depth ∧
      (pendingCounts (box agent_name y)).depth + (x.ghost .arriving).due.depth =
        (pendingCounts (box agent_name x)).depth + (y.ghost .arriving).due.depth ∧
      (pendingCounts (box agent_name y)).replies + (x.ghost .arriving).due.replies =
        (pendingCounts (box agent_name x)).replies + (y.ghost .arriving).due.replies

variable {agent_name : AgentName} {i : Side} {x y z : Pair}

theorem Kept.refl (agent_name : AgentName) (i : Side) (x : Pair) : Kept agent_name i x x where
  base := rfl
  due := rfl
  next := Nat.le_refl _
  ids _ _ h := h
  latest _ _ _ h := h
  grew _ := Or.inr ⟨rfl, rfl, rfl⟩

theorem Kept.trans (h : Kept agent_name i x y) (h' : Kept agent_name i y z) :
    Kept agent_name i x z where
  base := h'.base.trans h.base
  due := h'.due.trans h.due
  next := Nat.le_trans h.next h'.next
  ids hi e he := h.ids hi e (h'.ids hi e he)
  latest hi e r hr := h'.latest hi e r (h.latest hi e r hr)
  grew hi := by
    rcases h.grew hi with hless | ⟨hsame, hdepth, hreplies⟩
    · rcases h'.grew hi with hless' | ⟨hsame', _, _⟩
      · exact Or.inl (Nat.lt_trans hless hless')
      · exact Or.inl (hsame' ▸ hless)
    · rcases h'.grew hi with hless' | ⟨hsame', hdepth', hreplies'⟩
      · exact Or.inl (hsame ▸ hless')
      · exact Or.inr ⟨hsame.trans hsame', by omega, by omega⟩

/-- The contract of the two threads: the balance holds at every moment, and each relies on
what `Kept` says and on being alone to move its window. -/
def counting (agent_name : AgentName) : Contract Side BureauAccess BureauStore (Side → Window) where
  toMonitor := updates agent_name
  inv := Accounted agent_name
  rely i x y := Kept agent_name i x y ∧ (y.ghost i).rebuilding = (x.ghost i).rebuilding
  rely_refl i x := ⟨Kept.refl agent_name i x, rfl⟩
  rely_trans _ _ _ _ h h' := ⟨h.1.trans h'.1, h'.2.trans h.2⟩

/-- Side `i` has counted all it did to the inbox. -/
def Settled (i : Side) (x : Pair) : Prop := (x.ghost i).due = ⟨0, 0⟩

theorem Settled.kept (h : Settled i x) (hkept : Kept agent_name i x y) : Settled i y :=
  hkept.due.trans h

theorem Side.eq_other {j : Side} (hj : j ≠ i) : j = i.other := by
  cases i with
  | arriving => cases j with
    | arriving => exact absurd rfl hj
    | moving => rfl
  | moving => cases j with
    | arriving => rfl
    | moving => exact absurd rfl hj

theorem Side.other_ne (i : Side) : i.other ≠ i := by
  cases i <;> decide

theorem fair_of (hinv : Accounted agent_name y) (hkept : Kept agent_name i.other x y)
    (hwindow : y.ghost i.other = x.ghost i.other) : (counting agent_name).Fair i x y := by
  refine ⟨hinv, fun j hj => ?_⟩
  have hother := Side.eq_other hj
  subst hother
  exact ⟨hkept, congrArg Window.rebuilding hwindow⟩

def touched (agent_name : AgentName) (i : Side) (access : MailboxAccess)
    (f : MailboxFiles → MailboxFiles) (y : Pair) : Pair :=
  (updates agent_name).after i (.mailbox agent_name access)
    (fun s => { s with
      mailboxes := Function.update s.mailboxes agent_name (f (s.mailboxes agent_name)) }) y

variable {access : MailboxAccess} {f : MailboxFiles → MailboxFiles}

@[simp] theorem touched_box :
    box agent_name (touched agent_name i access f y) = f (box agent_name y) := by
  simp [touched, Monitor.after, box]

@[simp] theorem touched_self :
    (touched agent_name i access f y).ghost i = (y.ghost i).note access (box agent_name y) := by
  simp [touched, Monitor.after, updates, box]

theorem touched_other {j : Side} (hj : j ≠ i) :
    (touched agent_name i access f y).ghost j = y.ghost j := by
  simp [touched, Monitor.after, updates, hj]

variable {α : Type}

theorem safe_access {k : MailboxFiles → MailboxM α} {Q : α → Pair → Prop}
    (h : ∀ y, Kept agent_name i x y → (y.ghost i).rebuilding = (x.ghost i).rebuilding →
      Accounted agent_name y → keepsUpdates i access (box agent_name y) y.ghost = true →
      (counting agent_name).Fair i y (touched agent_name i access f y) ∧
        Safe (counting agent_name) i (onMailbox agent_name (k (box agent_name y))) Q
          (touched agent_name i access f y)) :
    Safe (counting agent_name) i (onMailbox agent_name (.access access f k)) Q x := by
  intro y hy hinv hpermit
  refine h y hy.1 hy.2 hinv ?_
  simpa [counting, updates, box] using hpermit

/-- An access that leaves the inbox, the summary and the own counts alone takes nothing
from either side. -/
theorem kept_quiet (j : Side) (hinbox : (f (box agent_name y)).inbox = (box agent_name y).inbox)
    (hsummary : (f (box agent_name y)).summary = (box agent_name y).summary)
    (hbase : j = i → ((y.ghost i).note access (box agent_name y)).base = (y.ghost i).base)
    (hdue : ((y.ghost i).note access (box agent_name y)).due = (y.ghost i).due) :
    Kept agent_name j y (touched agent_name i access f y) := by
  have hwindow : ((touched agent_name i access f y).ghost j).base = (y.ghost j).base ∧
      ((touched agent_name i access f y).ghost j).due = (y.ghost j).due := by
    by_cases hj : j = i
    · subst hj
      simpa using ⟨hbase rfl, hdue⟩
    · rw [touched_other hj]
      exact ⟨rfl, rfl⟩
  have harriving : ((touched agent_name i access f y).ghost .arriving).due =
      (y.ghost .arriving).due := by
    by_cases hi : i = .arriving
    · subst hi
      simpa using hdue
    · rw [touched_other (Ne.symm hi)]
  have hpending : pending (f (box agent_name y)) = pending (box agent_name y) := by
    simp only [pending, hinbox]
  refine ⟨hwindow.1, hwindow.2, Nat.le_refl _, ?_, ?_, ?_⟩
  · intro _ e he
    simpa [eventIds, hinbox] using he
  · intro _ e r hr
    simpa [latestEvent, hinbox] using hr
  · intro _
    rw [harriving]
    simp [storedCounts, pendingCounts, hsummary, hpending]

theorem accounted_quiet (h : Accounted agent_name y)
    (hinbox : (f (box agent_name y)).inbox = (box agent_name y).inbox)
    (hsummary : (f (box agent_name y)).summary = (box agent_name y).summary)
    (hdue : ((y.ghost i).note access (box agent_name y)).due = (y.ghost i).due) :
    Accounted agent_name (touched agent_name i access f y) := by
  have hwindow : ∀ j, ((touched agent_name i access f y).ghost j).due = (y.ghost j).due := by
    intro j
    by_cases hj : j = i
    · subst hj
      simpa using hdue
    · rw [touched_other hj]
  have hpending : pending (f (box agent_name y)) = pending (box agent_name y) := by
    simp only [pending, hinbox]
  have hstored : storedCounts (f (box agent_name y)) = storedCounts (box agent_name y) := by
    simp only [storedCounts, hsummary]
  have hcounts : pendingCounts (f (box agent_name y)) = pendingCounts (box agent_name y) := by
    simp only [pendingCounts, hpending]
  constructor
  · simpa only [hwindow, touched_box, hstored, hcounts] using h.depth
  · simpa only [hwindow, touched_box, hstored, hcounts] using h.replies
  · simpa only [hwindow, touched_box, hcounts] using h.spare
  · intro e he
    rw [touched_box] at he
    exact h.given e (by simpa only [eventIds, hinbox] using he)

/-- The rule for an access that neither appends nor saves: it is fair, and what the thread
knows by `Kept` it still knows. -/
theorem safe_quiet {k : MailboxFiles → MailboxM α} {Q : α → Pair → Prop}
    (hinbox : ∀ m, (f m).inbox = m.inbox) (hsummary : ∀ m, (f m).summary = m.summary)
    (hbase : ∀ w m, (Window.note w access m).base = w.base)
    (hdue : ∀ w m, (Window.note w access m).due = w.due)
    (h : ∀ y z, Kept agent_name i x y → Kept agent_name i y z → Accounted agent_name z →
      box agent_name z = f (box agent_name y) →
      Safe (counting agent_name) i (onMailbox agent_name (k (box agent_name y))) Q z) :
    Safe (counting agent_name) i (onMailbox agent_name (.access access f k)) Q x := by
  refine safe_access fun y hy _ hinv _ => ?_
  have hz : Accounted agent_name (touched agent_name i access f y) :=
    accounted_quiet hinv (hinbox _) (hsummary _) (hdue _ _)
  have hkept : ∀ j, Kept agent_name j y (touched agent_name i access f y) := fun j =>
    kept_quiet j (hinbox _) (hsummary _) (fun _ => hbase _ _) (hdue _ _)
  exact ⟨fair_of hz (hkept i.other) (touched_other i.other_ne), h y _ hy (hkept i) hz touched_box⟩

theorem safe_look {k : MailboxFiles → MailboxM α} {Q : α → Pair → Prop}
    (hbase : ∀ w m, (Window.note w access m).base = w.base)
    (hdue : ∀ w m, (Window.note w access m).due = w.due)
    (h : ∀ z, Kept agent_name i x z → Accounted agent_name z →
      Safe (counting agent_name) i (onMailbox agent_name (k (box agent_name z))) Q z) :
    Safe (counting agent_name) i (onMailbox agent_name (.access access id k)) Q x := by
  refine safe_quiet (fun _ => rfl) (fun _ => rfl) hbase hdue fun y z hy hyz hz hbox => ?_
  have hrest := h z (hy.trans hyz) hz
  rwa [hbox] at hrest

theorem safe_read {k : MailboxFiles → MailboxM α} {Q : α → Pair → Prop}
    (hnote : ∀ w m, Window.note w access m = w)
    (h : ∀ y, Kept agent_name i x y → (y.ghost i).rebuilding = (x.ghost i).rebuilding →
      Safe (counting agent_name) i (onMailbox agent_name (k (box agent_name y))) Q y) :
    Safe (counting agent_name) i (onMailbox agent_name (.access access id k)) Q x := by
  refine safe_access fun y hy hflag hinv _ => ?_
  have hsame : touched agent_name i access id y = y := by
    have hghost : Function.update y.ghost i ((y.ghost i).note access (box agent_name y)) =
        y.ghost := by
      rw [hnote, Function.update_eq_self]
    unfold touched Monitor.after
    simp only [updates, if_true, id]
    rw [show y.store.mailboxes agent_name = box agent_name y from rfl, hghost]
    simp [box]
  rw [hsame]
  exact ⟨⟨hinv, fun j _ => (counting agent_name).rely_refl j y⟩, h y hy hflag⟩

theorem safe_ret {v : α} {Q : α → Pair → Prop}
    (h : ∀ y, Kept agent_name i x y → Accounted agent_name y → Q v y) :
    Safe (counting agent_name) i (onMailbox agent_name (.ret v)) Q x :=
  fun y hy hinv => h y hy.1 hinv

theorem onMailbox_bind {β : Type} (p : MailboxM α) (f : α → MailboxM β) :
    onMailbox agent_name (p.bind f) =
      (onMailbox agent_name p).bind fun v => onMailbox agent_name (f v) := by
  simp only [onMailbox, atMailbox, Prog.zoom_bind]

theorem safe_bind {β : Type} {p : MailboxM α} {f : α → MailboxM β} {Q : β → Pair → Prop}
    (h : Safe (counting agent_name) i (onMailbox agent_name p)
      (fun v y => Safe (counting agent_name) i (onMailbox agent_name (f v)) Q y) x) :
    Safe (counting agent_name) i (onMailbox agent_name (p.bind f)) Q x := by
  rw [onMailbox_bind]
  exact Safe.bind h

def saved (agent_name : AgentName) (i : Side) (record : MailboxRecord) (y : Pair) : Pair :=
  touched agent_name i .save_summary (fun m => { m with summary := some record }) y

theorem saved_settled (record : MailboxRecord) : Settled i (saved agent_name i record y) := by
  simp [Settled, saved, Window.note]

/-- **A save is safe if it is fair on the counts it was computed from.**  A thread that is
refused its save has nothing to count. -/
theorem safe_save {record : MailboxRecord} {expected : Option ℕ}
    (hfair : ∀ y, Kept agent_name i x y → Accounted agent_name y →
      storedCounts (box agent_name y) = (y.ghost i).base →
      (counting agent_name).Fair i y (saved agent_name i record y)) :
    Safe (counting agent_name) i (onMailbox agent_name (save_summary_record record expected))
      (fun _ => Settled i) x := by
  have hsave : ∀ {α : Type} {y : Pair} (v : α), Kept agent_name i x y →
      Safe (counting agent_name) i
        (onMailbox agent_name ((MailboxStore.save record).bind fun _ => .ret v))
        (fun _ => Settled i) y := by
    intro α y v hy
    refine safe_access fun z hz _ hinv hpermit => ⟨?_, ?_⟩
    · have hcounts : storedCounts (box agent_name z) = (z.ghost i).base := by
        simpa [keepsUpdates] using hpermit
      exact hfair z (hy.trans hz) hinv hcounts
    · exact safe_ret fun w hw _ => (saved_settled record).kept hw
  unfold save_summary_record MailboxStore.compare_and_save
  refine safe_bind (safe_look (fun _ _ => rfl) (fun _ _ => rfl) fun y hy _ => ?_)
  rw [Prog.ret_bind]
  split
  · refine safe_ret fun z hz _ => safe_access fun w hw _ hinv hpermit => ?_
    -- the refused save: the monitor permits it to a settled thread only
    have hsettled : Settled i w := by simpa [keepsUpdates, Settled] using hpermit
    have hkept : ∀ j, Kept agent_name j w (touched agent_name i .reload_summary id w) :=
      fun j => kept_quiet j rfl rfl (fun _ => rfl) rfl
    refine ⟨fair_of (accounted_quiet hinv rfl rfl rfl) (hkept _) (touched_other i.other_ne), ?_⟩
    · simp only [Prog.ret_bind]
      cases (box agent_name w).summary with
      | some current => exact safe_ret fun v hv _ => hsettled.kept ((hkept i).trans hv)
      | none => exact hsave record (hy.trans (hz.trans (hw.trans (hkept i))))
  · refine safe_access fun z hz _ hinv hpermit => ⟨?_, ?_⟩
    · have hcounts : storedCounts (box agent_name z) = (z.ghost i).base := by
        simpa [keepsUpdates] using hpermit
      exact hfair z (hy.trans hz) hinv hcounts
    · refine safe_ret fun w hw _ => safe_ret fun v hv _ => ?_
      exact (saved_settled record).kept (hw.trans hv)

theorem storedCounts_saved (record : MailboxRecord) :
    storedCounts (box agent_name (saved agent_name i record y)) =
      ⟨record.queue_depth, record.pending_reply_count⟩ := by
  simp [saved, storedCounts]

theorem pendingCounts_saved (record : MailboxRecord) :
    pendingCounts (box agent_name (saved agent_name i record y)) =
      pendingCounts (box agent_name y) := by
  simp [saved, pendingCounts, pending]

theorem eventIds_saved (record : MailboxRecord) :
    eventIds (box agent_name (saved agent_name i record y)) = eventIds (box agent_name y) := by
  simp [saved, eventIds]

theorem fair_saved_arriving (hinv : Accounted agent_name y) {record : MailboxRecord}
    (hdepth : record.queue_depth =
      (storedCounts (box agent_name y)).depth + (y.ghost .arriving).due.depth)
    (hreplies : record.pending_reply_count =
      (storedCounts (box agent_name y)).replies + (y.ghost .arriving).due.replies)
    (hdue : 0 < (y.ghost .arriving).due.depth) :
    (counting agent_name).Fair .arriving y (saved agent_name .arriving record y) := by
  have hsettled : ((saved agent_name .arriving record y).ghost .arriving).due = ⟨0, 0⟩ :=
    saved_settled record
  have hmoving : (saved agent_name .arriving record y).ghost .moving = y.ghost .moving :=
    touched_other (by decide)
  refine fair_of ⟨?_, ?_, ?_, ?_⟩ ⟨?_, ?_, Nat.le_refl _, (fun h => by cases h), ?_, ?_⟩ hmoving
  · rw [hsettled, hmoving, storedCounts_saved, pendingCounts_saved]
    have := hinv.depth
    dsimp only
    omega
  · rw [hsettled, hmoving, storedCounts_saved, pendingCounts_saved]
    have := hinv.replies
    dsimp only
    omega
  · rw [hsettled]
    exact Nat.zero_le _
  · intro e he
    rw [eventIds_saved] at he
    exact hinv.given e he
  · exact congrArg Window.base hmoving
  · exact congrArg Window.due hmoving
  · intro _ e r hr
    simpa [saved, latestEvent] using hr
  · intro _
    refine Or.inl ?_
    rw [storedCounts_saved]
    dsimp only
    omega

theorem fair_saved_moving (hinv : Accounted agent_name y) {record : MailboxRecord}
    (hdepth : record.queue_depth + (y.ghost .arriving).due.depth =
      (pendingCounts (box agent_name y)).depth)
    (hreplies : record.pending_reply_count + (y.ghost .arriving).due.replies =
      (pendingCounts (box agent_name y)).replies) :
    (counting agent_name).Fair .moving y (saved agent_name .moving record y) := by
  have hsettled : ((saved agent_name .moving record y).ghost .moving).due = ⟨0, 0⟩ :=
    saved_settled record
  have harriving : (saved agent_name .moving record y).ghost .arriving = y.ghost .arriving :=
    touched_other (by decide)
  refine fair_of ⟨?_, ?_, ?_, ?_⟩ ⟨?_, ?_, Nat.le_refl _, ?_, (fun h => by cases h),
    (fun h => by cases h)⟩ harriving
  · rw [hsettled, harriving, storedCounts_saved, pendingCounts_saved]
    exact hdepth
  · rw [hsettled, harriving, storedCounts_saved, pendingCounts_saved]
    exact hreplies
  · rw [harriving, pendingCounts_saved]
    exact hinv.spare
  · intro e he
    rw [eventIds_saved] at he
    exact hinv.given e he
  · exact congrArg Window.base harriving
  · exact congrArg Window.due harriving
  · intro _ e he
    rwa [eventIds_saved] at he

theorem safe_build (prior : Option MailboxRecord) (lease : Option DeliveryLease)
    (fields : SummaryFields) (head : Option SummaryHead) :
    Safe (counting agent_name) i
      (onMailbox agent_name (build_mailbox_summary_record agent_name prior lease fields head))
      (fun record y => record.queue_depth = fields.queue_depth ∧
        record.pending_reply_count = fields.pending_reply_count ∧ Kept agent_name i x y) x := by
  cases head with
  | some head => exact safe_ret fun y hy _ => ⟨rfl, rfl, hy⟩
  | none =>
    refine safe_look (fun _ _ => rfl) (fun _ _ => rfl) fun y hy _ => ?_
    exact safe_ret fun z hz _ => ⟨rfl, rfl, hy.trans hz⟩

/-- The rule for the load that begins a summary update: the counts it reads become the base
of the window. -/
theorem safe_rebase {k : MailboxFiles → MailboxM α} {Q : α → Pair → Prop}
    (hdue : ∀ w m, (Window.note w access m).due = w.due)
    (h : ∀ z w, z.ghost i = Window.note w access (box agent_name z) →
      (z.ghost i).due = (x.ghost i).due → Accounted agent_name z →
      Safe (counting agent_name) i (onMailbox agent_name (k (box agent_name z))) Q z) :
    Safe (counting agent_name) i (onMailbox agent_name (.access access id k)) Q x := by
  refine safe_access fun y hy _ hinv _ => ?_
  have hz : Accounted agent_name (touched agent_name i access id y) :=
    accounted_quiet hinv rfl rfl (hdue _ _)
  have hkept : Kept agent_name i.other y (touched agent_name i access id y) :=
    kept_quiet i.other rfl rfl (fun h => absurd h i.other_ne) (hdue _ _)
  refine ⟨fair_of hz hkept (touched_other i.other_ne), ?_⟩
  have hbox : box agent_name (touched agent_name i access id y) = box agent_name y := touched_box
  have hdue' : ((touched agent_name i access id y).ghost i).due = (x.ghost i).due := by
    rw [touched_self, hdue]
    exact hy.due
  have hrest := h _ (y.ghost i) (by rw [hbox]; exact touched_self) hdue' hz
  rwa [hbox] at hrest

theorem bumped_counts (m : MailboxFiles) (delta : ℕ) :
    bumped m.summary (fun p => p.queue_depth) delta = (storedCounts m).depth + delta ∧
      bumped m.summary (fun p => p.pending_reply_count) delta =
        (storedCounts m).replies + delta := by
  unfold bumped storedCounts
  cases m.summary with
  | none => simp
  | some p => exact ⟨Int.toNat_natCast (p.queue_depth + delta),
      Int.toNat_natCast (p.pending_reply_count + delta)⟩

/-- The bureau's delta counts the event that the arriving thread has appended. -/
theorem safe_delta {service : MailboxKernelService} {delta : Int} {accepted_at : Timestamp}
    (hdepth : (x.ghost .arriving).due.depth = 1)
    (hreplies : ((x.ghost .arriving).due.replies : Int) = delta) :
    Safe (counting agent_name) .arriving
      (onMailbox agent_name (apply_incremental_summary_update service agent_name 1 delta none
        none none (some accepted_at)))
      (fun _ => Settled .arriving) x := by
  unfold apply_incremental_summary_update
  refine safe_rebase (fun _ _ => rfl) fun y w hwindow hdue _ => ?_
  rw [Prog.ret_bind]
  refine safe_look (fun _ _ => rfl) (fun _ _ => rfl) fun y' hy' _ => ?_
  rw [Prog.ret_bind]
  refine safe_bind ((safe_build _ _ _ _).mono ?_)
  rintro record z _ ⟨hqueue, hreply, hz⟩
  refine safe_save fun v hv hinv hcounts => ?_
  have hkept := hy'.trans (hz.trans hv)
  have hbase : storedCounts (box agent_name v) = storedCounts (box agent_name y) := by
    rw [hcounts, hkept.base, hwindow]
    rfl
  have hdue' : (v.ghost .arriving).due = (x.ghost .arriving).due := hkept.due.trans hdue
  refine fair_saved_arriving hinv ?_ ?_ ?_
  · rw [hqueue, hbase, hdue', hdepth]
    exact (bumped_counts _ 1).1
  · rw [hreply, hbase, hdue', ← hreplies]
    exact (bumped_counts _ _).2
  · rw [hdue', hdepth]
    exact Nat.one_pos

/-- A transition of the moving thread saves the counts it read, less what it took off. -/
theorem safe_transition {fields : SummaryFields} {head : Option SummaryHead}
    (hdepth : fields.queue_depth + (x.ghost .moving).due.depth = (x.ghost .moving).base.depth)
    (hreplies : fields.pending_reply_count =
      (x.ghost .moving).base.replies - (x.ghost .moving).due.replies) :
    Safe (counting agent_name) .moving
      (onMailbox agent_name (apply_transition_summary_update agent_name fields head))
      (fun _ => Settled .moving) x := by
  unfold apply_transition_summary_update
  refine safe_look (fun _ _ => rfl) (fun _ _ => rfl) fun y hy _ => ?_
  rw [Prog.ret_bind]
  refine safe_look (fun _ _ => rfl) (fun _ _ => rfl) fun y' hy' _ => ?_
  rw [Prog.ret_bind]
  refine safe_bind ((safe_build _ _ _ _).mono ?_)
  rintro record z _ ⟨hqueue, hreply, hz⟩
  refine safe_save fun v hv hinv hcounts => ?_
  have hkept := hy.trans (hy'.trans (hz.trans hv))
  have hstored : storedCounts (box agent_name v) = (x.ghost .moving).base := by
    rw [hcounts, hkept.base]
  have hbalance := hinv.depth
  have hbalance' := hinv.replies
  have hspare := hinv.spare
  rw [hstored, hkept.due] at hbalance hbalance'
  refine fair_saved_moving hinv ?_ ?_
  · rw [hqueue]
    omega
  · rw [hreply, hreplies]
    omega

/-- A rebuild of the moving thread saves the counts of an inbox that holds nothing the
other has yet to add. -/
theorem safe_rebuild {service : MailboxKernelService} {updated_at : Option Timestamp} :
    Safe (counting agent_name) .moving
      (onMailbox agent_name (rebuild_mailbox_summary service agent_name updated_at))
      (fun _ => Settled .moving) x := by
  unfold rebuild_mailbox_summary project_mailbox_summary
  refine safe_rebase (fun _ _ => rfl) fun y w hwindow _ _ => ?_
  rw [Prog.ret_bind]
  refine safe_bind (safe_read (fun _ _ => rfl) fun y' hy' hflag => ?_)
  rw [Prog.ret_bind]
  refine safe_access fun u hu hflag' hinv hpermit => ?_
  have hrebuilding : (u.ghost .moving).rebuilding = true := by
    rw [hflag', hflag, hwindow]
    rfl
  have hnothing : (u.ghost .arriving).due = ⟨0, 0⟩ := by
    unfold keepsUpdates at hpermit
    rw [hrebuilding] at hpermit
    exact of_decide_eq_true hpermit
  have hkept : ∀ j, Kept agent_name j u (touched agent_name .moving .scan_inbox id u) :=
    fun j => kept_quiet j rfl rfl (fun _ => rfl) rfl
  refine ⟨fair_of (accounted_quiet hinv rfl rfl rfl) (hkept .arriving) ?_, ?_⟩
  · exact touched_other (by decide)
  have hscan : Kept agent_name .moving y (touched agent_name .moving .scan_inbox id u) :=
    (hy'.trans hu).trans (hkept .moving)
  simp only [Prog.ret_bind, Prog.bind_eq, Prog.pure_eq]
  refine safe_look (fun _ _ => rfl) (fun _ _ => rfl) fun v hv _ => ?_
  simp only [Prog.ret_bind, Prog.pure_eq]
  refine (safe_build _ _ _ _).mono ?_
  rintro record t _ ⟨hqueue, hreply, ht⟩
  refine safe_save fun n hn hbalance hcounts => ?_
  have hsince : Kept agent_name .moving u n := (hkept .moving).trans (hv.trans (ht.trans hn))
  have hbase : (storedCounts (box agent_name n)).depth = (storedCounts (box agent_name y)).depth := by
    rw [hcounts, ((hy'.trans hu).trans hsince).base, hwindow]
    rfl
  -- had the stored depth grown since the scan, it would not be the base any more
  have hgrew := (hy'.trans hu).grew rfl
  rcases hsince.grew rfl with hless | ⟨_, hdepth, hreplies⟩
  · omega
  · rw [hnothing] at hdepth hreplies
    refine fair_saved_moving hbalance ?_ ?_
    · rw [hqueue]
      exact hdepth.symm
    · rw [hreply]
      exact hreplies.symm

variable {service : MailboxKernelService}

theorem safe_refresh (timestamp : Timestamp) (v : α) :
    Safe (counting agent_name) .moving
      (onMailbox agent_name (refresh_and_return service agent_name timestamp v))
      (fun _ => Settled .moving) x := by
  unfold refresh_and_return
  refine safe_bind (safe_rebuild.mono fun _ y _ hy => ?_)
  exact safe_ret fun z hz _ => hy.kept hz

/-- What a moved record takes off the pending counts. -/
def taken (updated : InboundEventRecord) : Counts :=
  if updated.status.terminal then eventCounts updated else ⟨0, 0⟩

variable {updated : InboundEventRecord}

theorem pendingCounts_replace {m : MailboxFiles} {current : InboundEventRecord}
    (hlatest : latestEvent m updated.inbound_event_id = some current)
    (hlive : ¬current.status.terminal) (htype : updated.event_type = current.event_type) :
    (pendingCounts m).depth =
        (pendingCounts { m with inbox := m.inbox ++ [updated] }).depth + (taken updated).depth ∧
      (pendingCounts m).replies =
        (pendingCounts { m with inbox := m.inbox ++ [updated] }).replies +
          (taken updated).replies := by
  obtain ⟨before, behind, hold, hnew⟩ := pending_replace hlatest hlive
  have hpending : pending { m with inbox := m.inbox ++ [updated] } =
      before ++ (if updated.status.terminal then behind else updated :: behind) := hnew
  unfold pendingCounts replyCount taken
  rw [hold, hpending]
  by_cases hterminal : updated.status.terminal
  · simp only [hterminal, if_true, eventCounts, List.length_append, List.length_cons,
      List.countP_append, List.countP_cons, decide_eq_true_eq, htype]
    constructor <;> omega
  · simp [hterminal, List.countP_append, List.countP_cons, htype]

def appended (agent_name : AgentName) (i : Side) (record : InboundEventRecord) (y : Pair) : Pair :=
  touched agent_name i (.append_event record)
    (fun m => { m with inbox := m.inbox ++ [record] }) y

theorem note_move {w : Window} (hw : w.due = ⟨0, 0⟩)
    (hstatus : updated.status = .delivering ∨ updated.status.terminal) (m : MailboxFiles) :
    (w.note (.append_event updated) m).due = taken updated := by
  unfold Window.note taken
  rcases hstatus with hdelivering | hterminal
  · simp [hdelivering, hw, InboundEventStatus.terminal]
  · have hne : updated.status ≠ .delivering := by
      intro h
      rw [h] at hterminal
      exact absurd hterminal (by decide)
    simp [hne, hterminal]

theorem accounted_move (hinv : Accounted agent_name y) (hdue : (y.ghost .moving).due = ⟨0, 0⟩)
    (hgone : ((y.ghost .moving).note (.append_event updated) (box agent_name y)).due =
      taken updated) (hpermit : (taken updated).replies = 0 ∨
      (y.ghost .arriving).due.replies < (pendingCounts (box agent_name y)).replies)
    (hdepth : (pendingCounts (box agent_name y)).depth =
      (pendingCounts (box agent_name (appended agent_name .moving updated y))).depth +
        (taken updated).depth) (hreplies : (pendingCounts (box agent_name y)).replies =
      (pendingCounts (box agent_name (appended agent_name .moving updated y))).replies +
        (taken updated).replies)
    (hids : ∀ e ∈ eventIds (box agent_name (appended agent_name .moving updated y)),
      e ∈ eventIds (box agent_name y)) :
    Accounted agent_name (appended agent_name .moving updated y) := by
  have harriving : (appended agent_name .moving updated y).ghost .arriving = y.ghost .arriving :=
    touched_other (by decide)
  have hmoving : ((appended agent_name .moving updated y).ghost .moving).due = taken updated := by
    rw [← hgone]
    exact congrArg Window.due touched_self
  have hstored : storedCounts (box agent_name (appended agent_name .moving updated y)) =
      storedCounts (box agent_name y) := by
    simp [appended, storedCounts]
  have hbalance := hinv.depth
  have hbalance' := hinv.replies
  have hspare := hinv.spare
  have hsmall : (taken updated).replies ≤ 1 := by
    unfold taken eventCounts
    by_cases hterminal : updated.status.terminal <;>
      by_cases hreply : updated.event_type = .task_reply <;> simp [hterminal, hreply]
  rw [hdue] at hbalance hbalance'
  constructor
  · rw [harriving, hmoving, hstored]
    dsimp only at hbalance
    omega
  · rw [harriving, hmoving, hstored]
    dsimp only at hbalance'
    omega
  · rw [harriving]
    omega
  · exact fun e he => hinv.given e (hids e he)

/-- **A record appended by the moving thread is fair.**  What it takes off the pending
counts is due to the summary. -/
theorem safe_move {p : MailboxM α} {Q : α → Pair → Prop} (current : InboundEventRecord)
    (hlatest : latestEvent (box agent_name x) updated.inbound_event_id = some current)
    (hlive : ¬current.status.terminal) (htype : updated.event_type = current.event_type)
    (hstatus : updated.status = .delivering ∨ updated.status.terminal)
    (hsettled : Settled .moving x) (h : ∀ z, (z.ghost .moving).due = taken updated →
      Safe (counting agent_name) .moving (onMailbox agent_name p) Q z) :
    Safe (counting agent_name) .moving
      (onMailbox agent_name ((InboundEventStore.append updated).bind fun _ => p)) Q x := by
  refine safe_access fun y hy _ hinv hpermit => ?_
  have hlatest' := hy.latest rfl _ _ hlatest
  have hdue : (y.ghost .moving).due = ⟨0, 0⟩ := hsettled.kept hy
  have hgone := note_move hdue hstatus (box agent_name y)
  have hids : ∀ e ∈ eventIds (box agent_name (appended agent_name .moving updated y)),
      e ∈ eventIds (box agent_name y) := by
    intro e he
    simp only [appended, touched_box, eventIds, List.map_append, List.mem_append, List.map_cons,
      List.map_nil, List.mem_singleton] at he
    rcases he with he | rfl
    · exact he
    · by_contra hnone
      exact absurd (hlatest'.symm.trans ((latest?_eq_none_iff _).2 hnone)) (Option.some_ne_none _)
  have hlose : (taken updated).replies = 0 ∨
      (y.ghost .arriving).due.replies < (pendingCounts (box agent_name y)).replies := by
    unfold keepsUpdates at hpermit
    simp only [Bool.or_eq_true, Bool.not_eq_true', decide_eq_true_eq] at hpermit
    unfold taken eventCounts
    rcases hpermit with (hlive' | hrequest) | hspare
    · simp [hlive']
    · left
      rw [if_neg hrequest]
      split <;> rfl
    · exact Or.inr hspare
  obtain ⟨hdepth, hreplies⟩ := pendingCounts_replace hlatest' hlive htype
  have hcounts : pendingCounts (box agent_name (appended agent_name .moving updated y)) =
      pendingCounts { box agent_name y with inbox := (box agent_name y).inbox ++ [updated] } := by
    simp [appended]
  have harriving : (appended agent_name .moving updated y).ghost .arriving =
      y.ghost .arriving := touched_other (by decide)
  refine ⟨fair_of (accounted_move hinv hdue hgone hlose ?_ ?_ hids)
    ⟨?_, ?_, Nat.le_refl _, fun _ => hids, (fun h => by cases h),
      (fun h => by cases h)⟩ harriving, h _ ?_⟩
  · rw [hcounts]
    exact hdepth
  · rw [hcounts]
    exact hreplies
  · exact congrArg Window.base harriving
  · exact congrArg Window.due harriving
  · rw [← hgone]
    exact congrArg Window.due touched_self

theorem safe_next_lease_version :
    Safe (counting agent_name) i (onMailbox agent_name next_lease_version)
      (fun _ => Kept agent_name i x) x := by
  unfold next_lease_version
  refine safe_look (fun _ _ => rfl) (fun _ _ => rfl) fun y hy _ => ?_
  rw [Prog.ret_bind]
  split
  · exact safe_ret fun z hz _ => hy.trans hz
  · refine safe_look (fun _ _ => rfl) (fun _ _ => rfl) fun z hz _ => ?_
    rw [Prog.ret_bind]
    split
    · exact safe_ret fun u hu _ => hy.trans (hz.trans hu)
    · exact safe_ret fun u hu _ => hy.trans (hz.trans hu)

theorem base_eq_counts {w : Window} {p : MailboxRecord}
    (hwindow : y.ghost i = Window.note w .load_summary (box agent_name y))
    (hsummary : (box agent_name y).summary = some p) :
    (y.ghost i).base = ⟨p.queue_depth, p.pending_reply_count⟩ := by
  rw [hwindow]
  unfold Window.note storedCounts
  simp only [hsummary]

theorem safe_claim_current {current : InboundEventRecord} {timestamp : Timestamp}
    (hlatest : latestEvent (box agent_name x) current.inbound_event_id = some current)
    (hlive : ¬current.status.terminal) (hsettled : Settled .moving x) :
    Safe (counting agent_name) .moving
      (onMailbox agent_name (claim_current service agent_name current timestamp))
      (fun _ => Settled .moving) x := by
  unfold claim_current
  refine safe_move current hlatest hlive rfl (Or.inl rfl) hsettled fun y hy => ?_
  have hy' : Settled .moving y := hy
  refine safe_bind (safe_bind (safe_next_lease_version.mono fun version z _ hz => ?_))
  refine safe_ret fun u hu _ => ?_
  refine safe_quiet (fun _ => rfl) (fun _ => rfl) (fun _ _ => rfl) (fun _ _ => rfl)
    fun v v' hv hv' _ _ => ?_
  refine safe_rebase (fun _ _ => rfl) fun n w hwindow hdue _ => ?_
  have hnothing : Settled .moving n := hdue.trans (hy'.kept (hz.trans (hu.trans (hv.trans hv'))))
  simp only [Prog.ret_bind]
  cases hsummary : (box agent_name n).summary with
  | none => exact safe_refresh _ _
  | some p =>
    dsimp only
    split
    · exact safe_refresh _ _
    · have hbase := base_eq_counts hwindow hsummary
      refine safe_bind ((safe_transition ?_ ?_).mono fun _ m _ hm => ?_)
      · rw [hnothing, hbase]
        exact Nat.add_zero _
      · rw [hnothing, hbase]
        rfl
      · exact safe_ret fun m' hm' _ => hm.kept hm'

theorem safe_is_claimable_head (current : InboundEventRecord) :
    Safe (counting agent_name) i (onMailbox agent_name (is_claimable_head current))
      (fun _ => Kept agent_name i x) x := by
  unfold is_claimable_head
  split
  · exact safe_ret fun y hy _ => hy
  · refine safe_look (fun _ _ => rfl) (fun _ _ => rfl) fun y hy _ => ?_
    exact safe_ret fun z hz _ => hy.trans hz

theorem safe_claim (e : EventId) (started_at : Option Timestamp) (hsettled : Settled .moving x) :
    Safe (counting agent_name) .moving
      (onMailbox agent_name (MailboxKernel.claim service agent_name e started_at))
      (fun _ => Settled .moving) x := by
  unfold MailboxKernel.claim load_claim_candidate
  refine safe_bind (safe_look (fun _ _ => rfl) (fun _ _ => rfl) fun y hy _ => ?_)
  refine safe_ret fun y' hy' _ => ?_
  cases hcurrent : (latest? (fun r => r.inbound_event_id) e (box agent_name y).inbox).filter
      (fun current => !current.status.terminal) with
  | none => exact safe_refresh _ _
  | some current =>
    obtain ⟨hlatest, hlive⟩ := Option.filter_eq_some_iff.1 hcurrent
    have hid : current.inbound_event_id = e := (latestEvent_eq_some_iff.1 hlatest).2
    dsimp only
    refine safe_bind (safe_look (fun _ _ => rfl) (fun _ _ => rfl) fun z hz _ => ?_)
    refine safe_ret fun z' hz' _ => ?_
    have hkept := hy'.trans (hz.trans hz')
    split
    · exact safe_refresh _ _
    · split
      · exact safe_refresh _ _
      · refine safe_bind ((safe_is_claimable_head current).mono fun claimable u _ hu => ?_)
        split
        · have hstill : latestEvent (box agent_name u) current.inbound_event_id = some current :=
            (hkept.trans hu).latest rfl _ _ (hid ▸ hlatest)
          have hnothing : Settled .moving u := hsettled.kept (hy.trans (hkept.trans hu))
          refine safe_bind ((safe_claim_current hstill (by simpa using hlive) hnothing).mono
            fun _ v _ hv => ?_)
          exact safe_ret fun v' hv' _ => hv.kept hv'
        · exact safe_refresh _ _

theorem safe_release_matching_lease (e : EventId) :
    Safe (counting agent_name) i (onMailbox agent_name (release_matching_lease e))
      (fun _ => Kept agent_name i x) x := by
  unfold release_matching_lease
  refine safe_look (fun _ _ => rfl) (fun _ _ => rfl) fun y hy _ => ?_
  rw [Prog.ret_bind]
  split
  · exact safe_ret fun z hz _ => hy.trans hz
  · split
    · exact safe_ret fun z hz _ => hy.trans hz
    · split
      · exact safe_ret fun z hz _ => hy.trans hz
      · refine safe_quiet (fun _ => rfl) (fun _ => rfl) (fun _ _ => rfl) (fun _ _ => rfl)
          fun u v hu hv _ _ => ?_
        exact safe_ret fun z hz _ => hy.trans (hu.trans (hv.trans hz))

theorem safe_head_after_terminal (p : MailboxRecord) (e : EventId) (queue_depth : ℕ) :
    Safe (counting agent_name) i (onMailbox agent_name (head_after_terminal p e queue_depth))
      (fun _ => Kept agent_name i x) x := by
  unfold head_after_terminal
  split
  · split
    · exact safe_ret fun z hz _ => hz
    · split
      · refine safe_look (fun _ _ => rfl) (fun _ _ => rfl) fun y hy _ => ?_
        exact safe_ret fun z hz _ => hy.trans hz
      · refine safe_look (fun _ _ => rfl) (fun _ _ => rfl) fun y hy _ => ?_
        exact safe_ret fun z hz _ => hy.trans hz
  · exact safe_ret fun z hz _ => hz

theorem safe_mark_terminal (e : EventId) {status : InboundEventStatus}
    (finished_at : Option Timestamp) (hstatus : status.terminal) (hsettled : Settled .moving x) :
    Safe (counting agent_name) .moving
      (onMailbox agent_name (mark_terminal service agent_name e status finished_at))
      (fun _ => Settled .moving) x := by
  unfold mark_terminal
  refine safe_look (fun _ _ => rfl) (fun _ _ => rfl) fun y hy _ => ?_
  rw [Prog.ret_bind]
  split
  · exact safe_refresh _ _
  · rename_i current hlatest
    split
    · exact safe_refresh _ _
    · rename_i hlive
      have hid : current.inbound_event_id = e := (latestEvent_eq_some_iff.1 hlatest).2
      refine safe_move current (hid ▸ hlatest) hlive rfl (Or.inr hstatus)
        (hsettled.kept hy) fun z hz => ?_
      refine safe_bind ((safe_release_matching_lease e).mono fun _ u _ hu => ?_)
      refine safe_rebase (fun _ _ => rfl) fun n w hwindow hdue _ => ?_
      simp only [Prog.ret_bind]
      cases hsummary : (box agent_name n).summary with
      | none => exact safe_refresh _ _
      | some p =>
        dsimp only
        split
        · exact safe_refresh _ _
        · rename_i hdepth
          refine safe_bind ((safe_head_after_terminal p _ _).mono fun head v _ hv => ?_)
          cases head with
          | none => exact safe_refresh _ _
          | some head =>
            have hbase : (v.ghost .moving).base = ⟨p.queue_depth, p.pending_reply_count⟩ :=
              hv.base.trans (base_eq_counts hwindow hsummary)
            have hgone : (v.ghost .moving).due = eventCounts current := by
              rw [hv.due, hdue, hu.due, hz]
              simp [taken, hstatus, eventCounts]
            refine safe_bind ((safe_transition ?_ ?_).mono fun _ m _ hm => ?_)
            · rw [hbase, hgone]
              dsimp only [eventCounts]
              omega
            · rw [hbase, hgone]
              rfl
            · exact safe_ret fun m' hm' _ => hm.kept hm'

def Elsewhere (agent_name : AgentName) (access : BureauAccess) (f : BureauStore → BureauStore) :
    Prop :=
  (∀ a, access ≠ .mailbox agent_name a) ∧
    ∀ s, (f s).mailboxes agent_name = s.mailboxes agent_name ∧ s.next_id ≤ (f s).next_id

theorem safe_elsewhere {p : BureauM α} (hp : p.Each (Elsewhere agent_name)) :
    Safe (counting agent_name) i p (fun _ => Kept agent_name i x) x := by
  have hframe : ∀ y lock (s : BureauStore), Accounted agent_name y →
      s.mailboxes agent_name = box agent_name y → y.store.next_id ≤ s.next_id →
      (counting agent_name).Fair i y ⟨s, lock, y.ghost⟩ ∧
        Kept agent_name i y ⟨s, lock, y.ghost⟩ := by
    intro y lock s hinv hstore hnext
    have hbox : box agent_name ⟨s, lock, y.ghost⟩ = box agent_name y := hstore
    have hkept : ∀ j, Kept agent_name j y ⟨s, lock, y.ghost⟩ := by
      intro j
      refine ⟨rfl, rfl, hnext, fun _ e he => ?_, fun _ e r hr => ?_, fun _ => Or.inr ?_⟩
      · rwa [hbox] at he
      · rwa [hbox]
      · rw [hbox]
        exact ⟨rfl, rfl, rfl⟩
    refine ⟨⟨⟨?_, ?_, ?_, ?_⟩, fun j _ => ⟨hkept j, rfl⟩⟩, hkept i⟩
    · rw [hbox]
      exact hinv.depth
    · rw [hbox]
      exact hinv.replies
    · rw [hbox]
      exact hinv.spare
    · intro e he
      rw [hbox] at he
      exact Nat.lt_of_lt_of_le (hinv.given e he) hnext
  refine Safe.of_each (A := Elsewhere agent_name) ?_ ?_ ?_ hp (Kept.refl agent_name i x)
  · intro l f hf y hinv hy
    obtain ⟨hname, hstore⟩ := hf
    have hghost : (counting agent_name).notes i l y.store (f y.store) y.ghost = y.ghost := by
      cases l with
      | mailbox b a =>
        have hb : b ≠ agent_name := fun h => hname a (h ▸ rfl)
        simp [counting, updates, hb]
      | _ => rfl
    have := hframe y y.lock (f y.store) hinv (hstore y.store).1 (hstore y.store).2
    unfold Monitor.after
    rw [hghost]
    exact ⟨this.1, hy.trans this.2⟩
  · intro y lock hinv hy
    have := hframe y lock y.store hinv rfl (Nat.le_refl _)
    exact ⟨this.1, hy.trans this.2⟩
  · exact fun y z hy hz => hy.trans hz.1

theorem pendingCounts_append {m : MailboxFiles} {event : InboundEventRecord}
    (hfresh : event.inbound_event_id ∉ eventIds m) (hstatus : event.status = .queued) :
    (pendingCounts { m with inbox := m.inbox ++ [event] }).depth =
        (pendingCounts m).depth + (eventCounts event).depth ∧
      (pendingCounts { m with inbox := m.inbox ++ [event] }).replies =
        (pendingCounts m).replies + (eventCounts event).replies := by
  have hpending : pending { m with inbox := m.inbox ++ [event] } = pending m ++ [event] := by
    have := pending_append (m := m) hfresh
    rwa [hstatus, if_neg (by decide)] at this
  unfold pendingCounts replyCount eventCounts
  rw [hpending, List.length_append, List.countP_append, List.countP_singleton]
  simp

theorem fair_arrive {event : InboundEventRecord} (hinv : Accounted agent_name y)
    (hstatus : event.status = .queued) (hnew : event.inbound_event_id ∉ eventIds (box agent_name y))
    (hgiven : event.inbound_event_id < y.store.next_id) (hdue : (y.ghost .arriving).due = ⟨0, 0⟩)
    (hadded : ((appended agent_name .arriving event y).ghost .arriving).due = eventCounts event) :
    (counting agent_name).Fair .arriving y (appended agent_name .arriving event y) := by
  have hmoving : (appended agent_name .arriving event y).ghost .moving = y.ghost .moving :=
    touched_other (by decide)
  have hbox : box agent_name (appended agent_name .arriving event y) =
      { box agent_name y with inbox := (box agent_name y).inbox ++ [event] } := by
    simp [appended]
  have hstored : storedCounts (box agent_name (appended agent_name .arriving event y)) =
      storedCounts (box agent_name y) := by
    rw [hbox]
    rfl
  obtain ⟨hdepth, hreplies⟩ := pendingCounts_append hnew hstatus
  rw [← hbox] at hdepth hreplies
  have hbalance := hinv.depth
  have hbalance' := hinv.replies
  rw [hdue] at hbalance hbalance'
  dsimp only at hbalance hbalance'
  refine fair_of ⟨?_, ?_, ?_, ?_⟩ ⟨?_, ?_, Nat.le_refl _, (fun h => by cases h), ?_, ?_⟩ hmoving
  · rw [hadded, hmoving, hstored, hdepth]
    omega
  · rw [hadded, hmoving, hstored, hreplies]
    omega
  · rw [hadded, hreplies]
    exact Nat.le_add_left _ _
  · intro e he
    rw [hbox] at he
    simp only [eventIds, List.map_append, List.mem_append, List.map_cons, List.map_nil,
      List.mem_singleton] at he
    rcases he with he | rfl
    · exact hinv.given e he
    · exact hgiven
  · exact congrArg Window.base hmoving
  · exact congrArg Window.due hmoving
  · intro _ e r hr
    have hne : event.inbound_event_id ≠ e := by
      intro h
      rw [← h, show latestEvent (box agent_name y) event.inbound_event_id = none from
        (latest?_eq_none_iff _).2 hnew] at hr
      exact absurd hr.symm (Option.some_ne_none _)
    rw [hbox]
    simp only [latestEvent, latest?_append, if_neg hne]
    exact hr
  · intro _
    refine Or.inr ⟨by rw [hstored], ?_, ?_⟩
    · rw [hadded, hdepth, hdue]
      rfl
    · rw [hadded, hreplies, hdue]
      rfl

theorem safe_arrive {event : InboundEventRecord} (hstatus : event.status = .queued)
    (hfresh : event.inbound_event_id ∉ eventIds (box agent_name x))
    (hgiven : event.inbound_event_id < x.store.next_id) (hsettled : Settled .arriving x) :
    Safe (counting agent_name) .arriving
      (onMailbox agent_name (InboundEventStore.append event))
      (fun _ y => (y.ghost .arriving).due = eventCounts event) x := by
  refine safe_access fun y hy _ hinv _ => ?_
  have hnew : event.inbound_event_id ∉ eventIds (box agent_name y) := fun h =>
    hfresh (hy.ids rfl _ h)
  have hadded : ((appended agent_name .arriving event y).ghost .arriving).due =
      eventCounts event := by
    rw [appended, touched_self]
    unfold Window.note
    simp [hstatus]
  refine ⟨fair_arrive hinv hstatus hnew (Nat.lt_of_lt_of_le hgiven hy.next)
    (hsettled.kept hy) hadded, ?_⟩
  exact fun z hz _ => hz.1.due.trans hadded

theorem safe_new_id {k : ℕ → BureauM α} {Q : α → Pair → Prop}
    (h : ∀ id y, id ∉ eventIds (box agent_name y) → id < y.store.next_id →
      Kept agent_name .arriving x y → Safe (counting agent_name) .arriving (k id) Q y) :
    Safe (counting agent_name) .arriving (new_id.bind k) Q x := by
  intro y hy hinv _
  have hkept : ∀ j, Kept agent_name j y
      ⟨{ y.store with next_id := y.store.next_id + 1 }, y.lock, y.ghost⟩ := fun j =>
    ⟨rfl, rfl, Nat.le_succ _, fun _ _ he => he, fun _ _ _ hr => hr, fun _ => Or.inr ⟨rfl, rfl, rfl⟩⟩
  have hgiven : ∀ e ∈ eventIds (box agent_name y), e < y.store.next_id := hinv.given
  refine ⟨fair_of ⟨hinv.depth, hinv.replies, hinv.spare, fun e he => ?_⟩ (hkept _) rfl, ?_⟩
  · exact Nat.lt_succ_of_lt (hgiven e he)
  · refine h y.store.next_id _ (fun he => ?_) (Nat.lt_succ_self _) (hy.1.trans (hkept _))
    exact Nat.lt_irrefl _ (hgiven _ he)

/-- **Queueing an event is safe**: its append and its delta, as `queue_request` and
`queue_reply_delivery` make them. -/
theorem safe_queue_event (event : EventId → InboundEventRecord) (delta : Int)
    (accepted_at : Timestamp) (hid : ∀ e, (event e).inbound_event_id = e)
    (hstatus : ∀ e, (event e).status = .queued)
    (hdelta : ∀ e, ((eventCounts (event e)).replies : Int) = delta)
    (hsettled : Settled .arriving x) :
    Safe (counting agent_name) .arriving
      (new_id.bind fun e =>
        (onMailbox agent_name (InboundEventStore.append (event e))).bind fun _ =>
          (onMailbox agent_name (apply_incremental_summary_update service agent_name 1 delta none
            none none (some accepted_at))).bind fun _ => .ret ())
      (fun _ => Settled .arriving) x := by
  refine safe_new_id fun e y hfresh hgiven hy => ?_
  refine Safe.bind ((safe_arrive (hstatus e) ?_ ?_ (hsettled.kept hy)).mono fun _ z _ hz => ?_)
  · rw [hid]
    exact hfresh
  · rw [hid]
    exact hgiven
  refine Safe.bind ((safe_delta ?_ ?_).mono fun _ u _ hu => ?_)
  · rw [hz]
    rfl
  · rw [hz]
    exact hdelta e
  · exact fun v hv _ => hu.kept hv.1

theorem elsewhere_read {access : BureauAccess} {g : BureauStore → α}
    (h : ∀ a, access ≠ .mailbox agent_name a) :
    (Prog.read access g : BureauM α).Each (Elsewhere agent_name) :=
  ⟨⟨h, fun _ => ⟨rfl, Nat.le_refl _⟩⟩, fun _ => trivial⟩

theorem elsewhere_mailbox {b : AgentName} (hb : b ≠ agent_name) (p : MailboxM α) :
    (onMailbox b p).Each (Elsewhere agent_name) := by
  unfold onMailbox atMailbox
  refine Prog.Each.zoom
    (B := fun l (f : Mailboxes → Mailboxes) => l.1 = b ∧ ∀ boxes, f boxes agent_name = boxes agent_name)
    (fun l f h => ⟨fun a ha => ?_, fun s => ⟨h.2 _, Nat.le_refl _⟩⟩) ?_
  · injection ha with hagent
    exact hb (h.1.symm.trans hagent)
  · refine Prog.Each.zoom (B := fun _ _ => True) (fun l f _ => ⟨rfl, fun boxes => ?_⟩) ?_
    · exact Function.update_of_ne hb.symm _ _
    · exact Prog.each_of_forall (fun _ _ => trivial) p

theorem safe_queue_request (job : JobRecord) (message_id : MessageId) (attempt_id : AttemptId)
    (accepted_at : Timestamp) (hsettled : Settled .arriving x) :
    Safe (counting agent_name) .arriving
      (MessageBureau.queue_request service job message_id attempt_id accepted_at)
      (fun _ => Settled .arriving) x := by
  by_cases hagent : job.agent_name = agent_name
  · subst hagent
    exact safe_queue_event
      (fun e => MessageBureau.request_event e job message_id attempt_id accepted_at) 0
      accepted_at (fun _ => rfl) (fun _ => rfl) (fun _ => rfl) hsettled
  · unfold MessageBureau.queue_request
    refine safe_new_id fun e y _ _ hy => ?_
    refine Safe.bind ((safe_elsewhere (elsewhere_mailbox hagent _)).mono fun _ z _ hz => ?_)
    refine Safe.bind ((safe_elsewhere (elsewhere_mailbox hagent _)).mono fun _ u _ hu => ?_)
    exact fun v hv _ => hsettled.kept (hy.trans (hz.trans (hu.trans hv.1)))

theorem elsewhere_origin (reply_to : Option ReplyTo) :
    (MessageBureau.resolve_origin_message_id reply_to).Each (Elsewhere agent_name) := by
  unfold MessageBureau.resolve_origin_message_id
  cases reply_to with
  | none => trivial
  | some reply_to =>
    cases reply_to with
    | attempt id => exact Prog.Each.bind (elsewhere_read (by simp)) fun _ => trivial
    | job id | message id => exact Prog.Each.bind (elsewhere_read (by simp)) fun _ => trivial

theorem safe_record_submission (request : MessageEnvelope) (jobs : List JobRecord)
    (submission_id : Option SubmissionId) (accepted_at : Timestamp)
    (origin_message_id : Option MessageId) (hsettled : Settled .arriving x) :
    Safe (counting agent_name) .arriving
      (MessageBureau.record_submission service request jobs submission_id accepted_at
        origin_message_id)
      (fun _ => Settled .arriving) x := by
  unfold MessageBureau.record_submission
  split
  · exact fun y hy _ => hsettled.kept hy.1
  · refine safe_new_id fun message_id y _ _ hy => ?_
    have horigin : (MessageBureau.origin_or origin_message_id
        (MessageBureau.resolve_origin_message_id request.reply_to)).Each
        (Elsewhere agent_name) := by
      cases origin_message_id with
      | some origin => trivial
      | none => exact elsewhere_origin request.reply_to
    refine Safe.bind ((safe_elsewhere horigin).mono fun origin z _ hz => ?_)
    refine Safe.bind ((safe_elsewhere ?_).mono fun _ u _ hu => ?_)
    · exact ⟨⟨by simp, fun _ => ⟨rfl, Nat.le_refl _⟩⟩, fun _ => trivial⟩
    have hstart : Settled .arriving u := hsettled.kept (hy.trans (hz.trans hu))
    refine Safe.bind ((Safe.forEach (C := counting agent_name) (K := Settled .arriving)
      (fun v w hv hw => hv.kept hw.1) (fun job _ v hv => ?_) hstart).mono fun _ v _ hv => ?_)
    · refine safe_new_id fun attempt_id w _ _ hw => ?_
      refine Safe.bind ((safe_elsewhere ?_).mono fun _ t _ ht => ?_)
      · exact ⟨⟨by simp, fun _ => ⟨rfl, Nat.le_refl _⟩⟩, fun _ => trivial⟩
      · exact safe_queue_request job message_id attempt_id accepted_at (hv.kept (hw.trans ht))
    · exact fun w hw _ => hv.kept hw.1

theorem safe_arrival (arrival : Arrival) (hsettled : Settled .arriving x) :
    Safe (counting agent_name) .arriving (arrival.program service agent_name)
      (fun _ => Settled .arriving) x := by
  cases arrival with
  | record_submission request jobs submission_id accepted_at origin_message_id =>
    refine Safe.bind ((safe_record_submission request jobs submission_id accepted_at
      origin_message_id hsettled).mono fun _ y _ hy => ?_)
    exact fun z hz _ => hy.kept hz.1
  | queue_reply_delivery message_id attempt_id reply_id finished_at =>
    exact safe_queue_event
      (fun e => MessageBureau.reply_event e agent_name message_id attempt_id reply_id finished_at)
      1 finished_at (fun _ => rfl) (fun _ => rfl) (fun _ => rfl) hsettled

theorem safe_program (move : Move) (hsettled : Settled .moving x) :
    Safe (counting agent_name) .moving (move.program service agent_name)
      (fun _ => Settled .moving) x := by
  cases move with
  | claim e started_at =>
    refine Safe.bind ((safe_claim e started_at hsettled).mono fun _ y _ hy => ?_)
    exact fun z hz _ => hy.kept hz.1
  | mark_terminal e status hterminal finished_at =>
    refine Safe.bind ((safe_mark_terminal e finished_at hterminal hsettled).mono
      fun _ y _ hy => ?_)
    exact fun z hz _ => hy.kept hz.1

def noWindows : Side → Window := fun _ => .start

/-- **No update is lost on a clean schedule.**  If the stored counts are right before the
two threads start, no access of the schedule loses a summary update, and both threads have
returned, the stored counts are right again.
SOURCE: lib/mailbox_kernel/service_runtime/summary.py:126-244 -/
theorem clean_schedule_counts (service : Side → MailboxKernelService) (agent_name : AgentName)
    (arrival : Arrival) (move : Move) (s : BureauStore) (schedule : List Side)
    (hs : CountsRight agent_name s)
    (hclean : (updates agent_name).clean schedule (race service agent_name arrival move s)
      noWindows = true)
    (hreturned : ∀ i, ((race service agent_name arrival move s).run schedule).returned i) :
    CountsRight agent_name ((race service agent_name arrival move s).run schedule).store := by
  have hinv : Accounted agent_name ((race service agent_name arrival move s).shared noWindows) := by
    have hcounts := hs.counts
    refine ⟨?_, ?_, Nat.zero_le _, hs.given⟩
    · exact congrArg Counts.depth hcounts
    · exact congrArg Counts.replies hcounts
  have hsafe : ∀ i, Safe (counting agent_name) i
      ((race service agent_name arrival move s).thread i) (fun _ => Settled i)
      ((race service agent_name arrival move s).shared noWindows) := by
    intro i
    cases i with
    | arriving => exact safe_arrival arrival rfl
    | moving => exact safe_program move rfl
  obtain ⟨hthreads, hend⟩ := safe_run schedule hsafe hinv hclean
  obtain ⟨_, harriving⟩ := safe_returned (hthreads .arriving) hend (hreturned .arriving)
  obtain ⟨_, hmoving⟩ := safe_returned (hthreads .moving) hend (hreturned .moving)
  have hdepth := hend.depth
  have hreplies := hend.replies
  rw [harriving, hmoving] at hdepth hreplies
  refine ⟨?_, hend.given⟩
  exact congrArg₂ Counts.mk hdepth hreplies

/-- A schedule in which the first reply is consumed between the append of the second and
its count.
SOURCE: lib/mailbox_kernel/service_runtime/summary.py:126-244 -/
theorem clean_schedule_counts_twoReplies :
    CountsRight 0 (twoReplies.run (List.replicate 2 .arriving ++ List.replicate 20 .moving ++
      List.replicate 20 .arriving)).store :=
  clean_schedule_counts _ 0 _ _ oneReply _ oneReply_counts (by decide)
    (by intro i; cases i <;> decide)

end ClaudeCodeBridge.Analysis
