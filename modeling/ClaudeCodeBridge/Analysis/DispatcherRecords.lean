import ClaudeCodeBridge.Analysis.DispatcherFootprints

/-!
# What the records of the dispatcher agree on

The logs name one another by id: an attempt its job and its message, a reply its attempt,
a callback edge the jobs, messages and agents at its two ends.  `Coherent` says that these
names mean something: ids are below the counter, the records of one id share what no update
changes, and what a record names is there.

`Change` lists what one access of the dispatcher may do to the stores, with what the
programs make sure of before it.  Every claim about all runs is read off this list: the
ladder is `Coherent.change` (a change keeps coherence), and then, module by module, one
lemma for each invariant that changes keep.
-/

set_option autoImplicit false

namespace ClaudeCodeBridge.Analysis

open Program Model

def HasJob (s : DispatcherStore) (job_id : JobId) (agent_name : AgentName) : Prop :=
  ∃ r ∈ s.jobs, r.job_id = job_id ∧ r.agent_name = agent_name

def KnownJob (s : DispatcherStore) (r : JobRecord) : Prop :=
  ∃ x ∈ s.jobs, x.job_id = r.job_id ∧ x.agent_name = r.agent_name ∧ x.request = r.request

/-- What all records of an attempt share. -/
structure AttemptKey where
  attempt_id : AttemptId
  message_id : MessageId
  agent_name : AgentName
  job_id : JobId
  retry_index : ℕ

def attemptKey (a : AttemptRecord) : AttemptKey :=
  ⟨a.attempt_id, a.message_id, a.agent_name, a.job_id, a.retry_index⟩

def HasAttempt (s : DispatcherStore) (job_id : JobId) (message_id : MessageId)
    (agent_name : AgentName) : Prop :=
  ∃ a ∈ s.bureau.attempts, a.job_id = job_id ∧ a.message_id = message_id ∧ a.agent_name = agent_name

abbrev StandingJob (s : DispatcherStore) (r : JobRecord) : Prop :=
  latest? (fun x => x.job_id) r.job_id s.jobs = some r

abbrev StandingAttempt (s : DispatcherStore) (a : AttemptRecord) : Prop :=
  latest? (fun x => x.job_id) a.job_id s.bureau.attempts = some a

/-- The attempts of the job end only with it. -/
def AttemptsFollow (s : DispatcherStore) (r : JobRecord) : Prop :=
  ∀ a, StandingAttempt s a → a.job_id = r.job_id → a.attempt_state.terminal → r.status.terminal

def FollowsJob (s : DispatcherStore) (a : AttemptRecord) : Prop :=
  ∀ r, StandingJob s r → a.job_id = r.job_id → a.attempt_state.terminal → r.status.terminal

/-- The links of an edge, which no update changes. -/
structure EdgeLinks where
  edge_id : EdgeId
  parent_job_id : JobId
  parent_message_id : MessageId
  parent_agent : AgentName
  child_job_id : JobId
  child_message_id : MessageId
  callback_target_agent : AgentName
  child_agent : AgentName

def edgeLinks (e : CallbackEdgeRecord) : EdgeLinks :=
  ⟨e.edge_id, e.parent_job_id, e.parent_message_id, e.parent_agent, e.child_job_id,
    e.child_message_id, e.callback_target_agent, e.child_agent⟩

def HasReply (s : DispatcherStore) (reply_id : ReplyId) (message_id : MessageId) : Prop :=
  ∃ r ∈ s.bureau.replies, r.reply_id = reply_id ∧ r.message_id = message_id

def HasEvent (s : DispatcherStore) (agent_name : AgentName) (e : EventId) : Prop :=
  ∃ r ∈ (s.bureau.mailboxes agent_name).inbox, r.inbound_event_id = e

/-- The id is given out and nothing bears it yet. -/
structure Unused (s : DispatcherStore) (i : ℕ) : Prop where
  below : i < s.bureau.next_id
  job : ∀ r ∈ s.jobs, r.job_id ≠ i
  attempt : ∀ a ∈ s.bureau.attempts, a.attempt_id ≠ i ∧ a.message_id ≠ i
  message : ∀ m ∈ s.bureau.messages, m.message_id ≠ i
  reply : ∀ r ∈ s.bureau.replies, r.reply_id ≠ i
  event : ∀ agent_name, ∀ r ∈ (s.bureau.mailboxes agent_name).inbox, r.inbound_event_id ≠ i
  edge : ∀ e ∈ s.edges, e.edge_id ≠ i ∧ e.child_message_id ≠ i ∧ e.parent_message_id ≠ i
  named : ∀ r ∈ s.jobs, r.request.route_options.chain_edge_id ≠ some i

structure Coherent (s : DispatcherStore) : Prop where
  job_below : ∀ r ∈ s.jobs, r.job_id < s.bureau.next_id
  job_agent : ∀ r ∈ s.jobs, ∀ x ∈ s.jobs, r.job_id = x.job_id → r.agent_name = x.agent_name
  job_named : ∀ r ∈ s.jobs, ∀ i, r.request.route_options.chain_edge_id = some i →
    i < s.bureau.next_id
  attempt_below : ∀ a ∈ s.bureau.attempts,
    a.attempt_id < s.bureau.next_id ∧ a.message_id < s.bureau.next_id
  attempt_job : ∀ a ∈ s.bureau.attempts, HasJob s a.job_id a.agent_name
  attempt_of_job : ∀ a ∈ s.bureau.attempts, ∀ b ∈ s.bureau.attempts, a.job_id = b.job_id →
    attemptKey a = attemptKey b
  attempt_of_id : ∀ a ∈ s.bureau.attempts, ∀ b ∈ s.bureau.attempts,
    a.attempt_id = b.attempt_id → attemptKey a = attemptKey b
  message_below : ∀ m ∈ s.bureau.messages, m.message_id < s.bureau.next_id
  attempt_index : ∀ a ∈ s.bureau.attempts, ∀ b ∈ s.bureau.attempts,
    a.message_id = b.message_id ∧ a.agent_name = b.agent_name ∧ a.retry_index = b.retry_index →
      a.attempt_id = b.attempt_id
  message_policy : ∀ m ∈ s.bureau.messages, ∀ n ∈ s.bureau.messages,
    m.message_id = n.message_id → m.retry_policy = n.retry_policy
  message_targets : ∀ m ∈ s.bureau.messages, m.target_agents.Nodup
  reply_below : ∀ r ∈ s.bureau.replies, r.reply_id < s.bureau.next_id
  reply_unique : ∀ r ∈ s.bureau.replies, ∀ x ∈ s.bureau.replies, r.reply_id = x.reply_id → r = x
  reply_attempt : ∀ r ∈ s.bureau.replies, ∃ a ∈ s.bureau.attempts,
    a.attempt_id = r.attempt_id ∧ a.message_id = r.message_id
  event_below : ∀ agent_name e, HasEvent s agent_name e → e < s.bureau.next_id
  event_agent : ∀ a b e, HasEvent s a e → HasEvent s b e → a = b
  edge_below : ∀ e ∈ s.edges, e.edge_id < s.bureau.next_id ∧
    e.child_message_id < s.bureau.next_id ∧ e.parent_message_id < s.bureau.next_id
  edge_links : ∀ e ∈ s.edges, ∀ f ∈ s.edges, e.edge_id = f.edge_id → edgeLinks e = edgeLinks f
  edge_child : ∀ e ∈ s.edges, HasAttempt s e.child_job_id e.child_message_id e.child_agent
  edge_parent : ∀ e ∈ s.edges, HasAttempt s e.parent_job_id e.parent_message_id e.parent_agent
  edge_target : ∀ e ∈ s.edges, e.callback_target_agent = e.parent_agent
  edge_of_child : ∀ e ∈ s.edges, ∀ f ∈ s.edges, e.child_message_id = f.child_message_id →
    e.edge_id = f.edge_id
  edge_of_parent : ∀ e ∈ s.edges, ∀ f ∈ s.edges, e.parent_job_id = f.parent_job_id →
    e.edge_id = f.edge_id
  edge_order : ∀ e ∈ s.edges, e.parent_message_id < e.child_message_id
  edge_linked : ∀ e ∈ s.edges, e.continuation_job_id.isSome → e.state.terminal
  edge_reply : ∀ e ∈ s.edges, ∀ r, e.child_reply_id = some r → HasReply s r e.child_message_id
  active : ∀ agent_name job_id, s.state.active_job_for agent_name = some job_id →
    HasJob s job_id agent_name
  /-- The attempt of a job goes on as long as the job does. -/
  attempt_open : ∀ r a, StandingJob s r → StandingAttempt s a → a.job_id = r.job_id →
    a.attempt_state.terminal → r.status.terminal

def NamesTarget (s : DispatcherStore) (agent_name : AgentName) (i : EdgeId) : Prop :=
  ∀ e ∈ s.edges, e.edge_id = i → e.callback_target_agent = agent_name

/-- A job that names an edge, or that an edge names, is the edge's target's, and the attempts of a
child message are all its agent's.  A resubmission may copy the edge's name into the job of
another agent. -/
structure Lineal (s : DispatcherStore) : Prop where
  job : ∀ r ∈ s.jobs, ∀ i, r.request.route_options.chain_edge_id = some i →
    NamesTarget s r.agent_name i
  child : ∀ e ∈ s.edges, ∀ a ∈ s.bureau.attempts, a.message_id = e.child_message_id →
    a.agent_name = e.child_agent
  continuation : ∀ e ∈ s.edges, ∀ j, e.continuation_job_id = some j →
    HasJob s j e.callback_target_agent

theorem coherent_empty (agent_names : List AgentName) :
    Coherent (DispatcherStore.empty agent_names) := by
  have hactive : ∀ (names : List AgentName) (s : DispatcherState), s.active_jobs = Dict.empty →
      (names.foldl DispatcherState.ensure_queue s).active_jobs = Dict.empty := by
    intro names
    induction names with
    | nil => exact fun s hs => hs
    | cons name names ih =>
      intro s hs
      exact ih _ ((DispatcherState.ensure_queue_active_jobs s name).trans hs)
  constructor
  case active =>
    intro agent_name job_id hget
    simp only [DispatcherStore.empty, DispatcherState.init, DispatcherState.active_job_for] at hget
    rw [hactive agent_names _ rfl] at hget
    simp at hget
  case event_below =>
    rintro agent_name e ⟨r, hr, _⟩
    simp [DispatcherStore.empty, BureauStore.empty, Mailboxes.empty, MailboxFiles.empty] at hr
  case event_agent =>
    rintro a b e ⟨r, hr, _⟩
    simp [DispatcherStore.empty, BureauStore.empty, Mailboxes.empty, MailboxFiles.empty] at hr
  all_goals simp [DispatcherStore.empty, BureauStore.empty]

section Facts

variable {s : DispatcherStore} (h : Coherent s)
include h

theorem Coherent.unused {i : ℕ} (hi : i = s.bureau.next_id) :
    Unused { s with bureau := { s.bureau with next_id := s.bureau.next_id + 1 } } i := by
  subst hi
  refine ⟨Nat.lt_succ_self _, ?_, ?_, ?_, ?_, ?_, ?_, ?_⟩
  · exact fun r hr => (h.job_below r hr).ne
  · exact fun a ha => ⟨(h.attempt_below a ha).1.ne, (h.attempt_below a ha).2.ne⟩
  · exact fun m hm => (h.message_below m hm).ne
  · exact fun r hr => (h.reply_below r hr).ne
  · exact fun agent_name r hr => (h.event_below agent_name _ ⟨r, hr, rfl⟩).ne
  · exact fun e he => ⟨(h.edge_below e he).1.ne, (h.edge_below e he).2.1.ne,
      (h.edge_below e he).2.2.ne⟩
  · exact fun r hr hi => absurd (h.job_named r hr _ hi) (Nat.lt_irrefl _)

theorem Coherent.hasJob_agent {j : JobId} {a b : AgentName} (ha : HasJob s j a)
    (hb : HasJob s j b) : a = b := by
  obtain ⟨r, hr, hrj, hra⟩ := ha
  obtain ⟨x, hx, hxj, hxb⟩ := hb
  rw [← hra, ← hxb]
  exact h.job_agent r hr x hx (hrj.trans hxj.symm)

theorem Coherent.hasAttempt_eq {j : JobId} {m n : MessageId} {a b : AgentName}
    (hm : HasAttempt s j m a) (hn : HasAttempt s j n b) : m = n ∧ a = b := by
  obtain ⟨x, hx, hxj, hxm, hxa⟩ := hm
  obtain ⟨y, hy, hyj, hyn, hyb⟩ := hn
  have hkey := h.attempt_of_job x hx y hy (hxj.trans hyj.symm)
  simp only [attemptKey, AttemptKey.mk.injEq] at hkey
  exact ⟨by rw [← hxm, ← hyn, hkey.2.1], by rw [← hxa, ← hyb, hkey.2.2.1]⟩

theorem Coherent.exists_latest {e : CallbackEdgeRecord} (he : e ∈ s.edges) :
    ∃ x ∈ CallbackEdgeStore.latestEdges s.edges, edgeLinks x = edgeLinks e := by
  have hkey : e.edge_id ∈ s.edges.map fun r => r.edge_id := List.mem_map_of_mem he
  rw [← mem_keys_collapse] at hkey
  obtain ⟨x, hx, hxe⟩ := List.mem_map.mp hkey
  exact ⟨x, hx, h.edge_links x (mem_of_mem_collapse hx) e he hxe⟩

end Facts

/-- The order of an edge's states: forward along the chain, or to FAILED from a state
before CONTINUATION_SUBMITTED. -/
def forward : CallbackEdgeState → CallbackEdgeState → Bool
  | .pending, .timed_out => false
  | .pending, _ => true
  | .child_completed, .pending => false
  | .child_completed, .timed_out => false
  | .child_completed, _ => true
  | .continuation_submitted, .continuation_submitted => true
  | .continuation_submitted, .done => true
  | _, _ => false

/-- What an update of the standing record `x` of an edge keeps; where `strict` holds, also
the reply that `x` names. -/
structure Follows (strict : Prop) (x e : CallbackEdgeRecord) : Prop where
  links : edgeLinks e = edgeLinks x
  state : forward x.state e.state
  continuation : x.continuation_job_id.isSome → e.continuation_job_id = x.continuation_job_id
  reply : strict → x.child_reply_id.isSome → e.child_reply_id = x.child_reply_id

/-- What `register_callback_edge` makes sure of before it records an edge. -/
structure NewEdge (config : DispatcherConfig) (s : DispatcherStore) (e : CallbackEdgeRecord) :
    Prop where
  below : e.edge_id < s.bureau.next_id
  fresh : ∀ x ∈ s.edges, x.edge_id ≠ e.edge_id
  unnamed : ∀ r ∈ s.jobs, r.request.route_options.chain_edge_id ≠ some e.edge_id
  state : e.state = .pending
  no_reply : e.child_reply_id = none
  no_continuation : e.continuation_job_id = none
  child : HasAttempt s e.child_job_id e.child_message_id e.child_agent
  child_agent : ∀ a ∈ s.bureau.attempts, a.message_id = e.child_message_id →
    a.agent_name = e.child_agent
  child_fresh : ∀ x ∈ s.edges, x.child_message_id ≠ e.child_message_id ∧
    x.parent_message_id ≠ e.child_message_id
  parent : HasAttempt s e.parent_job_id e.parent_message_id e.parent_agent
  parent_fresh : ∀ x ∈ s.edges, x.parent_job_id ≠ e.parent_job_id
  target : e.callback_target_agent = e.parent_agent
  order : e.parent_message_id < e.child_message_id
  depth : (Callbacks.callback_chain_for_parent s.edges e.parent_message_id).length + 1 ≤
    Callbacks.max_callback_depth config
  acyclic : e.child_agent ∉ e.parent_agent ::
    (Callbacks.callback_chain_for_parent s.edges e.parent_message_id).map (fun x => x.parent_agent)
      ++ (Callbacks.callback_chain_for_parent s.edges e.parent_message_id).map
        fun x => x.child_agent

/-- What a new attempt is made sure of: an id of its own, a job without an attempt, a message
that the agent has an attempt on, or that is no edge's child, and a number above those of the
agent's attempts on it. -/
structure NewAttempt (s : DispatcherStore) (a : AttemptRecord) : Prop where
  below : a.attempt_id < s.bureau.next_id
  fresh : ∀ b ∈ s.bureau.attempts, b.attempt_id ≠ a.attempt_id
  message_below : a.message_id < s.bureau.next_id
  job : HasJob s a.job_id a.agent_name
  unattempted : ∀ b ∈ s.bureau.attempts, b.job_id ≠ a.job_id
  message : Lineal s → (∃ b ∈ s.bureau.attempts, b.message_id = a.message_id ∧
    b.agent_name = a.agent_name) ∨ ∀ e ∈ s.edges, e.child_message_id ≠ a.message_id
  index : ∀ b ∈ s.bureau.attempts, b.message_id = a.message_id → b.agent_name = a.agent_name →
    b.retry_index < a.retry_index
  state : a.attempt_state.terminal = false

/-- What a run keeps to: that a caller is answered once, and that nothing is resubmitted. -/
structure Terms where
  strict : Prop
  lineal : Prop

/-- An update of the standing record `x` of an edge. -/
structure EdgeUpdate (terms : Terms) (s : DispatcherStore) (x e : CallbackEdgeRecord) : Prop where
  standing : latest? (fun r => r.edge_id) e.edge_id s.edges = some x
  follows : Follows terms.strict x e
  linked : e.continuation_job_id.isSome → e.state.terminal
  reply : ∀ r, e.child_reply_id = some r → HasReply s r e.child_message_id
  continuation : Lineal s → ∀ j, e.continuation_job_id = some j → HasJob s j e.callback_target_agent

/-- **What one access of the dispatcher may do to the stores.** -/
inductive Change (config : DispatcherConfig) (terms : Terms) (s : DispatcherStore) :
    DispatcherStore → Prop
  | none : Change config terms s s
  | job_new (r : JobRecord) (hbelow : r.job_id < s.bureau.next_id)
      (hfresh : ∀ x ∈ s.jobs, x.job_id ≠ r.job_id)
      (hnamed : ∀ i, r.request.route_options.chain_edge_id = some i → i < s.bureau.next_id)
      (htarget : terms.lineal → Lineal s → ∀ i,
        r.request.route_options.chain_edge_id = some i → NamesTarget s r.agent_name i) :
      Change config terms s { s with jobs := s.jobs ++ [r] }
  | job_again (r : JobRecord) (hknown : KnownJob s r) (hopen : AttemptsFollow s r) :
      Change config terms s { s with jobs := s.jobs ++ [r] }
  | event (e : JobEvent) (h : requeues e.type = false) :
      Change config terms s { s with events := s.events ++ [e] }
  | requeue (e : JobEvent) (id : EventId) (htype : e.type = .reply_delivery_requeued id)
      (hcount : (s.events.filter fun x => x.agent_name = e.agent_name).countP
        (Completion.isRequeue id) < Completion.max_pre_delivery_transport_requeues)
      (hevent : HasEvent s e.agent_name id) :
      Change config terms s { s with events := s.events ++ [e] }
  | submission (r : SubmissionRecord) :
      Change config terms s { s with submissions := s.submissions ++ [r] }
  | edge_new (e : CallbackEdgeRecord) (h : NewEdge config s e) :
      Change config terms s { s with edges := s.edges ++ [e] }
  | edge_again (e x : CallbackEdgeRecord) (h : EdgeUpdate terms s x e) :
      Change config terms s { s with edges := s.edges ++ [e] }
  | state (f : DispatcherState → DispatcherState)
      (h : ∀ agent_name job_id, (f s.state).active_job_for agent_name = some job_id →
        s.state.active_job_for agent_name = some job_id ∨ HasJob s job_id agent_name) :
      Change config terms s { s with state := f s.state }
  | started (job_id : JobId) : Change config terms s { s with starts := s.starts ++ [job_id] }
  | replied (job_id : JobId) : Change config terms s { s with replied := s.replied ++ [job_id] }
  | new_id :
      Change config terms s { s with bureau := { s.bureau with next_id := s.bureau.next_id + 1 } }
  | message_new (r : MessageRecord) (hbelow : r.message_id < s.bureau.next_id)
      (hfresh : ∀ x ∈ s.bureau.messages, x.message_id ≠ r.message_id)
      (htargets : r.target_agents.Nodup) :
      Change config terms s
        { s with bureau := { s.bureau with messages := s.bureau.messages ++ [r] } }
  | message_again (r x : MessageRecord) (hx : x ∈ s.bureau.messages)
      (hid : r.message_id = x.message_id) (hpolicy : r.retry_policy = x.retry_policy)
      (htargets : r.target_agents = x.target_agents) :
      Change config terms s
        { s with bureau := { s.bureau with messages := s.bureau.messages ++ [r] } }
  | attempt_new (a : AttemptRecord) (h : NewAttempt s a) :
      Change config terms s
        { s with bureau := { s.bureau with attempts := s.bureau.attempts ++ [a] } }
  | attempt_again (a x : AttemptRecord) (hx : x ∈ s.bureau.attempts)
      (hkey : attemptKey a = attemptKey x) (hopen : FollowsJob s a) :
      Change config terms s
        { s with bureau := { s.bureau with attempts := s.bureau.attempts ++ [a] } }
  | reply (r : ReplyRecord) (hbelow : r.reply_id < s.bureau.next_id)
      (hfresh : ∀ x ∈ s.bureau.replies, x.reply_id ≠ r.reply_id)
      (hattempt : ∃ a ∈ s.bureau.attempts, a.attempt_id = r.attempt_id ∧
        a.message_id = r.message_id) :
      Change config terms s
        { s with bureau := { s.bureau with replies := s.bureau.replies ++ [r] } }
  | inbound (agent_name : AgentName) (r : InboundEventRecord) (m : MailboxFiles)
      (hm : m.inbox = (s.bureau.mailboxes agent_name).inbox ++ [r])
      (hbelow : r.inbound_event_id < s.bureau.next_id)
      (hfresh : ∀ b, ¬HasEvent s b r.inbound_event_id) :
      Change config terms s { s with bureau := { s.bureau with
        mailboxes := Function.update s.bureau.mailboxes agent_name m } }
  | mailbox (agent_name : AgentName) (m : MailboxFiles)
      (hkept : (s.bureau.mailboxes agent_name).inbox ⊆ m.inbox)
      (h : ∀ r ∈ m.inbox, HasEvent s agent_name r.inbound_event_id) :
      Change config terms s { s with bureau := { s.bureau with
        mailboxes := Function.update s.bureau.mailboxes agent_name m } }

section Appending

variable {ρ : Type} {l : List ρ} {r : ρ}

theorem forall_append {P : ρ → Prop} (h : ∀ x ∈ l, P x) (hr : P r) : ∀ x ∈ l ++ [r], P x := by
  intro x hx
  rcases List.mem_append.mp hx with hx | hx
  · exact h x hx
  · rw [List.mem_singleton.mp hx]
    exact hr

theorem pairs_append {P : ρ → ρ → Prop} (h : ∀ x ∈ l, ∀ y ∈ l, P x y)
    (hr : ∀ x ∈ l, P x r ∧ P r x) (hrr : P r r) :
    ∀ x ∈ l ++ [r], ∀ y ∈ l ++ [r], P x y := by
  refine forall_append (fun x hx => ?_) ?_
  · exact forall_append (h x hx) (hr x hx).1
  · exact forall_append (fun y hy => (hr y hy).2) hrr

end Appending

section Keeping

variable {config : DispatcherConfig} {terms : Terms} {s : DispatcherStore}

theorem HasJob.append {j : JobId} {a : AgentName} (h : HasJob s j a) (r : JobRecord) :
    HasJob { s with jobs := s.jobs ++ [r] } j a := by
  obtain ⟨x, hx, hj, ha⟩ := h
  exact ⟨x, List.mem_append_left _ hx, hj, ha⟩

theorem HasAttempt.append {j : JobId} {m : MessageId} {n : AgentName} (h : HasAttempt s j m n)
    (a : AttemptRecord) : HasAttempt
      { s with bureau := { s.bureau with attempts := s.bureau.attempts ++ [a] } } j m n := by
  obtain ⟨x, hx, hkeys⟩ := h
  exact ⟨x, List.mem_append_left _ hx, hkeys⟩

theorem HasReply.append {i : ReplyId} {m : MessageId} (h : HasReply s i m) (r : ReplyRecord) :
    HasReply { s with bureau := { s.bureau with replies := s.bureau.replies ++ [r] } } i m := by
  obtain ⟨x, hx, hkeys⟩ := h
  exact ⟨x, List.mem_append_left _ hx, hkeys⟩

theorem hasEvent_update {a b : AgentName} {m : MailboxFiles} {e : EventId} :
    HasEvent { s with bureau := { s.bureau with
        mailboxes := Function.update s.bureau.mailboxes a m } } b e
      ↔ if b = a then ∃ r ∈ m.inbox, r.inbound_event_id = e else HasEvent s b e := by
  by_cases hb : b = a
  · subst hb
    simp [HasEvent]
  · simp [HasEvent, hb]

variable (h : Coherent s)
include h

theorem Coherent.append_job {r : JobRecord} (hbelow : r.job_id < s.bureau.next_id)
    (hnamed : ∀ i, r.request.route_options.chain_edge_id = some i → i < s.bureau.next_id)
    (hagent : ∀ x ∈ s.jobs, x.job_id = r.job_id → x.agent_name = r.agent_name)
    (hopen : AttemptsFollow s r) :
    Coherent { s with jobs := s.jobs ++ [r] } :=
  { h with
    job_below := forall_append h.job_below hbelow
    job_named := forall_append h.job_named hnamed
    job_agent := pairs_append h.job_agent
      (fun x hx => ⟨hagent x hx, fun hid => (hagent x hx hid.symm).symm⟩) fun _ => rfl
    attempt_job := fun a ha => (h.attempt_job a ha).append r
    active := fun a j hj => (h.active a j hj).append r
    attempt_open := by
      intro x a hx ha hid hterminal
      rw [StandingJob, latest?_append] at hx
      split at hx
      · rw [← Option.some.inj hx] at hid ⊢
        exact hopen a ha hid hterminal
      · exact h.attempt_open x a hx ha hid hterminal }

theorem Coherent.append_new_job {r : JobRecord} (hbelow : r.job_id < s.bureau.next_id)
    (hnamed : ∀ i, r.request.route_options.chain_edge_id = some i → i < s.bureau.next_id)
    (hfresh : ∀ x ∈ s.jobs, x.job_id ≠ r.job_id) :
    Coherent { s with jobs := s.jobs ++ [r] } := by
  refine h.append_job hbelow hnamed (fun x hx hid => absurd hid (hfresh x hx)) ?_
  intro a ha hid
  obtain ⟨x, hx, hxj, _⟩ := h.attempt_job a (mem_of_latest? ha).1
  exact absurd (hxj.trans hid) (hfresh x hx)

theorem Coherent.append_known_job {r : JobRecord} (hknown : KnownJob s r)
    (hopen : AttemptsFollow s r) : Coherent { s with jobs := s.jobs ++ [r] } := by
  obtain ⟨x, hx, hid, hagent, hrequest⟩ := hknown
  have hbelow := h.job_below x hx
  rw [hid] at hbelow
  refine h.append_job hbelow (hrequest ▸ h.job_named x hx) (fun y hy hyid => ?_) hopen
  rw [← hagent]
  exact h.job_agent y hy x hx (hyid.trans hid.symm)

/-- An edge with the links of a recorded one says nothing new of the two ends. -/
theorem Coherent.append_known_edge {e x : CallbackEdgeRecord} (hx : x ∈ s.edges)
    (hlinks : edgeLinks e = edgeLinks x) (hlinked : e.continuation_job_id.isSome → e.state.terminal)
    (hreply : ∀ r, e.child_reply_id = some r → HasReply s r e.child_message_id) :
    Coherent { s with edges := s.edges ++ [e] } := by
  have hsame := hlinks
  simp only [edgeLinks, EdgeLinks.mk.injEq] at hsame
  obtain ⟨hid, hpjob, hpmsg, hpagent, hcjob, hcmsg, htarget, hcagent⟩ := hsame
  exact
  { h with
    edge_below := forall_append h.edge_below (by rw [hid, hcmsg, hpmsg]; exact h.edge_below x hx)
    edge_links := pairs_append h.edge_links
      (fun y hy => ⟨fun hy' => hlinks ▸ h.edge_links y hy x hx (hy'.trans hid),
        fun hy' => hlinks ▸ h.edge_links x hx y hy (hid.symm.trans hy')⟩) fun _ => rfl
    edge_child := forall_append h.edge_child (by rw [hcjob, hcmsg, hcagent]; exact h.edge_child x hx)
    edge_parent := forall_append h.edge_parent
      (by rw [hpjob, hpmsg, hpagent]; exact h.edge_parent x hx)
    edge_target := forall_append h.edge_target (by rw [htarget, hpagent]; exact h.edge_target x hx)
    edge_of_child := pairs_append h.edge_of_child
      (fun y hy => ⟨fun hy' => (h.edge_of_child y hy x hx (hy'.trans hcmsg)).trans hid.symm,
        fun hy' => hid.trans (h.edge_of_child x hx y hy (hcmsg.symm.trans hy'))⟩) fun _ => rfl
    edge_of_parent := pairs_append h.edge_of_parent
      (fun y hy => ⟨fun hy' => (h.edge_of_parent y hy x hx (hy'.trans hpjob)).trans hid.symm,
        fun hy' => hid.trans (h.edge_of_parent x hx y hy (hpjob.symm.trans hy'))⟩) fun _ => rfl
    edge_order := forall_append h.edge_order (by rw [hcmsg, hpmsg]; exact h.edge_order x hx)
    edge_linked := forall_append h.edge_linked hlinked
    edge_reply := forall_append h.edge_reply hreply }

theorem Coherent.append_new_edge {e : CallbackEdgeRecord} (hnew : NewEdge config s e) :
    Coherent { s with edges := s.edges ++ [e] } := by
  have hbelow : e.edge_id < s.bureau.next_id ∧ e.child_message_id < s.bureau.next_id ∧
      e.parent_message_id < s.bureau.next_id := by
    obtain ⟨a, ha, _, hmsg, _⟩ := hnew.child
    have hchild := (h.attempt_below a ha).2
    rw [hmsg] at hchild
    exact ⟨hnew.below, hchild, hnew.order.trans hchild⟩
  exact
  { h with
    edge_below := forall_append h.edge_below hbelow
    edge_links := pairs_append h.edge_links
      (fun y hy => ⟨fun hy' => absurd hy' (hnew.fresh y hy),
        fun hy' => absurd hy'.symm (hnew.fresh y hy)⟩) fun _ => rfl
    edge_child := forall_append h.edge_child hnew.child
    edge_parent := forall_append h.edge_parent hnew.parent
    edge_target := forall_append h.edge_target hnew.target
    edge_of_child := pairs_append h.edge_of_child
      (fun y hy => ⟨fun hy' => absurd hy' (hnew.child_fresh y hy).1,
        fun hy' => absurd hy'.symm (hnew.child_fresh y hy).1⟩) fun _ => rfl
    edge_of_parent := pairs_append h.edge_of_parent
      (fun y hy => ⟨fun hy' => absurd hy' (hnew.parent_fresh y hy),
        fun hy' => absurd hy'.symm (hnew.parent_fresh y hy)⟩) fun _ => rfl
    edge_order := forall_append h.edge_order hnew.order
    edge_linked := forall_append h.edge_linked (by simp [hnew.no_continuation])
    edge_reply := forall_append h.edge_reply (by simp [hnew.no_reply]) }

theorem Coherent.set_state {f : DispatcherState → DispatcherState}
    (hf : ∀ agent_name job_id, (f s.state).active_job_for agent_name = some job_id →
      s.state.active_job_for agent_name = some job_id ∨ HasJob s job_id agent_name) :
    Coherent { s with state := f s.state } :=
  { h with
    active := fun a j hj => (hf a j hj).elim (h.active a j) id }

theorem Coherent.give_id :
    Coherent { s with bureau := { s.bureau with next_id := s.bureau.next_id + 1 } } :=
  { h with
    job_below := fun r hr => (h.job_below r hr).trans (Nat.lt_succ_self _)
    job_named := fun r hr i hi => (h.job_named r hr i hi).trans (Nat.lt_succ_self _)
    attempt_below := fun a ha =>
      ⟨(h.attempt_below a ha).1.trans (Nat.lt_succ_self _),
        (h.attempt_below a ha).2.trans (Nat.lt_succ_self _)⟩
    message_below := fun m hm => (h.message_below m hm).trans (Nat.lt_succ_self _)
    reply_below := fun r hr => (h.reply_below r hr).trans (Nat.lt_succ_self _)
    event_below := fun a e he => (h.event_below a e he).trans (Nat.lt_succ_self _)
    edge_below := fun e he =>
      ⟨(h.edge_below e he).1.trans (Nat.lt_succ_self _),
        (h.edge_below e he).2.1.trans (Nat.lt_succ_self _),
        (h.edge_below e he).2.2.trans (Nat.lt_succ_self _)⟩ }

theorem Coherent.append_message {r : MessageRecord} (hbelow : r.message_id < s.bureau.next_id)
    (hpolicy : ∀ x ∈ s.bureau.messages, x.message_id = r.message_id →
      x.retry_policy = r.retry_policy) (htargets : r.target_agents.Nodup) :
    Coherent { s with bureau := { s.bureau with messages := s.bureau.messages ++ [r] } } :=
  { h with
    message_below := forall_append h.message_below hbelow
    message_targets := forall_append h.message_targets htargets
    message_policy := pairs_append h.message_policy
      (fun x hx => ⟨hpolicy x hx, fun hid => (hpolicy x hx hid.symm).symm⟩) fun _ => rfl }

/-- The part of the coherence of attempts that an append of `a` must see to. -/
theorem Coherent.append_attempt {a : AttemptRecord}
    (hbelow : a.attempt_id < s.bureau.next_id ∧ a.message_id < s.bureau.next_id)
    (hjob : HasJob s a.job_id a.agent_name)
    (hofjob : ∀ b ∈ s.bureau.attempts, b.job_id = a.job_id → attemptKey b = attemptKey a)
    (hofid : ∀ b ∈ s.bureau.attempts, b.attempt_id = a.attempt_id → attemptKey b = attemptKey a)
    (hindex : ∀ b ∈ s.bureau.attempts, b.message_id = a.message_id → b.agent_name = a.agent_name →
      b.retry_index = a.retry_index → b.attempt_id = a.attempt_id)
    (hopen : FollowsJob s a) :
    Coherent { s with bureau := { s.bureau with attempts := s.bureau.attempts ++ [a] } } :=
  { h with
    attempt_below := forall_append h.attempt_below hbelow
    attempt_job := forall_append h.attempt_job hjob
    attempt_of_job := pairs_append h.attempt_of_job
      (fun b hb => ⟨hofjob b hb, fun hid => (hofjob b hb hid.symm).symm⟩) fun _ => rfl
    attempt_of_id := pairs_append h.attempt_of_id
      (fun b hb => ⟨hofid b hb, fun hid => (hofid b hb hid.symm).symm⟩) fun _ => rfl
    attempt_index := pairs_append h.attempt_index
      (fun b hb => ⟨fun hkeys => hindex b hb hkeys.1 hkeys.2.1 hkeys.2.2, fun hkeys =>
        (hindex b hb hkeys.1.symm hkeys.2.1.symm hkeys.2.2.symm).symm⟩) fun _ => rfl
    reply_attempt := fun r hr => by
      obtain ⟨b, hb, hkeys⟩ := h.reply_attempt r hr
      exact ⟨b, List.mem_append_left _ hb, hkeys⟩
    edge_child := fun e he => (h.edge_child e he).append a
    edge_parent := fun e he => (h.edge_parent e he).append a
    attempt_open := by
      intro r b hr hb hid hterminal
      rw [StandingAttempt, latest?_append] at hb
      split at hb
      · rw [← Option.some.inj hb] at hid hterminal
        exact hopen r hr hid hterminal
      · exact h.attempt_open r b hr hb hid hterminal }

theorem Coherent.append_new_attempt {a : AttemptRecord} (hnew : NewAttempt s a) :
    Coherent { s with bureau := { s.bureau with attempts := s.bureau.attempts ++ [a] } } := by
  refine h.append_attempt ⟨hnew.below, hnew.message_below⟩ hnew.job
    (fun b hb hid => absurd hid (hnew.unattempted b hb))
    (fun b hb hid => absurd hid (hnew.fresh b hb))
    (fun b hb hmsg hagent hindex => absurd hindex (hnew.index b hb hmsg hagent).ne) ?_
  intro r _ _ hterminal
  rw [hnew.state] at hterminal
  exact absurd hterminal (by simp)

theorem Coherent.append_known_attempt {a x : AttemptRecord} (hx : x ∈ s.bureau.attempts)
    (hkey : attemptKey a = attemptKey x) (hopen : FollowsJob s a) :
    Coherent { s with bureau := { s.bureau with attempts := s.bureau.attempts ++ [a] } } := by
  have hsame := hkey
  simp only [attemptKey, AttemptKey.mk.injEq] at hsame
  obtain ⟨hid, hmsg, hagent, hjob, hindex⟩ := hsame
  refine h.append_attempt ?_ ?_ ?_ ?_ ?_ hopen
  · rw [hid, hmsg]
    exact h.attempt_below x hx
  · rw [hjob, hagent]
    exact h.attempt_job x hx
  · exact fun b hb hb' => (h.attempt_of_job b hb x hx (hb'.trans hjob)).trans hkey.symm
  · exact fun b hb hb' => (h.attempt_of_id b hb x hx (hb'.trans hid)).trans hkey.symm
  · intro b hb hb' hbagent hbindex
    rw [hid]
    exact h.attempt_index b hb x hx
      ⟨hb'.trans hmsg, hbagent.trans hagent, hbindex.trans hindex⟩

theorem Coherent.append_reply {r : ReplyRecord} (hbelow : r.reply_id < s.bureau.next_id)
    (hfresh : ∀ x ∈ s.bureau.replies, x.reply_id ≠ r.reply_id)
    (hattempt : ∃ a ∈ s.bureau.attempts, a.attempt_id = r.attempt_id ∧
      a.message_id = r.message_id) :
    Coherent { s with bureau := { s.bureau with replies := s.bureau.replies ++ [r] } } :=
  { h with
    reply_below := forall_append h.reply_below hbelow
    reply_unique := pairs_append h.reply_unique
      (fun x hx => ⟨fun hid => absurd hid (hfresh x hx),
        fun hid => absurd hid.symm (hfresh x hx)⟩) fun _ => rfl
    reply_attempt := forall_append h.reply_attempt hattempt
    edge_reply := fun e he i hi => (h.edge_reply e he i hi).append r }

/-- A mailbox that gained no event but those of `p`, which no inbox knew. -/
theorem Coherent.set_mailbox {agent_name : AgentName} {m : MailboxFiles} {p : EventId → Prop}
    (hm : ∀ r ∈ m.inbox, HasEvent s agent_name r.inbound_event_id ∨ p r.inbound_event_id)
    (hbelow : ∀ e, p e → e < s.bureau.next_id) (hfresh : ∀ e, p e → ∀ b, ¬HasEvent s b e) :
    Coherent { s with bureau := { s.bureau with
      mailboxes := Function.update s.bureau.mailboxes agent_name m } } := by
  have hevents : ∀ b e, HasEvent { s with bureau := { s.bureau with
      mailboxes := Function.update s.bureau.mailboxes agent_name m } } b e →
      HasEvent s b e ∨ b = agent_name ∧ p e := by
    intro b e he
    rw [hasEvent_update] at he
    by_cases hb : b = agent_name
    · rw [if_pos hb] at he
      obtain ⟨r, hr, rfl⟩ := he
      rcases hm r hr with hold | hnew
      · exact Or.inl (hb ▸ hold)
      · exact Or.inr ⟨hb, hnew⟩
    · rw [if_neg hb] at he
      exact Or.inl he
  exact
  { h with
    event_below := fun b e he => (hevents b e he).elim (h.event_below b e) fun hnew =>
      hbelow e hnew.2
    event_agent := by
      intro a b e ha hb
      rcases hevents a e ha with ha | ⟨ha, hnew⟩ <;> rcases hevents b e hb with hb | ⟨hb, hnew'⟩
      · exact h.event_agent a b e ha hb
      · exact absurd ha (hfresh e hnew' a)
      · exact absurd hb (hfresh e hnew b)
      · exact ha.trans hb.symm }

end Keeping

/-- **A change keeps the records coherent.** -/
theorem Coherent.change {config : DispatcherConfig} {terms : Terms} {s s' : DispatcherStore}
    (h : Coherent s) (hchange : Change config terms s s') : Coherent s' := by
  cases hchange with
  | none => exact h
  | job_new r hbelow hfresh hnamed _ => exact h.append_new_job hbelow hnamed hfresh
  | job_again r hknown hopen => exact h.append_known_job hknown hopen
  | event e _ | requeue e id _ _ _ | submission r | started j | replied j => exact { h with }
  | edge_new e hnew => exact h.append_new_edge hnew
  | edge_again e x hupdate =>
    have hmem := (mem_of_latest? hupdate.standing).1
    exact h.append_known_edge hmem hupdate.follows.links hupdate.linked hupdate.reply
  | state f hf => exact h.set_state hf
  | new_id => exact h.give_id
  | message_new r hbelow hfresh htargets =>
    exact h.append_message hbelow (fun x hx hid => absurd hid (hfresh x hx)) htargets
  | message_again r x hx hid hpolicy htargets =>
    have hbelow := h.message_below x hx
    rw [← hid] at hbelow
    refine h.append_message hbelow (fun y hy hyid => ?_) ?_
    · rw [hpolicy]
      exact h.message_policy y hy x hx (hyid.trans hid)
    · rw [htargets]
      exact h.message_targets x hx
  | attempt_new a hnew => exact h.append_new_attempt hnew
  | attempt_again a x hx hkey hopen => exact h.append_known_attempt hx hkey hopen
  | reply r hbelow hfresh hattempt => exact h.append_reply hbelow hfresh hattempt
  | inbound agent_name r m hm hbelow hfresh =>
    refine h.set_mailbox (p := fun e => e = r.inbound_event_id) ?_ ?_ ?_
    · rw [hm]
      exact forall_append (fun x hx => Or.inl ⟨x, hx, rfl⟩) (Or.inr rfl)
    · exact fun e he => he ▸ hbelow
    · exact fun e he => he ▸ hfresh
  | mailbox agent_name m hkept hm =>
    exact h.set_mailbox (p := fun _ => False) (fun r hr => Or.inl (hm r hr))
      (fun _ he => he.elim) fun _ he => he.elim

section Lines

variable {config : DispatcherConfig} {terms : Terms} {s s' : DispatcherStore}

theorem lineal_empty (agent_names : List AgentName) :
    Lineal (DispatcherStore.empty agent_names) := by
  constructor
  · simp [DispatcherStore.empty]
  · simp [DispatcherStore.empty]
  · simp [DispatcherStore.empty]

theorem Lineal.same (h : Lineal s) (hjobs : s'.jobs = s.jobs) (hedges : s'.edges = s.edges)
    (hattempts : s'.bureau.attempts = s.bureau.attempts) : Lineal s' := by
  constructor
  · intro r hr i hi
    rw [hjobs] at hr
    rw [NamesTarget, hedges]
    exact h.job r hr i hi
  · rw [hedges, hattempts]
    exact h.child
  · intro e he j hj
    rw [hedges] at he
    rw [HasJob, hjobs]
    exact h.continuation e he j hj

theorem Lineal.append_job {r : JobRecord} (h : Lineal s)
    (hr : ∀ i, r.request.route_options.chain_edge_id = some i → NamesTarget s r.agent_name i) :
    Lineal { s with jobs := s.jobs ++ [r] } where
  job := forall_append h.job hr
  child := h.child
  continuation := fun e he j hj => (h.continuation e he j hj).append r

theorem Lineal.append_edge {e : CallbackEdgeRecord} (h : Lineal s)
    (htarget : ∀ r ∈ s.jobs, r.request.route_options.chain_edge_id = some e.edge_id →
      e.callback_target_agent = r.agent_name)
    (hchild : ∀ a ∈ s.bureau.attempts, a.message_id = e.child_message_id →
      a.agent_name = e.child_agent)
    (hcontinuation : ∀ j, e.continuation_job_id = some j → HasJob s j e.callback_target_agent) :
    Lineal { s with edges := s.edges ++ [e] } where
  job := by
    intro r hr i hi
    exact forall_append (h.job r hr i hi) fun hid => htarget r hr (hid ▸ hi)
  child := forall_append h.child hchild
  continuation := forall_append h.continuation hcontinuation

theorem Lineal.append_attempt {a : AttemptRecord} (h : Lineal s)
    (ha : ∀ e ∈ s.edges, a.message_id = e.child_message_id → a.agent_name = e.child_agent) :
    Lineal { s with bureau := { s.bureau with attempts := s.bureau.attempts ++ [a] } } where
  job := h.job
  child := fun e he => forall_append (h.child e he) (ha e he)
  continuation := h.continuation

/-- **Where nothing is resubmitted, a change keeps the lines of the edges.** -/
theorem Lineal.change (hterms : terms.lineal) (h : Lineal s)
    (hchange : Change config terms s s') : Lineal s' := by
  cases hchange with
  | none => exact h
  | job_new r hbelow hfresh hnamed htarget => exact h.append_job (htarget hterms h)
  | job_again r hknown _ =>
    obtain ⟨x, hx, hid, hagent, hrequest⟩ := hknown
    exact h.append_job fun i hi => hagent ▸ h.job x hx i (hrequest ▸ hi)
  | event e _ | requeue e id _ _ _ | submission r => exact h.same rfl rfl rfl
  | edge_new e hnew =>
    refine h.append_edge (fun r hr hi => absurd hi (hnew.unnamed r hr)) hnew.child_agent ?_
    simp [hnew.no_continuation]
  | edge_again e x hupdate =>
    have hmem := (mem_of_latest? hupdate.standing).1
    have hsame := hupdate.follows.links
    simp only [edgeLinks, EdgeLinks.mk.injEq] at hsame
    obtain ⟨hid, _, _, _, _, hcmsg, htarget, hcagent⟩ := hsame
    refine h.append_edge (fun r hr hr' => ?_) (fun a ha ha' => ?_) (hupdate.continuation h)
    · rw [htarget]
      exact h.job r hr _ hr' x hmem hid.symm
    · rw [hcagent]
      exact h.child x hmem a ha (ha'.trans hcmsg)
  | state f hf => exact h.same rfl rfl rfl
  | started j => exact h.same rfl rfl rfl
  | replied j => exact h.same rfl rfl rfl
  | new_id => exact h.same rfl rfl rfl
  | message_new r hbelow hfresh htargets => exact h.same rfl rfl rfl
  | message_again r x hx hid hpolicy htargets => exact h.same rfl rfl rfl
  | attempt_new a hnew =>
    refine h.append_attempt fun e he hmsg => ?_
    rcases hnew.message h with ⟨b, hb, hbmsg, hbagent⟩ | hnone
    · rw [← hbagent]
      exact h.child e he b hb (hbmsg.trans hmsg)
    · exact absurd hmsg.symm (hnone e he)
  | attempt_again a x hx hkey _ =>
    simp only [attemptKey, AttemptKey.mk.injEq] at hkey
    obtain ⟨_, hmsg, hagent, _, _⟩ := hkey
    refine h.append_attempt fun e he he' => ?_
    rw [hagent]
    exact h.child e he x hx (hmsg.symm.trans he')
  | reply r hbelow hfresh hattempt => exact h.same rfl rfl rfl
  | inbound agent_name r m hm hbelow hfresh => exact h.same rfl rfl rfl
  | mailbox agent_name m hkept hm => exact h.same rfl rfl rfl

end Lines

end ClaudeCodeBridge.Analysis
