import ClaudeCodeBridge.Analysis.DispatcherRuns
import ClaudeCodeBridge.Program.Walks

/-!
# Callback edges over whole runs

An edge leads from the message of a child to the message of its parent, which is older; so
the walk of `_callback_chain_for_parent` goes down and ends.  What `register_callback_edge`
checks of the chain above a new edge holds of every chain from then on: a new edge is nobody's
parent yet, and an update keeps an edge's links.
-/

set_option autoImplicit false

namespace ClaudeCodeBridge.Analysis

open Program Model
open Callbacks

variable {config : DispatcherConfig} {terms : Terms} {s s' : DispatcherStore}
  {edges : List CallbackEdgeRecord} {m : MessageId} {chain : List CallbackEdgeRecord}

def edgeOfChild (edges : List CallbackEdgeRecord) (m : MessageId) : Option CallbackEdgeRecord :=
  (CallbackEdgeStore.latestEdges edges).find? fun r => r.child_message_id = m

variable {e : CallbackEdgeRecord}

theorem edgeOfChild_some (h : edgeOfChild edges m = some e) :
    e ∈ edges ∧ e.child_message_id = m := by
  have hfound := List.find?_some h
  exact ⟨mem_of_mem_collapse (List.mem_of_find?_eq_some h), by simpa using hfound⟩

abbrev ChainFrom (edges : List CallbackEdgeRecord) : MessageId → List CallbackEdgeRecord → Prop :=
  Walk (edgeOfChild edges) fun e => e.parent_message_id

theorem callback_chain_eq_walk (fuel : ℕ) (seen : List MessageId) (m : MessageId) :
    callback_chain edges fuel seen m =
      walk (edgeOfChild edges) (fun e => e.parent_message_id) fuel seen m := by
  induction fuel generalizing seen m with
  | zero => rfl
  | succ fuel ih =>
    unfold callback_chain walk edgeOfChild
    split
    · rfl
    · cases (CallbackEdgeStore.latestEdges edges).find? fun r => r.child_message_id = m with
      | none => rfl
      | some e => exact congrArg (e :: ·) (ih (m :: seen) e.parent_message_id)

theorem Coherent.edge_descends (hs : Coherent s) (m : MessageId) (e : CallbackEdgeRecord)
    (h : edgeOfChild s.edges m = some e) : e.parent_message_id < m := by
  obtain ⟨hmem, rfl⟩ := edgeOfChild_some h
  exact hs.edge_order e hmem

theorem Coherent.chain_from (hs : Coherent s) (m : MessageId) :
    ChainFrom s.edges m (callback_chain_for_parent s.edges m) := by
  obtain ⟨chain, hchain⟩ := exists_walk hs.edge_descends m
  have hlength := hchain.length_le hs.edge_descends fun _ _ h => (edgeOfChild_some h).1
  have hwalk := hchain.walk_eq (hchain.nodup hs.edge_descends) (Nat.lt_succ_of_le hlength)
    [] fun _ _ => List.not_mem_nil
  rw [callback_chain_for_parent, callback_chain_eq_walk, hwalk]
  exact hchain

def agentsAlong (chain : List CallbackEdgeRecord) : List AgentName :=
  (chain.map fun e => e.child_agent) ++ (chain.getLast?.map fun e => e.parent_agent).toList

theorem agentsAlong_congr {other : List CallbackEdgeRecord}
    (h : other.map edgeLinks = chain.map edgeLinks) : agentsAlong other = agentsAlong chain := by
  have hchild : ∀ l : List CallbackEdgeRecord, (l.map fun e => e.child_agent) =
      (l.map edgeLinks).map fun e => e.child_agent := by simp [edgeLinks]
  have hparent : ∀ l : List CallbackEdgeRecord, (l.getLast?.map fun e => e.parent_agent) =
      (l.map edgeLinks).getLast?.map fun e => e.parent_agent := by
    simp [edgeLinks, List.getLast?_map, Function.comp_def]
  rw [agentsAlong, agentsAlong, hchild, hchild, hparent, hparent, h]

theorem mem_agentsAlong {agent_name : AgentName} (h : agent_name ∈ agentsAlong chain) :
    agent_name ∈ (chain.map fun e => e.parent_agent) ++ chain.map fun e => e.child_agent := by
  rcases List.mem_append.mp h with h | h
  · exact List.mem_append_right _ h
  · apply List.mem_append_left
    obtain ⟨e, he, rfl⟩ := Option.map_eq_some_iff.mp (Option.mem_toList.mp h)
    exact List.mem_map_of_mem (List.mem_of_getLast? he)

theorem nodup_agentsAlong_cons (h : (agentsAlong chain).Nodup)
    (he : e.child_agent ∉ e.parent_agent ::
      (chain.map fun x => x.parent_agent) ++ chain.map fun x => x.child_agent) :
    (agentsAlong (e :: chain)).Nodup := by
  cases chain with
  | nil =>
    have hne : e.child_agent ≠ e.parent_agent := by simpa using he
    simp [agentsAlong, hne]
  | cons f rest =>
    have hcons : agentsAlong (e :: f :: rest) = e.child_agent :: agentsAlong (f :: rest) := by
      simp [agentsAlong, List.getLast?_cons_cons]
    rw [hcons]
    exact List.nodup_cons.mpr ⟨fun hmem => he (List.mem_cons_of_mem _ (mem_agentsAlong hmem)), h⟩

/-- Every chain is short enough, and its agents are different. -/
def ChainsBounded (config : DispatcherConfig) (edges : List CallbackEdgeRecord) : Prop :=
  ∀ m chain, ChainFrom edges m chain →
    chain.length ≤ max_callback_depth config ∧ (agentsAlong chain).Nodup

theorem edgeOfChild_update {x : CallbackEdgeRecord}
    (hstanding : latest? (fun r => r.edge_id) e.edge_id edges = some x)
    (hlinks : edgeLinks e = edgeLinks x) (m : MessageId) :
    (edgeOfChild edges m).map edgeLinks = (edgeOfChild (edges ++ [e]) m).map edgeLinks := by
  obtain ⟨pre, post, hbefore, hafter⟩ :=
    collapse_append_known (fun r : CallbackEdgeRecord => r.edge_id) hstanding
  have hchild : e.child_message_id = x.child_message_id := by
    simp only [edgeLinks, EdgeLinks.mk.injEq] at hlinks
    exact hlinks.2.2.2.2.2.1
  unfold edgeOfChild CallbackEdgeStore.latestEdges
  rw [hbefore, hafter, List.find?_append, List.find?_append, List.find?_cons, List.find?_cons,
    hchild]
  cases pre.find? fun r => r.child_message_id = m with
  | some y => rfl
  | none =>
    cases hx : decide (x.child_message_id = m) with
    | true => exact congrArg some hlinks.symm
    | false => rfl

theorem ChainsBounded.update {x : CallbackEdgeRecord} (h : ChainsBounded config edges)
    (hstanding : latest? (fun r => r.edge_id) e.edge_id edges = some x)
    (hlinks : edgeLinks e = edgeLinks x) : ChainsBounded config (edges ++ [e]) := by
  intro m chain hchain
  obtain ⟨others, hothers, hmap⟩ := hchain.map edgeLinks
    (fun links => links.parent_message_id) (fun _ => rfl)
    (edgeOfChild_update hstanding hlinks)
  have hlength := congrArg List.length hmap
  rw [List.length_map, List.length_map] at hlength
  rw [← hlength, ← agentsAlong_congr hmap]
  exact h m others hothers

theorem edgeOfChild_new (hfresh : ∀ x ∈ edges, x.edge_id ≠ e.edge_id)
    (m : MessageId) : edgeOfChild (edges ++ [e]) m =
      (edgeOfChild edges m).or (if e.child_message_id = m then some e else none) := by
  have hkey : e.edge_id ∉ edges.map fun r => r.edge_id := by
    simpa using fun x hx => hfresh x hx
  unfold edgeOfChild CallbackEdgeStore.latestEdges
  rw [collapse_append_fresh (fun r : CallbackEdgeRecord => r.edge_id) hkey, List.find?_append,
    List.find?_singleton]
  simp

theorem ChainsBounded.new (h : ChainsBounded config s.edges)
    (hs : Coherent s) (hnew : NewEdge config s e) : ChainsBounded config (s.edges ++ [e]) := by
  -- away from the new child the chains are as before
  have hold : ∀ m, m ≠ e.child_message_id → edgeOfChild s.edges m =
      edgeOfChild (s.edges ++ [e]) m := by
    intro m hm
    rw [edgeOfChild_new hnew.fresh, if_neg hm.symm, Option.or_none]
  have hdown : ∀ m f, m ≠ e.child_message_id → edgeOfChild (s.edges ++ [e]) m = some f →
      f.parent_message_id ≠ e.child_message_id := by
    intro m f hm hf
    rw [← hold m hm] at hf
    exact (hnew.child_fresh f (edgeOfChild_some hf).1).2
  intro m chain hchain
  by_cases hm : m = e.child_message_id
  · subst hm
    have hnone : edgeOfChild s.edges e.child_message_id = none := by
      rw [Option.eq_none_iff_forall_ne_some]
      intro f hf
      obtain ⟨hmem, hchild⟩ := edgeOfChild_some hf
      exact (hnew.child_fresh f hmem).1 hchild
    have hnext : edgeOfChild (s.edges ++ [e]) e.child_message_id = some e := by
      rw [edgeOfChild_new hnew.fresh, hnone, if_pos rfl, Option.none_or]
    cases hchain with
    | stop _ hstop => exact absurd (hnext.symm.trans hstop) (Option.some_ne_none e)
    | go _ f rest hgo hrest =>
      have hf : e = f := Option.some.inj (hnext.symm.trans hgo)
      subst hf
      have hbefore : ChainFrom s.edges e.parent_message_id rest :=
        hrest.congr hdown hold hnew.order.ne
      have hrest : rest = callback_chain_for_parent s.edges e.parent_message_id :=
        hbefore.unique (hs.chain_from e.parent_message_id)
      refine ⟨?_, nodup_agentsAlong_cons (h _ rest hbefore).2 (hrest ▸ hnew.acyclic)⟩
      rw [hrest]
      exact hnew.depth
  · exact h m chain (hchain.congr hdown hold hm)

/-- The chains of a list of edges end, are short, go through different agents, and a job is the
parent of one edge. -/
structure ChainShape (config : DispatcherConfig) (edges : List CallbackEdgeRecord) : Prop where
  ends : ∀ m, ChainFrom edges m (callback_chain_for_parent edges m)
  once : ∀ m, (visited (fun e => e.parent_message_id) m
    (callback_chain_for_parent edges m)).Nodup
  depth : ∀ m, (callback_chain_for_parent edges m).length ≤ max_callback_depth config
  joined : ∀ m, (callback_chain_for_parent edges m).IsChain fun e f =>
    f.child_message_id = e.parent_message_id ∧ f.child_agent = e.parent_agent
  agents : ∀ m, (agentsAlong (callback_chain_for_parent edges m)).Nodup
  parent : ∀ e ∈ edges, ∀ f ∈ edges, e.parent_job_id = f.parent_job_id → e.edge_id = f.edge_id

theorem Lineal.joined (h : Lineal s) (hs : Coherent s) (hchain : ChainFrom s.edges m chain) :
    chain.IsChain fun e f =>
      f.child_message_id = e.parent_message_id ∧ f.child_agent = e.parent_agent := by
  induction hchain with
  | stop m hstop => exact .nil
  | go m e rest hgo hrest ih =>
    cases hrest with
    | stop _ hstop => exact .singleton e
    | go _ f rest hgo' hrest =>
      refine .cons_cons ?_ ih
      obtain ⟨hf, hchild⟩ := edgeOfChild_some hgo'
      obtain ⟨a, ha, _, hmsg, hagent⟩ := hs.edge_parent e (edgeOfChild_some hgo).1
      exact ⟨hchild, by rw [← hagent, h.child f hf a ha (hmsg.trans hchild.symm)]⟩

theorem ChainsBounded.shape (h : ChainsBounded config s.edges) (hs : Coherent s)
    (hlineal : Lineal s) : ChainShape config s.edges where
  ends := hs.chain_from
  once := fun m => (hs.chain_from m).nodup hs.edge_descends
  depth := fun m => (h m _ (hs.chain_from m)).1
  joined := fun m => hlineal.joined hs (hs.chain_from m)
  agents := fun m => (h m _ (hs.chain_from m)).2
  parent := hs.edge_of_parent

theorem ChainsBounded.change (h : ChainsBounded config s.edges) (hs : Coherent s)
    (hchange : Change config terms s s') : ChainsBounded config s'.edges := by
  cases hchange with
  | edge_new e hnew => exact h.new hs hnew
  | edge_again e x hupdate => exact h.update hupdate.standing hupdate.follows.links
  | _ => exact h

theorem chainsBounded_nil : ChainsBounded config [] := by
  intro m chain hchain
  cases hchain with
  | stop _ _ => exact ⟨Nat.zero_le _, List.nodup_nil⟩
  | go _ e rest hgo _ => exact absurd hgo (by simp [edgeOfChild, CallbackEdgeStore.latestEdges])

/-- **In every reached store the callback edges form chains.** -/
theorem callback_edges_form_chains (h : Reached config ⟨False, True⟩ (fun _ _ => True) s) :
    ChainShape config s.edges := by
  have hreached := h.invariant (J := fun x => Lineal x ∧ ChainsBounded config x.edges) ?_ ?_ ?_ ?_
  · exact hreached.2.2.shape hreached.1 hreached.2.1
  · exact fun _ _ _ hstrict => hstrict.elim
  · exact ⟨lineal_empty _, chainsBounded_nil⟩
  · exact fun x x' _ hx hchange hJ => ⟨hJ.1.change trivial hchange, hJ.2.change hx hchange⟩
  · exact fun x _ hJ => ⟨hJ.1.same rfl rfl rfl, hJ.2⟩

/-- The second agent delegates a part of its part to the third. -/
def delegatedAgainStore : DispatcherStore :=
  afterwards delegatedStore 5 (.submit (askAgent 3 (.agent 2) (some .chain)))

theorem callback_edges_form_chains_delegated :
    (callback_chain_for_parent delegatedAgainStore.edges 10).length = 2 ∧
      ChainShape threeAgents delegatedAgainStore.edges :=
  ⟨by decide, callback_edges_form_chains ((delegated_reached _).afterwards 5
    (.submit (askAgent 3 (.agent 2) (some .chain))) trivial)⟩

/-- The records of an edge, in the order they were appended. -/
abbrev edgeHistory (edges : List CallbackEdgeRecord) (i : EdgeId) : List CallbackEdgeRecord :=
  Program.recordsOf (fun r => r.edge_id) i edges

/-- The records of an edge go forward, keep a continuation and, where `strict` holds, a reply. -/
structure ForwardHistory (strict : Prop) (history : List CallbackEdgeRecord) : Prop where
  states : history.IsChain fun x e => forward x.state e.state
  continuation : history.Pairwise fun x e =>
    x.continuation_job_id.isSome → e.continuation_job_id = x.continuation_job_id
  reply : strict → history.Pairwise fun x e =>
    x.child_reply_id.isSome → e.child_reply_id = x.child_reply_id

theorem pairwise_of_kept {field : CallbackEdgeRecord → Option ℕ} {history : List CallbackEdgeRecord}
    (h : history.IsChain fun x e => (field x).isSome → field e = field x) :
    history.Pairwise fun x e => (field x).isSome → field e = field x := by
  have htrans : IsTrans CallbackEdgeRecord fun x e => (field x).isSome → field e = field x :=
    ⟨fun x y z hxy hyz hx => by
      have hy := hxy hx
      rw [← hy] at hx
      exact (hyz hx).trans hy⟩
  exact h.pairwise

theorem forwardHistory_of_follows {strict : Prop} {history : List CallbackEdgeRecord}
    (h : history.IsChain (Follows strict)) : ForwardHistory strict history where
  states := h.imp fun _ _ hfollows => hfollows.state
  continuation := pairwise_of_kept (h.imp fun _ _ hfollows => hfollows.continuation)
  reply := fun hstrict => pairwise_of_kept (h.imp fun _ _ hfollows => hfollows.reply hstrict)

def HistoriesFollow (strict : Prop) (edges : List CallbackEdgeRecord) : Prop :=
  ∀ i, (edgeHistory edges i).IsChain (Follows strict)

theorem HistoriesFollow.change (h : HistoriesFollow terms.strict s.edges)
    (hchange : Change config terms s s') : HistoriesFollow terms.strict s'.edges := by
  cases hchange with
  | edge_new e hnew =>
    refine recordsOf_isChain_append (fun r : CallbackEdgeRecord => r.edge_id) h fun x hx => ?_
    obtain ⟨hmem, hid⟩ := mem_of_latest? hx
    exact absurd hid (hnew.fresh x hmem)
  | edge_again e x hupdate =>
    refine recordsOf_isChain_append (fun r : CallbackEdgeRecord => r.edge_id) h fun y hy => ?_
    rw [hupdate.standing] at hy
    rw [← Option.some.inj hy]
    exact hupdate.follows
  | _ => exact h

theorem Reached.histories {A : DispatcherStore → DispatcherStore → Prop}
    (hA : ∀ s s', A s s' → terms.strict → AnswersOnce s s') (h : Reached config terms A s)
    (i : EdgeId) : ForwardHistory terms.strict (edgeHistory s.edges i) := by
  have hreached := h.invariant (J := fun x => HistoriesFollow terms.strict x.edges) hA ?_ ?_ ?_
  · exact forwardHistory_of_follows (hreached.2 i)
  · exact fun _ => .nil
  · exact fun _ _ _ _ hchange hx => hx.change hchange
  · exact fun _ _ hx => hx

/-- **In every run the records of an edge go forward and keep a continuation; they keep a reply
in a run that answers each caller once.** -/
theorem edge_histories_forward :
    (Reached config ⟨False, False⟩ (fun _ _ => True) s →
      ∀ i, ForwardHistory False (edgeHistory s.edges i)) ∧
    (Reached config ⟨True, False⟩ AnswersOnce s →
      ∀ i, ForwardHistory True (edgeHistory s.edges i)) := by
  constructor
  · intro h
    exact h.histories fun _ _ _ hstrict => False.elim hstrict
  · intro h
    exact h.histories fun _ _ hanswers _ => hanswers

instance instDecidableAnswersOnce (s s' : DispatcherStore) : Decidable (AnswersOnce s s') :=
  decidable_of_iff (∀ job_id ∈ s'.replied.getLast?, s'.replied = s.replied ++ [job_id] →
      ∀ e ∈ CallbackEdgeStore.latestEdges s.edges,
        (∃ a ∈ s.bureau.attempts, a.job_id = job_id ∧ a.message_id = e.child_message_id) →
        e.state.terminal = false → e.child_reply_id = none) (by
    constructor
    · rintro h job_id hreplied e he ⟨_, a, ha, hjob, hmsg, _⟩
      exact h job_id (by simp [hreplied]) hreplied e he ⟨a, ha, hjob, hmsg⟩
    · rintro h job_id _ hreplied e he ⟨a, ha, hjob, hmsg⟩
      exact h job_id hreplied e he ⟨a.agent_name, a, ha, hjob, hmsg, rfl⟩)

def answeredStore : DispatcherStore :=
  let asked := begun (begun (DispatcherStore.empty [1, 2, 3]) 1
    (.submit (askAgent 1 .user none))) 2 .tick
  let delegated := begun (begun asked 3 (.submit (askAgent 2 (.agent 1) (some .chain)))) 4 .tick
  begun delegated 5 (.complete 4 (endedWith .completed))

theorem edge_histories_forward_answered :
    (∀ i, ForwardHistory False (edgeHistory delegatedStore.edges i)) ∧
      ∀ i, ForwardHistory True (edgeHistory answeredStore.edges i) := by
  have hempty : Reached threeAgents ⟨True, False⟩ AnswersOnce (DispatcherStore.empty [1, 2, 3]) :=
    .empty
  have hasked := (hempty.begun 1 (.submit (askAgent 1 .user none)) trivial
    (by decide)).begun 2 .tick trivial (by decide)
  have hdelegated := (hasked.begun 3 (.submit (askAgent 2 (.agent 1) (some .chain))) trivial
    (by decide)).begun 4 .tick trivial (by decide)
  exact ⟨edge_histories_forward.1 (delegated_reached _), edge_histories_forward.2
    (hdelegated.begun 5 (.complete 4 (endedWith .completed)) trivial (by decide))⟩

/-- The daemon stops while the child's job ends, after the edge was marked; the child's job is
retried and answers once more. -/
def answeredAgainStore : DispatcherStore :=
  let marked := Prog.stopAfter 44 (DispatcherOperation.exec threeAgents (calmEnvironment 5) 1
    (.complete 4 (endedWith .failed))) delegatedStore
  let retried := afterwards (restarted threeAgents marked) 6 (.retry (.job 4))
  afterwards (afterwards retried 7 .tick_jobs) 8 (.complete 11 (endedWith .completed))

theorem answeredAgain_reached :
    Reached threeAgents ⟨False, False⟩ (fun _ _ => True) answeredAgainStore := by
  have hmarked := Reached.operation delegatedStore
    (delegated_reached ⟨False, False⟩) (calmEnvironment 5) (calm_lists 5) 1
    (.complete 4 (endedWith .failed)) trivial 44 fun _ _ => trivial
  have hretried := hmarked.restart.afterwards 6 (.retry (.job 4)) trivial
  exact (hretried.afterwards 7 .tick_jobs trivial).afterwards 8
    (.complete 11 (endedWith .completed)) trivial

/-- The second answer of a child takes the place of the first. -/
theorem answer_replaced : ¬∀ s, Reached threeAgents ⟨False, False⟩ (fun _ _ => True) s →
    ∀ i, ForwardHistory True (edgeHistory s.edges i) := by
  intro h
  have hkept := (h answeredAgainStore answeredAgain_reached 8).reply trivial
  exact absurd hkept (by decide)

end ClaudeCodeBridge.Analysis
