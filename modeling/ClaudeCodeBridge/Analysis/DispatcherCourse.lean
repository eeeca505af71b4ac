import ClaudeCodeBridge.Program.Course
import ClaudeCodeBridge.Analysis.DispatcherRecords

/-!
# Accesses that are changes

`Guarded p Q s` says that, from a coherent store `s` on, every access of `p` is one of
`Change`, and that `p` returns in `Q`.  A function has one such lemma, and its callers use
nothing else of it.  This file has the rules and the functions of the message bureau; the
functions of the dispatcher follow in `DispatcherGuards`.

The only thing asked of the accesses is `AnswersOnce`, and only where `terms.strict` holds.
-/

set_option autoImplicit false

namespace ClaudeCodeBridge.Analysis

open Program Model

variable {α β : Type}

section Kernel

/-- The inbox keeps its records, and no event is in it that was not there before. -/
structure Recalls (m m' : MailboxFiles) : Prop where
  kept : m.inbox ⊆ m'.inbox
  known : ∀ r ∈ m'.inbox, ∃ x ∈ m.inbox, x.inbound_event_id = r.inbound_event_id

variable {m : MailboxFiles}

theorem recalls_of_inbox {m' : MailboxFiles} (h : m'.inbox = m.inbox) : Recalls m m' := by
  constructor
  · rw [h]
    exact fun _ hr => hr
  · intro r hr
    rw [h] at hr
    exact ⟨r, hr, rfl⟩

/-- The accesses of `p` leave the inbox alone. -/
def Silent (p : MailboxM α) : Prop :=
  p.Each fun _ f => ∀ m, (f m).inbox = m.inbox

@[grind ←] theorem silent_pure (a : α) : Silent (pure a : MailboxM α) := trivial

@[grind ←] theorem silent_bind {p : MailboxM α} {f : α → MailboxM β} (hp : Silent p)
    (hf : ∀ a, Silent (f a)) : Silent (p >>= f) := Prog.Each.bind hp hf

@[grind ←] theorem silent_read (l : MailboxAccess) (g : MailboxFiles → α) :
    Silent (Prog.read l g) := ⟨fun _ => rfl, fun _ => trivial⟩

@[grind ←] theorem silent_load (l : MailboxAccess) : Silent (MailboxStore.load l) :=
  silent_read _ _

@[grind ←] theorem silent_save (r : MailboxRecord) : Silent (MailboxStore.save r) :=
  ⟨fun _ => rfl, fun _ => trivial⟩

@[grind ←] theorem silent_load_lease : Silent DeliveryLeaseStore.load := silent_read _ _

@[grind ←] theorem silent_save_lease (r : DeliveryLease) : Silent (DeliveryLeaseStore.save r) :=
  ⟨fun _ => rfl, fun _ => trivial⟩

@[grind ←] theorem silent_remove_lease : Silent DeliveryLeaseStore.remove :=
  ⟨fun _ => rfl, fun _ => trivial⟩

@[grind ←] theorem silent_list_inbox : Silent InboundEventStore.list_agent := silent_read _ _

@[grind ←] theorem silent_get_latest (e : EventId) : Silent (InboundEventStore.get_latest e) :=
  silent_read _ _

@[grind ←] theorem silent_get_latest_for_attempt (a : AttemptId) :
    Silent (InboundEventStore.get_latest_for_attempt a) := silent_read _ _

open MailboxKernel

variable (service : MailboxKernelService) (agent_name : AgentName)

@[grind ←] theorem silent_pending_events : Silent pending_events := by
  unfold pending_events latest_events
  grind

@[grind ←] theorem silent_head_pending_event : Silent head_pending_event := by
  unfold head_pending_event
  grind

@[grind ←] theorem silent_save_summary_record (r : MailboxRecord) (v : Option ℕ) :
    Silent (save_summary_record r v) := by
  unfold save_summary_record MailboxStore.compare_and_save
  grind

@[grind ←] theorem silent_build (prior : Option MailboxRecord) (lease : Option DeliveryLease)
    (fields : SummaryFields) (head : Option SummaryHead) :
    Silent (build_mailbox_summary_record agent_name prior lease fields head) := by
  unfold build_mailbox_summary_record resolve_summary_head
  grind

@[grind ←] theorem silent_incremental (queue_delta reply_delta : Int)
    (active : Option (Option EventId)) (started finished updated : Option Timestamp) :
    Silent (apply_incremental_summary_update service agent_name queue_delta reply_delta active
      started finished updated) := by
  unfold apply_incremental_summary_update
  grind

@[grind ←] theorem silent_transition (fields : SummaryFields) (head : Option SummaryHead) :
    Silent (apply_transition_summary_update agent_name fields head) := by
  unfold apply_transition_summary_update
  grind

@[grind ←] theorem silent_rebuild (updated : Option Timestamp) :
    Silent (rebuild_mailbox_summary service agent_name updated) := by
  unfold rebuild_mailbox_summary project_mailbox_summary latest_activity latest_events
  refine silent_bind (silent_load _) fun prior => silent_bind ?_ fun _ => by grind
  refine silent_bind (silent_pure prior) fun _ => ?_
  grind

@[grind ←] theorem silent_refresh (t : Timestamp) (v : α) :
    Silent (refresh_and_return service agent_name t v) := by
  unfold refresh_and_return
  grind

@[grind ←] theorem silent_delivery_lease (e : EventId) (t : Timestamp) :
    Silent (delivery_lease service agent_name e t) := by
  unfold delivery_lease next_lease_version
  grind

@[grind ←] theorem silent_release (e : EventId) : Silent (release_matching_lease e) := by
  unfold release_matching_lease
  grind

@[grind ←] theorem silent_head_after (p : MailboxRecord) (e : EventId) (depth : ℕ) :
    Silent (head_after_terminal p e depth) := by
  unfold head_after_terminal
  grind

/-- A kernel call appends events that its inbox knows. -/
def Recalling (p : MailboxM α) : Prop :=
  ∀ m, Prog.Course (fun _ _ => True) Recalls p (fun _ _ => True) m

theorem recalling_silent {p : MailboxM α} (hp : Silent p) : Recalling p :=
  fun _ => Prog.Course.of_each (fun _ _ h m => recalls_of_inbox (h m)) hp

theorem recalling_bind {p : MailboxM α} {f : α → MailboxM β} (hp : Silent p)
    (hf : ∀ a, Recalling (f a)) : Recalling (p >>= f) :=
  fun m => Prog.Course.bind ((recalling_silent hp m).mono fun a m' _ => hf a m')

theorem recalls_append {updated : InboundEventRecord} {p : Unit → MailboxM α}
    (hknown : ∃ x ∈ m.inbox, x.inbound_event_id = updated.inbound_event_id)
    (hp : ∀ u, Silent (p u)) :
    Prog.Course (fun _ _ => True) Recalls (InboundEventStore.append updated >>= p)
      (fun _ _ => True) m := by
  refine Prog.Course.bind (Prog.course_write fun _ => ⟨⟨?_, ?_⟩, recalling_silent (hp ()) _⟩)
  · exact List.subset_append_left _ _
  · exact forall_append (fun r hr => ⟨r, hr, rfl⟩) hknown

theorem known_of_latest {e : EventId} {current : InboundEventRecord}
    (h : latest? (fun r => r.inbound_event_id) e m.inbox = some current) :
    ∃ x ∈ m.inbox, x.inbound_event_id = current.inbound_event_id := by
  rw [latest?] at h
  exact ⟨current, List.mem_reverse.mp (List.mem_of_find?_eq_some h), rfl⟩

theorem recalling_mark_terminal (e : EventId) (status : InboundEventStatus)
    (finished_at : Option Timestamp) :
    Recalling (mark_terminal service agent_name e status finished_at) := by
  intro m
  refine Prog.Course.bind (Prog.course_read (recalls_of_inbox rfl) ?_)
  cases hlatest : latest? (fun r : InboundEventRecord => r.inbound_event_id) e m.inbox with
  | none => exact recalling_silent (silent_refresh service agent_name _ _) m
  | some current =>
    dsimp only
    split
    · exact recalling_silent (silent_refresh service agent_name _ _) m
    · have hknown := known_of_latest hlatest
      refine recalls_append hknown fun _ => ?_
      refine silent_bind (silent_release _) fun _ => silent_bind (silent_load _) fun prior => ?_
      cases prior with
      | none => exact silent_refresh service agent_name _ _
      | some p => grind

theorem recalling_rewrite_head (e : EventId) (payload_ref : Option PayloadRef)
    (status : InboundEventStatus) (updated_at : Option Timestamp) (clear : Bool) :
    Recalling (rewrite_head service agent_name e payload_ref status updated_at clear) := by
  intro m
  refine Prog.Course.bind (Prog.course_read (recalls_of_inbox rfl) ?_)
  cases hlatest : latest? (fun r : InboundEventRecord => r.inbound_event_id) e m.inbox with
  | none => exact recalling_silent (silent_refresh service agent_name _ _) m
  | some current =>
    dsimp only
    split
    · exact recalling_silent (silent_refresh service agent_name _ _) m
    · have hknown := known_of_latest hlatest
      refine recalls_append hknown fun _ => ?_
      grind

theorem recalling_expire_lease (finished_at : Option Timestamp) :
    Recalling (expire_lease service agent_name finished_at) := by
  refine recalling_bind silent_load_lease fun lease => ?_
  cases lease with
  | none => exact recalling_silent (silent_pure _)
  | some lease =>
    dsimp only
    split
    · exact recalling_silent (silent_pure _)
    · refine recalling_bind (silent_get_latest _) fun current => ?_
      split
      · exact recalling_silent (silent_bind silent_remove_lease fun _ =>
          silent_refresh service agent_name _ _)
      · exact recalling_bind (silent_save_lease _) fun _ =>
          recalling_mark_terminal service agent_name _ _ _

theorem recalling_claim (e : EventId) (started_at : Option Timestamp) :
    Recalling (claim service agent_name e started_at) := by
  intro m
  refine Prog.Course.bind (Prog.Course.bind (Prog.course_read (recalls_of_inbox rfl) ?_))
  refine Prog.course_pure ?_
  cases hlatest : (latest? (fun r : InboundEventRecord => r.inbound_event_id) e m.inbox).filter
      fun current => !current.status.terminal with
  | none => exact recalling_silent (silent_refresh service agent_name _ _) m
  | some current =>
    have hknown := known_of_latest (Option.filter_eq_some_iff.mp hlatest).1
    refine Prog.Course.bind (Prog.Course.bind (Prog.course_read (recalls_of_inbox rfl) ?_))
    refine Prog.course_pure ?_
    split
    · exact recalling_silent (silent_refresh service agent_name _ _) m
    · split
      · exact recalling_silent (silent_refresh service agent_name _ _) m
      · have hlooked : Prog.Course (fun _ _ => True) Recalls (is_claimable_head current)
            (fun _ m' => m' = m) m := by
          unfold is_claimable_head
          split
          · exact Prog.course_pure rfl
          · exact Prog.Course.bind (fun _ => ⟨recalls_of_inbox rfl, rfl⟩)
        refine Prog.Course.bind (hlooked.mono fun claimable m' hm' => ?_)
        subst hm'
        split
        · have hknown' : ∃ x ∈ m'.inbox, x.inbound_event_id =
              (delivery_record current (started_at.getD service.clock)).inbound_event_id := hknown
          unfold claim_current
          refine Prog.Course.bind ((recalls_append hknown' fun _ => ?_).mono
            fun _ _ _ => Prog.course_pure trivial)
          grind
        · exact recalling_silent (silent_refresh service agent_name _ _) _

end Kernel

/-- No reply is recorded for a job whose callback edge is open and names a reply already. -/
def AnswersOnce (s s' : DispatcherStore) : Prop :=
  ∀ job_id, s'.replied = s.replied ++ [job_id] →
    ∀ e ∈ CallbackEdgeStore.latestEdges s.edges,
      (∃ agent_name, HasAttempt s job_id e.child_message_id agent_name) →
      e.state.terminal = false → e.child_reply_id = none

/-- The records of `s` are still there. -/
structure Extends (s s' : DispatcherStore) : Prop where
  jobs : s.jobs ⊆ s'.jobs
  attempts : s.bureau.attempts ⊆ s'.bureau.attempts
  messages : s.bureau.messages ⊆ s'.bureau.messages
  replies : s.bureau.replies ⊆ s'.bureau.replies
  edges : s.edges ⊆ s'.edges
  next_id : s.bureau.next_id ≤ s'.bureau.next_id
  inboxes : ∀ agent_name,
    (s.bureau.mailboxes agent_name).inbox ⊆ (s'.bureau.mailboxes agent_name).inbox

theorem Extends.refl (s : DispatcherStore) : Extends s s :=
  ⟨fun _ => id, fun _ => id, fun _ => id, fun _ => id, fun _ => id, Nat.le_refl _, fun _ _ => id⟩

theorem Extends.trans {s t u : DispatcherStore} (h : Extends s t) (h' : Extends t u) :
    Extends s u :=
  ⟨fun _ hx => h'.jobs (h.jobs hx), fun _ hx => h'.attempts (h.attempts hx),
    fun _ hx => h'.messages (h.messages hx), fun _ hx => h'.replies (h.replies hx),
    fun _ hx => h'.edges (h.edges hx), Nat.le_trans h.next_id h'.next_id,
    fun a _ hx => h'.inboxes a (h.inboxes a hx)⟩

variable {s' : DispatcherStore} {a : AgentName}

theorem HasJob.extends {s : DispatcherStore} {j : JobId} (h : HasJob s j a)
    (hext : Extends s s') : HasJob s' j a := by
  obtain ⟨r, hr, hkeys⟩ := h
  exact ⟨r, hext.jobs hr, hkeys⟩

theorem HasAttempt.extends {s : DispatcherStore} {j : JobId} {m : MessageId}
    (h : HasAttempt s j m a) (hext : Extends s s') : HasAttempt s' j m a := by
  obtain ⟨r, hr, hkeys⟩ := h
  exact ⟨r, hext.attempts hr, hkeys⟩

theorem HasReply.extends {s : DispatcherStore} {i : ReplyId} {m : MessageId}
    (h : HasReply s i m) (hext : Extends s s') : HasReply s' i m := by
  obtain ⟨r, hr, hkeys⟩ := h
  exact ⟨r, hext.replies hr, hkeys⟩

theorem HasEvent.extends {s : DispatcherStore} {e : EventId}
    (h : HasEvent s a e) (hext : Extends s s') : HasEvent s' a e := by
  obtain ⟨r, hr, hid⟩ := h
  exact ⟨r, hext.inboxes a hr, hid⟩

section Rules

variable {config : DispatcherConfig} {terms : Terms} {s : DispatcherStore}

theorem inboxes_update {boxes : Mailboxes} {a : AgentName} {m : MailboxFiles}
    (h : (boxes a).inbox ⊆ m.inbox) (b : AgentName) :
    (boxes b).inbox ⊆ (Function.update boxes a m b).inbox := by
  by_cases hb : b = a
  · subst hb
    rw [Function.update_self]
    exact h
  · rw [Function.update_of_ne hb]
    exact List.Subset.refl _

theorem Change.extends {s' : DispatcherStore} (h : Change config terms s s') : Extends s s' := by
  have hsame := Extends.refl s
  cases h with
  | job_new r _ _ _ _ => exact { hsame with jobs := List.subset_append_left _ _ }
  | job_again r _ _ => exact { hsame with jobs := List.subset_append_left _ _ }
  | edge_new e _ | edge_again e x _ => exact { hsame with edges := List.subset_append_left _ _ }
  | new_id => exact { hsame with next_id := Nat.le_succ _ }
  | message_new r _ _ _ => exact { hsame with messages := List.subset_append_left _ _ }
  | message_again r x _ _ _ _ => exact { hsame with messages := List.subset_append_left _ _ }
  | attempt_new a _ => exact { hsame with attempts := List.subset_append_left _ _ }
  | attempt_again a x _ _ _ => exact { hsame with attempts := List.subset_append_left _ _ }
  | reply r _ _ _ => exact { hsame with replies := List.subset_append_left _ _ }
  | inbound a r m hm _ _ =>
    exact { hsame with inboxes := inboxes_update (hm ▸ List.subset_append_left _ _) }
  | mailbox a m hkept _ => exact { hsame with inboxes := inboxes_update hkept }
  | _ => exact { hsame with }

/-- From a coherent store, every access of `p` is a change, and `p` returns in `Q`. -/
def Guarded (config : DispatcherConfig) (terms : Terms) (p : DispatcherM α)
    (Q : α → DispatcherStore → Prop) (s : DispatcherStore) : Prop :=
  Coherent s → Prog.Course (fun s s' => terms.strict → AnswersOnce s s') (Change config terms) p
    (fun a s' => Coherent s' ∧ Extends s s' ∧ Q a s') s

variable {p : DispatcherM α} {Q : α → DispatcherStore → Prop}

theorem Guarded.mono {R : α → DispatcherStore → Prop} (h : Guarded config terms p Q s)
    (hQR : ∀ a s', Coherent s' → Extends s s' → Q a s' → R a s') :
    Guarded config terms p R s :=
  fun hs => (h hs).mono fun a s' hQ => ⟨hQ.1, hQ.2.1, hQR a s' hQ.1 hQ.2.1 hQ.2.2⟩

theorem guarded_of_coherent
    (h : Coherent s → Guarded config terms p Q s) : Guarded config terms p Q s :=
  fun hs => h hs hs

theorem guarded_bind {p : DispatcherM β} {f : β → DispatcherM α} {R : β → DispatcherStore → Prop}
    (hp : Guarded config terms p R s)
    (hf : ∀ a s', Coherent s' → Extends s s' → R a s' → Guarded config terms (f a) Q s') :
    Guarded config terms (p >>= f) Q s := by
  intro hs
  refine Prog.Course.bind ((hp hs).mono fun a s' hR => ?_)
  refine (hf a s' hR.1 hR.2.1 hR.2.2 hR.1).mono fun b s'' hQ => ?_
  exact ⟨hQ.1, hR.2.1.trans hQ.2.1, hQ.2.2⟩

theorem guarded_then {p : DispatcherM β} {f : β → DispatcherM α} {R : β → DispatcherStore → Prop}
    (hp : Guarded config terms p R s) (hf : ∀ a s', Guarded config terms (f a) Q s') :
    Guarded config terms (p >>= f) Q s :=
  guarded_bind hp fun a s' _ _ _ => hf a s'

theorem guarded_pure {a : α} (h : Q a s) :
    Guarded config terms (pure a) Q s := fun hs => ⟨hs, Extends.refl s, h⟩

theorem guarded_last {p : DispatcherM β} {f : β → α} {R : β → DispatcherStore → Prop}
    (hp : Guarded config terms p R s) :
    Guarded config terms (p >>= fun b => pure (f b)) (fun _ _ => True) s :=
  guarded_then hp fun _ _ => guarded_pure trivial

theorem guarded_raise {e : Failure} : Guarded config terms (Prog.raise e) Q s := fun _ => trivial

variable {l : DispatcherAccess}

theorem guarded_write {f : DispatcherStore → DispatcherStore} {Q : Unit → DispatcherStore → Prop}
    (h : Coherent s → (terms.strict → AnswersOnce s (f s)) → Change config terms s (f s) ∧ Q () (f s)) :
    Guarded config terms (Prog.write l f) Q s := by
  intro hs
  refine Prog.course_write fun ha => ?_
  obtain ⟨hchange, hQ⟩ := h hs ha
  exact ⟨hchange, hs.change hchange, hchange.extends, hQ⟩

theorem guarded_read_bind {g : DispatcherStore → β} {f : β → DispatcherM α}
    (h : Guarded config terms (f (g s)) Q s) :
    Guarded config terms (Prog.read l g >>= f) Q s :=
  fun hs => Prog.Course.bind (Prog.course_read .none (h hs))

theorem guarded_withLock
    (h : Guarded config terms p Q s) : Guarded config terms (Prog.withLock p) Q s :=
  fun hs => (h hs).withLock

variable {J : DispatcherStore → Prop}

theorem guarded_forEach {xs : List β} {body : β → DispatcherM Unit}
    (hs : J s) (h : ∀ x ∈ xs, ∀ s, J s → Guarded config terms (body x) (fun _ => J) s) :
    Guarded config terms (Prog.forEach xs body) (fun _ => J) s := by
  induction xs generalizing s with
  | nil => exact guarded_pure hs
  | cons x xs ih =>
    refine guarded_bind (h x List.mem_cons_self s hs) fun _ s' _ _ hs' => ?_
    exact ih hs' fun y hy => h y (List.mem_cons_of_mem x hy)

variable {K : Kind → Prop}

theorem Guarded.leaves (h : Guarded config terms p Q s) (hp : Touches K p)
    (hJ : ∀ kind, K kind → ∀ l f, Touch kind l f → ∀ s, J s → J (f s)) (hs : J s) :
    Guarded config terms p (fun a s' => Q a s' ∧ J s') s := by
  intro hcoherent
  refine (Prog.Course.leaves ?_ hp hs (h hcoherent)).mono fun a s' hQ => ?_
  · rintro l f (rfl | ⟨kind, hkind, htouch⟩) x hx
    · exact hx
    · exact hJ kind hkind l f htouch x hx
  · exact ⟨hQ.1.1, hQ.1.2.1, hQ.1.2.2, hQ.2⟩

/-- A failure is handled in a coherent store, and what the kinds of accesses of `p` leave
alone is still so there. -/
theorem guarded_tryCatch {h : Failure → DispatcherM α} (hp : Touches K p)
    (hJ : ∀ kind, K kind → ∀ l f, Touch kind l f → ∀ s, J s → J (f s)) (hs : J s)
    (hguarded : Guarded config terms p Q s)
    (hh : ∀ e s', Extends s s' → J s' → Guarded config terms (h e) Q s') :
    Guarded config terms (p.tryCatch h) Q s := by
  intro hcoherent
  have hkeep : ∀ x x', (terms.strict → AnswersOnce x x') → Change config terms x x' →
      (Coherent x ∧ Extends s x) → Coherent x' ∧ Extends s x' := by
    intro x x' _ hchange hx
    exact ⟨hx.1.change hchange, hx.2.trans hchange.extends⟩
  refine Prog.Course.tryCatch hkeep ⟨hcoherent, Extends.refl s⟩ ?_ hp hs (hguarded hcoherent) ?_
  · rintro l f (rfl | ⟨kind, hkind, htouch⟩) x hx
    · exact hx
    · exact hJ kind hkind l f htouch x hx
  · intro e s' hs' hJ'
    refine (hh e s' hs'.2 hJ' hs'.1).mono fun a s'' hQ => ?_
    exact ⟨hQ.1, hs'.2.trans hQ.2.1, hQ.2.2⟩

theorem guarded_handle {h : Failure → DispatcherM α} (hp : Guarded config terms p Q s)
    (hh : ∀ e s', Extends s s' → Guarded config terms (h e) Q s') :
    Guarded config terms (p.tryCatch h) Q s := by
  intro hcoherent
  refine Prog.Course.tryCatch (J := fun x => Coherent x ∧ Extends s x) (L := fun _ => True)
    (B := fun _ _ => True) ?_ ⟨hcoherent, Extends.refl s⟩ (fun _ _ _ _ _ => trivial)
    (Prog.each_of_forall (fun _ _ => trivial) p) trivial (hp hcoherent) ?_
  · intro x x' _ hchange hx
    exact ⟨hx.1.change hchange, hx.2.trans hchange.extends⟩
  · intro e s' hs' _
    refine (hh e s' hs'.2 hs'.1).mono fun a s'' hQ => ?_
    exact ⟨hQ.1, hs'.2.trans hQ.2.1, hQ.2.2⟩

/-! ### Accesses that are changes wherever they happen -/

/-- The kinds of accesses that need no guard. -/
def Free : Kind → Prop
  | .event | .submission | .remember | .start | .replied | .bureau .new_id => True
  | .job | .requeue | .edge | .state | .bureau .message | .bureau .attempt | .bureau .reply
  | .bureau .mailbox => False

theorem change_of_free {kind : Kind} (hkind : Free kind)
    {f : DispatcherStore → DispatcherStore} (h : Touch kind l f) (s : DispatcherStore) :
    Change config terms s (f s) := by
  cases h with
  | event r hr => exact .event r hr
  | submission r => exact .submission r
  | remember j a =>
    refine .state (fun x => x.remember_job j a) fun agent_name job_id hactive => Or.inl ?_
    rw [← hactive]
    exact congrArg (fun d : Dict AgentName JobId => d.get agent_name)
      (DispatcherState.ensure_queue_active_jobs s.state a).symm
  | start j => exact .started j
  | replied j => exact .replied j
  | bureau kind access g hb =>
    cases hb with
    | new_id => exact .new_id
    | message r | attempt r | reply r | mailbox a l f => exact hkind.elim
  | job r | requeue r | edge r | state f => exact hkind.elim

theorem guarded_free (hp : Touches K p)
    (hK : ∀ kind, K kind → Free kind) : Guarded config terms p (fun _ _ => True) s := by
  intro hs
  have hcourse : Prog.Course (fun s s' => terms.strict → AnswersOnce s s') (Change config terms) p
      (fun _ _ => True) s := by
    refine Prog.Course.of_each ?_ hp
    rintro l f (rfl | ⟨kind, hkind, htouch⟩) x
    · exact .none
    · exact change_of_free (hK kind hkind) htouch x
  have hkeep := hcourse.keeps (J := fun x => Coherent x ∧ Extends s x) ?_ ⟨hs, Extends.refl s⟩
  · exact hkeep.mono fun a s' h => ⟨h.2.1, h.2.2, trivial⟩
  · intro x x' _ hchange hx
    exact ⟨hx.1.change hchange, hx.2.trans hchange.extends⟩

/-- Nothing but the index of jobs in memory differs. -/
structure Looked (s s' : DispatcherStore) : Prop where
  rest : s' = { s with state := s'.state }
  active : s'.state.active_jobs = s.state.active_jobs

theorem Looked.refl (s : DispatcherStore) : Looked s s := ⟨rfl, rfl⟩

theorem Looked.trans {s t u : DispatcherStore} (h : Looked s t) (h' : Looked t u) : Looked s u := by
  refine ⟨?_, h'.active.trans h.active⟩
  rw [h'.rest, h.rest]

theorem guarded_look (hp : Touches (fun kind => kind = .remember) p) :
    Guarded config terms p (fun _ s' => Looked s s') s := by
  have hfree : Guarded config terms p (fun _ _ => True) s :=
    guarded_free hp fun kind hkind => by rw [hkind]; trivial
  refine (hfree.leaves hp ?_ (Looked.refl s)).mono fun a s' _ _ h => h.2
  rintro kind rfl l f htouch x hx
  cases htouch with
  | remember j a =>
    refine hx.trans ⟨rfl, ?_⟩
    exact DispatcherState.ensure_queue_active_jobs x.state a

end Rules

section Bureau

variable {config : DispatcherConfig} {terms : Terms} {s : DispatcherStore}

variable {Q : α → DispatcherStore → Prop}

theorem guarded_bureau_bind {p : BureauM β} {f : β → BureauM α} {R : β → DispatcherStore → Prop}
    (hp : Guarded config terms (onBureau p) R s) (hf : ∀ a s', Coherent s' → Extends s s' → R a s' →
      Guarded config terms (onBureau (f a)) Q s') :
    Guarded config terms (onBureau (p >>= f)) Q s := by
  rw [onBureau, Prog.bind_eq, Prog.zoom_bind]
  exact guarded_bind hp hf

variable {l : BureauAccess}

theorem guarded_bureau_read_bind {g : BureauStore → β} {f : β → BureauM α}
    (h : Guarded config terms (onBureau (f (g s.bureau))) Q s) :
    Guarded config terms (onBureau (Prog.read l g >>= f)) Q s :=
  fun hs _ => ⟨.none, h hs⟩

theorem guarded_bureau_pure {a : α} (h : Q a s) :
    Guarded config terms (onBureau (pure a)) Q s := fun hs => ⟨hs, Extends.refl s, h⟩

theorem guarded_onBureau_read_bind {g : BureauStore → β} {f : β → DispatcherM α}
    (h : Guarded config terms (f (g s.bureau)) Q s) :
    Guarded config terms (onBureau (Prog.read l g) >>= f) Q s :=
  fun hs _ => ⟨.none, h hs⟩

theorem guarded_bureau_write {f : BureauStore → BureauStore} {Q : Unit → DispatcherStore → Prop}
    (h : Coherent s → Change config terms s { s with bureau := f s.bureau } ∧
      Q () { s with bureau := f s.bureau }) :
    Guarded config terms (onBureau (Prog.write l f)) Q s := by
  intro hs _
  obtain ⟨hchange, hQ⟩ := h hs
  exact ⟨hchange, hs.change hchange, hchange.extends, hQ⟩

theorem guarded_new_id : Guarded config terms (onBureau new_id)
    (fun i s' => i = s.bureau.next_id ∧ Unused s' i ∧
      s' = { s with bureau := { s.bureau with next_id := s.bureau.next_id + 1 } }) s := by
  intro hs _
  exact ⟨.new_id, hs.give_id, (Change.new_id : Change config terms s _).extends,
    rfl, hs.unused rfl, rfl⟩

def withMailbox (s : DispatcherStore) (agent_name : AgentName) (m : MailboxFiles) :
    DispatcherStore :=
  { s with bureau := { s.bureau with
    mailboxes := Function.update s.bureau.mailboxes agent_name m } }

/-- A kernel call from the dispatcher touches the mailbox it names, and what it guarantees
there it guarantees. -/
theorem guarded_kernel {agent_name : AgentName} {p : MailboxM α} {R : α → MailboxFiles → Prop}
    (hp : Prog.Course (fun _ _ => True) Recalls p R (s.bureau.mailboxes agent_name)) :
    Guarded config terms (onBureau (onMailbox agent_name p))
      (fun a s' => ∃ m, s' = withMailbox s agent_name m ∧ R a m) s := by
  intro hs
  have hboxes : Prog.Course (fun _ _ => True)
      (fun b b' : Mailboxes => ∃ m, Recalls (b agent_name) m ∧ b' = Function.update b agent_name m)
      (atMailbox agent_name p) (fun a b => ∃ m, b = Function.update s.bureau.mailboxes agent_name m
        ∧ R a m) s.bureau.mailboxes := by
    have hzoom := Prog.Course.zoom (A := fun _ _ => True) (n := fun l => (agent_name, l))
      (g := fun boxes : Mailboxes => boxes agent_name)
      (u := fun m boxes => Function.update boxes agent_name m) (s := s.bureau.mailboxes)
      (C := fun b b' => ∃ m, Recalls (b agent_name) m ∧ b' = Function.update b agent_name m)
      (by simp) (by simp) (fun m m' hm => ⟨m', by simpa using hm, by simp⟩) hp
    rwa [Function.update_eq_self] at hzoom
  have hbureau := Prog.Course.zoom (A := fun _ _ => True) (n := fun l => BureauAccess.mailbox l.1 l.2)
    (g := fun b : BureauStore => b.mailboxes)
    (u := fun boxes b => { b with mailboxes := boxes }) (s := s.bureau)
    (C := fun b b' => ∃ m, Recalls (b.mailboxes agent_name) m ∧
      b' = { b with mailboxes := Function.update b.mailboxes agent_name m })
    (fun _ _ => rfl) (fun _ _ _ => rfl)
    (fun b b' ⟨m, hm, hb'⟩ => ⟨m, hm, by rw [hb']⟩) hboxes
  have hstore := Prog.Course.zoom (A := fun s s' => terms.strict → AnswersOnce s s')
    (n := DispatcherAccess.bureau) (g := fun s : DispatcherStore => s.bureau)
    (u := fun b s => { s with bureau := b }) (s := s) (C := Change config terms)
    (fun _ _ => rfl) (fun _ _ _ => rfl) ?_ hbureau
  · have hkeep := Prog.Course.keeps (J := fun x => Coherent x ∧ Extends s x) ?_
      ⟨hs, Extends.refl s⟩ hstore
    · refine hkeep.mono fun a s' h => ⟨h.2.1, h.2.2, ?_⟩
      obtain ⟨⟨b, rfl, boxes, rfl, m, rfl, hR⟩, _⟩ := h
      exact ⟨m, rfl, hR⟩
    · intro x x' _ hchange hx
      exact ⟨hx.1.change hchange, hx.2.trans hchange.extends⟩
  · rintro b b' ⟨m, hm, rfl⟩
    exact .mailbox agent_name m hm.kept hm.known

theorem guarded_recalling {agent_name : AgentName} {p : MailboxM α} (hp : Recalling p) :
    Guarded config terms (onBureau (onMailbox agent_name p))
      (fun _ s' => ∃ m, s' = withMailbox s agent_name m) s :=
  (guarded_kernel (hp (s.bureau.mailboxes agent_name))).mono fun _ _ _ _ ⟨m, hm, _⟩ => ⟨m, hm⟩

theorem guarded_onMailbox_read_bind {agent_name : AgentName} {l : MailboxAccess}
    {g : MailboxFiles → β} {f : β → DispatcherM α}
    (h : Guarded config terms (f (g (s.bureau.mailboxes agent_name))) Q s) :
    Guarded config terms (onBureau (onMailbox agent_name (Prog.read l g)) >>= f) Q s := by
  have hsame : withMailbox s agent_name (s.bureau.mailboxes agent_name) = s := by
    simp [withMailbox]
  intro hs
  refine fun _ => ⟨?_, ?_⟩
  · show Change config terms s (withMailbox s agent_name (s.bureau.mailboxes agent_name))
    rw [hsame]
    exact .none
  · show Prog.Course _ _ (f (g (s.bureau.mailboxes agent_name))) _
      (withMailbox s agent_name (s.bureau.mailboxes agent_name))
    rw [hsame]
    exact h hs

end Bureau

section Records

open MessageBureau

variable {config : DispatcherConfig} {terms : Terms} {s : DispatcherStore}
  (service : MailboxKernelService)

theorem attempts_of_touch {kind : Kind} (hkind : kind ≠ .bureau .attempt) {l : DispatcherAccess}
    {f : DispatcherStore → DispatcherStore} (h : Touch kind l f) (x : DispatcherStore) :
    (f x).bureau.attempts = x.bureau.attempts := by
  cases h with
  | bureau kind access g hb =>
    cases hb with
    | attempt r => exact absurd rfl hkind
    | _ => rfl
  | _ => rfl

theorem edges_of_touch {kind : Kind} (hkind : kind ≠ .edge) {l : DispatcherAccess}
    {f : DispatcherStore → DispatcherStore} (h : Touch kind l f) (x : DispatcherStore) :
    (f x).edges = x.edges := by
  cases h with
  | edge r => exact absurd rfl hkind
  | _ => rfl

theorem Guarded.keeps_attempts {p : DispatcherM α} {Q : α → DispatcherStore → Prop}
    (h : Guarded config terms p Q s) (hp : Touches (fun kind => kind ≠ .bureau .attempt) p) :
    Guarded config terms p (fun a s' => Q a s' ∧ s'.bureau.attempts = s.bureau.attempts) s :=
  h.leaves hp (fun _ hkind _ _ ht x hx => (attempts_of_touch hkind ht x).trans hx) rfl

theorem Guarded.keeps_edges {p : DispatcherM α} {Q : α → DispatcherStore → Prop}
    (h : Guarded config terms p Q s) (hp : Touches (fun kind => kind ≠ .edge) p) :
    Guarded config terms p (fun a s' => Q a s' ∧ s'.edges = s.edges) s :=
  h.leaves hp (fun _ hkind _ _ ht x hx => (edges_of_touch hkind ht x).trans hx) rfl

theorem guarded_append_inbound {agent_name : AgentName} {r : InboundEventRecord}
    (hr : Unused s r.inbound_event_id) :
    Guarded config terms (onBureau (onMailbox agent_name (InboundEventStore.append r)))
      (fun _ _ => True) s := by
  intro hs _
  have hchange : Change config terms s (withMailbox s agent_name
      { s.bureau.mailboxes agent_name with
        inbox := (s.bureau.mailboxes agent_name).inbox ++ [r] }) := by
    refine .inbound agent_name r _ rfl hr.below ?_
    rintro b ⟨x, hx, hid⟩
    exact hr.event b x hx hid
  exact ⟨hchange, hs.change hchange, hchange.extends, trivial⟩

theorem guarded_set_message_state (m : MessageId) (state : MessageState) (t : Timestamp) :
    Guarded config terms (onBureau (set_message_state m state t)) (fun _ _ => True) s := by
  refine guarded_bureau_read_bind ?_
  cases hlatest : latest? (fun r : MessageRecord => r.message_id) m s.bureau.messages with
  | none => exact guarded_bureau_pure trivial
  | some current =>
    obtain ⟨hmem, _⟩ := mem_of_latest? hlatest
    dsimp only
    split
    · exact guarded_bureau_pure trivial
    · exact guarded_bureau_write fun _ => ⟨.message_again _ current hmem rfl rfl rfl, trivial⟩

theorem guarded_refresh_message_state (m : MessageId) (t : Timestamp) :
    Guarded config terms (onBureau (refresh_message_state m t)) (fun _ _ => True) s := by
  refine guarded_bureau_read_bind ?_
  split
  · exact guarded_bureau_pure trivial
  · refine guarded_bureau_read_bind ?_
    dsimp only
    split
    · exact guarded_bureau_pure trivial
    · exact guarded_bureau_read_bind (guarded_set_message_state _ _ _)

theorem guarded_queue_request (job : JobRecord) (m : MessageId) (a : AttemptId) (t : Timestamp) :
    Guarded config terms (onBureau (queue_request service job m a t)) (fun _ _ => True) s := by
  refine guarded_bureau_bind guarded_new_id fun i s' _ _ hi => ?_
  refine guarded_bureau_bind (guarded_append_inbound hi.2.1) fun _ _ _ _ _ => ?_
  refine guarded_bureau_bind (guarded_recalling (recalling_silent ?_)) fun _ _ _ _ _ => ?_
  · exact silent_incremental service _ _ _ _ _ _ _
  · exact guarded_bureau_pure trivial

theorem guarded_restore_inbound (job : JobRecord) (m : MessageId) (existing : AttemptRecord) :
    Guarded config terms (onBureau (restore_inbound job m existing)) (fun _ _ => True) s := by
  refine guarded_bureau_bind (guarded_recalling (recalling_silent ?_)) fun inbound _ _ _ _ => ?_
  · exact silent_get_latest_for_attempt _
  · cases inbound with
    | some inbound => exact guarded_bureau_pure trivial
    | none =>
      refine guarded_bureau_bind guarded_new_id fun i s' _ _ hi => ?_
      exact guarded_append_inbound hi.2.1

theorem guarded_rebuild (agent_name : AgentName) (t : Option Timestamp) :
    Guarded config terms (onBureau (onMailbox agent_name
      (MailboxKernel.rebuild_mailbox_summary service agent_name t))) (fun _ _ => True) s :=
  (guarded_recalling (recalling_silent (silent_rebuild service agent_name t))).mono
    fun _ _ _ _ _ => trivial

theorem guarded_finish_inbound (job : JobRecord) (inbound : Option InboundEventRecord)
    (t : Timestamp) :
    Guarded config terms (onBureau (finish_inbound service job inbound t)) (fun _ _ => True) s := by
  unfold finish_inbound
  split
  · split
    · refine guarded_bureau_bind (guarded_recalling ?_) fun _ _ _ _ _ => guarded_bureau_pure trivial
      exact recalling_mark_terminal service _ _ _ _
    · refine guarded_bureau_bind (guarded_recalling ?_) fun _ _ _ _ _ => guarded_bureau_pure trivial
      exact recalling_mark_terminal service _ _ _ _
  · exact guarded_bureau_bind (guarded_rebuild service _ _) fun _ _ _ _ _ =>
      guarded_bureau_pure trivial

theorem guarded_append_known_attempt {a x : AttemptRecord} (hx : x ∈ s.bureau.attempts)
    (hkey : attemptKey a = attemptKey x) (hopen : FollowsJob s a) :
    Guarded config terms (onBureau (AttemptStore.append a)) (fun _ s' => StandingAttempt s' a) s :=
  guarded_bureau_write fun _ => ⟨.attempt_again a x hx hkey hopen, by simp [StandingAttempt]⟩

theorem guarded_record_attempt_terminal {job : JobRecord} (t : Timestamp)
    (hjob : StandingJob s job) (hterminal : job.status.terminal) :
    Guarded config terms (onBureau (record_attempt_terminal service job t))
      (fun _ _ => True) s := by
  refine guarded_bureau_read_bind ?_
  cases hlatest : latest? (fun r : AttemptRecord => r.job_id) job.job_id s.bureau.attempts with
  | none => exact guarded_bureau_pure trivial
  | some attempt =>
    obtain ⟨hmem, hid⟩ := mem_of_latest? hlatest
    refine guarded_bureau_bind (guarded_append_known_attempt hmem rfl fun r hr hrid _ => ?_)
      fun _ _ _ _ _ => ?_
    · rw [StandingJob, ← hrid, hid, hjob] at hr
      rw [← Option.some.inj hr]
      exact hterminal
    refine guarded_bureau_bind (guarded_recalling (recalling_silent ?_)) fun _ _ _ _ _ => ?_
    · exact silent_get_latest_for_attempt _
    · exact guarded_bureau_bind (guarded_finish_inbound service _ _ _) fun _ _ _ _ _ =>
        guarded_refresh_message_state _ _

theorem guarded_resolve_inbound (job : JobRecord) (a : AttemptId) :
    Guarded config terms (onBureau (resolve_inbound_for_attempt_start job a))
      (fun _ _ => True) s := by
  have hbyAttempt : ∀ s : DispatcherStore, Guarded config terms (onBureau
      (onMailbox job.agent_name (InboundEventStore.get_latest_for_attempt a)))
      (fun _ _ => True) s := fun s =>
    (guarded_recalling (recalling_silent (silent_get_latest_for_attempt a))).mono
      fun _ _ _ _ _ => trivial
  unfold resolve_inbound_for_attempt_start
  dsimp only
  split
  · split
    · exact hbyAttempt s
    · refine guarded_bureau_bind (guarded_recalling (recalling_silent (silent_get_latest _)))
        fun inbound s' _ _ _ => ?_
      cases inbound with
      | some inbound => exact guarded_bureau_pure trivial
      | none => exact hbyAttempt s'
  · exact hbyAttempt s

theorem guarded_mark_attempt_started (job : JobRecord) (t : Timestamp) :
    Guarded config terms (onBureau (mark_attempt_started service job t))
      (fun _ s' => ∀ a, StandingAttempt s' a → a.job_id = job.job_id →
        a.attempt_state.terminal = false) s := by
  refine guarded_bureau_read_bind ?_
  cases hlatest : latest? (fun r : AttemptRecord => r.job_id) job.job_id s.bureau.attempts with
  | none =>
    refine guarded_bureau_pure fun a ha hid => ?_
    rw [StandingAttempt, hid, hlatest] at ha
    simp at ha
  | some attempt =>
    obtain ⟨hmem, hid⟩ := mem_of_latest? hlatest
    refine guarded_bureau_bind (guarded_append_known_attempt hmem rfl fun _ _ _ h => by simp
      [AttemptState.terminal] at h) fun _ s₁ _ _ hstanding => ?_
    refine Guarded.mono (Guarded.keeps_attempts (Q := fun _ _ => True) ?_ ?_)
      fun _ s' _ _ h a ha hjob => ?_
    · refine guarded_bureau_bind (guarded_resolve_inbound job _) fun inbound _ _ _ _ => ?_
      split
      · split
        · exact guarded_set_message_state _ _ _
        · refine guarded_bureau_bind (guarded_recalling (recalling_claim service _ _ _))
            fun _ _ _ _ _ => ?_
          exact guarded_set_message_state _ _ _
      · refine guarded_bureau_bind (guarded_set_message_state _ _ _) fun _ _ _ _ _ => ?_
        exact guarded_bureau_bind (guarded_rebuild service _ _) fun _ _ _ _ _ =>
          guarded_bureau_pure trivial
    · have hmailbox : Kind.bureau .mailbox ≠ .bureau .attempt := by simp
      have hmessage : Kind.bureau .message ≠ .bureau .attempt := by simp
      refine touches_onBureau (bureauTouches_bind (touches_resolve_inbound hmailbox job _)
        fun inbound => ?_)
      split
      · split
        · exact touches_set_message_state hmessage _ _ _
        · exact bureauTouches_bind (touches_onMailbox hmailbox _ _) fun _ =>
            touches_set_message_state hmessage _ _ _
      · refine bureauTouches_bind (touches_set_message_state hmessage _ _ _) fun _ => ?_
        exact bureauTouches_bind (touches_onMailbox hmailbox _ _) fun _ => bureauTouches_pure _
    · rw [StandingAttempt, h.2, hjob, ← hid, hstanding] at ha
      rw [← Option.some.inj ha]
      rfl

theorem guarded_deliver_reply (caller : Option AgentName) (notice : Bool) (a : AttemptRecord)
    (r : ReplyId) (t : Timestamp) :
    Guarded config terms (onBureau (deliver_reply service caller notice a r t))
      (fun _ _ => True) s := by
  unfold deliver_reply
  cases caller with
  | none => exact guarded_bureau_pure trivial
  | some caller =>
    dsimp only
    split
    · refine guarded_bureau_bind guarded_new_id fun i s' _ _ hi => ?_
      exact guarded_append_inbound hi.2.1
    · refine guarded_bureau_bind guarded_new_id fun i s' _ _ hi => ?_
      refine guarded_bureau_bind (guarded_append_inbound hi.2.1) fun _ _ _ _ _ => ?_
      refine guarded_bureau_bind (guarded_recalling (recalling_silent ?_)) fun _ _ _ _ _ => ?_
      · exact silent_incremental service _ _ _ _ _ _ _
      · exact guarded_bureau_pure trivial

theorem guarded_append_reply {r : ReplyRecord} (hr : Unused s r.reply_id)
    (hattempt : ∃ a ∈ s.bureau.attempts, a.attempt_id = r.attempt_id ∧
      a.message_id = r.message_id) :
    Guarded config terms (onBureau (ReplyStore.append r))
      (fun _ s' => HasReply s' r.reply_id r.message_id) s := by
  refine guarded_bureau_write fun _ => ⟨.reply r hr.below hr.reply hattempt, ?_⟩
  exact ⟨r, List.mem_append_right _ List.mem_cons_self, rfl, rfl⟩

theorem guarded_record_reply (known : List AgentName) (job : JobRecord)
    (d : Model.CompletionDecision) (t : Timestamp) (deliver : Bool) :
    Guarded config terms (onBureau (MessageBureau.record_reply service known job d t deliver))
      (fun reply_id s' => ∀ m a, HasAttempt s job.job_id m a →
        ∃ i, reply_id = some i ∧ HasReply s' i m) s := by
  refine guarded_bureau_read_bind ?_
  cases hlatest : latest? (fun r : AttemptRecord => r.job_id) job.job_id s.bureau.attempts with
  | none =>
    refine guarded_bureau_pure ?_
    rintro m a ⟨x, hx, hjob, _⟩
    exact absurd (List.mem_map_of_mem (f := fun r : AttemptRecord => r.job_id) hx)
      (hjob ▸ (latest?_eq_none_iff _).mp hlatest)
  | some attempt =>
    obtain ⟨hmem, hjob⟩ := mem_of_latest? hlatest
    refine guarded_bureau_bind guarded_new_id fun i s' hs' hext hi => ?_
    obtain ⟨_, hunused, hs'eq⟩ := hi
    refine guarded_bureau_bind (guarded_append_reply hunused ⟨attempt, ?_, rfl, rfl⟩)
      fun _ s₂ hs₂ hext₂ hreply => ?_
    · rw [hs'eq]
      exact hmem
    · refine guarded_bureau_bind (guarded_deliver_reply service _ _ _ _ _)
        fun _ s₃ _ hext₃ _ => ?_
      refine guarded_bureau_bind (guarded_refresh_message_state _ _) fun _ s₄ hs₄ hext₄ _ => ?_
      refine guarded_bureau_pure fun m a hattempt => ⟨i, rfl, ?_⟩
      have hthis : HasAttempt s₄ job.job_id attempt.message_id attempt.agent_name := by
        have hhere : HasAttempt s job.job_id attempt.message_id attempt.agent_name :=
          ⟨attempt, hmem, hjob, rfl, rfl⟩
        exact hhere.extends (hext.trans (hext₂.trans (hext₃.trans hext₄)))
      have hold := hattempt.extends (hext.trans (hext₂.trans (hext₃.trans hext₄)))
      rw [(hs₄.hasAttempt_eq hold hthis).1]
      exact hreply.extends (hext₃.trans hext₄)

theorem guarded_record_notice (known : List AgentName) (job : JobRecord) (text : String)
    (t : Timestamp) (status : ReplyTerminalStatus) (actor : Option Actor) :
    Guarded config terms (onBureau (record_notice service known job text t status actor))
      (fun _ _ => True) s := by
  refine guarded_bureau_read_bind ?_
  cases hlatest : latest? (fun r : AttemptRecord => r.job_id) job.job_id s.bureau.attempts with
  | none => exact guarded_bureau_pure trivial
  | some attempt =>
    refine guarded_bureau_bind guarded_new_id fun i s' hs' hext hi => ?_
    obtain ⟨_, hunused, hs'eq⟩ := hi
    refine guarded_bureau_bind (guarded_append_reply hunused ⟨attempt, ?_, rfl, rfl⟩)
      fun _ _ _ _ _ => ?_
    · rw [hs'eq]
      exact (mem_of_latest? hlatest).1
    · refine guarded_bureau_bind (guarded_deliver_reply service _ _ _ _ _) fun _ _ _ _ _ => ?_
      exact guarded_bureau_bind (guarded_refresh_message_state _ _) fun _ _ _ _ _ =>
        guarded_bureau_pure trivial

/-! ### New attempts -/

theorem guarded_append_message {r : MessageRecord} (hbelow : r.message_id < s.bureau.next_id)
    (hfresh : ∀ x ∈ s.bureau.messages, x.message_id ≠ r.message_id)
    (htargets : r.target_agents.Nodup) :
    Guarded config terms (onBureau (MessageStore.append r))
      (fun _ s' => s' = { s with bureau := { s.bureau with
        messages := s.bureau.messages ++ [r] } }) s :=
  guarded_bureau_write fun _ => ⟨.message_new r hbelow hfresh htargets, rfl⟩

theorem guarded_append_attempt {a : AttemptRecord} (ha : NewAttempt s a) :
    Guarded config terms (onBureau (AttemptStore.append a))
      (fun _ s' => s' = { s with bureau := { s.bureau with
        attempts := s.bureau.attempts ++ [a] } }) s :=
  guarded_bureau_write fun _ => ⟨.attempt_new a ha, rfl⟩

variable {m : MessageId} {t : Timestamp}

theorem Unused.new_attempt {i : AttemptId} {job : JobRecord} {n : ℕ}
    (hi : Unused s i) (hm : m < s.bureau.next_id) (hjob : HasJob s job.job_id job.agent_name)
    (hun : ∀ b ∈ s.bureau.attempts, b.job_id ≠ job.job_id)
    (hmessage : Lineal s → (∃ b ∈ s.bureau.attempts, b.message_id = m ∧
      b.agent_name = job.agent_name) ∨ ∀ e ∈ s.edges, e.child_message_id ≠ m)
    (hindex : ∀ b ∈ s.bureau.attempts, b.message_id = m → b.agent_name = job.agent_name →
      b.retry_index < n) :
    NewAttempt s (pending_attempt i m job n t) where
  state := rfl
  below := hi.below
  fresh := fun b hb => (hi.attempt b hb).1
  message_below := hm
  job := hjob
  unattempted := hun
  message := hmessage
  index := hindex

/-- The attempts that a submission added to the message `m`, one for each job. -/
def Attempted (m : MessageId) (jobs : List JobRecord) (attempts : List AttemptRecord) : Prop :=
  List.Forall₂ (fun job a => a.job_id = job.job_id ∧ a.message_id = m ∧
    a.agent_name = job.agent_name) jobs attempts

theorem guarded_record_job {job : JobRecord}
    (hm : m < s.bureau.next_id) (hjob : HasJob s job.job_id job.agent_name)
    (hun : ∀ b ∈ s.bureau.attempts, b.job_id ≠ job.job_id)
    (hmessage : ∀ e ∈ s.edges, e.child_message_id ≠ m)
    (hnone : ∀ b ∈ s.bureau.attempts, b.message_id = m → b.agent_name ≠ job.agent_name) :
    Guarded config terms (onBureau (do
        let attempt_id ← new_id
        AttemptStore.append (pending_attempt attempt_id m job 0 t)
        queue_request service job m attempt_id t))
      (fun _ s' => ∃ i, s'.bureau.attempts = s.bureau.attempts ++ [pending_attempt i m job 0 t]
        ∧ s'.edges = s.edges) s := by
  refine guarded_bureau_bind guarded_new_id fun i s₁ _ _ hi => ?_
  obtain ⟨_, hunused, rfl⟩ := hi
  refine guarded_bureau_bind (guarded_append_attempt (hunused.new_attempt ?_ ?_ hun
    (fun _ => Or.inr hmessage) ?_)) fun _ s₂ _ _ hs₂ => ?_
  · exact hm.trans (Nat.lt_succ_self _)
  · exact hjob
  · exact fun b hb hbm hbagent => absurd hbagent (hnone b hb hbm)
  · have hqueue : BureauTouches (fun kind => kind = .new_id ∨ kind = .mailbox)
        (queue_request service job m i t) :=
      touches_queue_request service (Or.inl rfl) (Or.inr rfl) job m i t
    have hother : Touches (fun kind => kind ≠ .bureau .attempt ∧ kind ≠ .edge)
        (onBureau (queue_request service job m i t)) :=
      touches_onBureau (Prog.Each.mono (fun l f hf => hf.imp_right fun ⟨kind, hkind, ht⟩ =>
        ⟨kind, by rcases hkind with rfl | rfl <;> simp, ht⟩) hqueue)
    refine ((guarded_queue_request service job m i t).leaves hother
      (J := fun x => x.bureau.attempts = s₂.bureau.attempts ∧ x.edges = s₂.edges) ?_
      ⟨rfl, rfl⟩).mono fun _ s' _ _ h => ?_
    · intro kind hkind l f ht x hx
      exact ⟨(attempts_of_touch hkind.1 ht x).trans hx.1, (edges_of_touch hkind.2 ht x).trans hx.2⟩
    · subst hs₂
      exact ⟨i, h.2.1, h.2.2⟩

theorem guarded_record_jobs {jobs : List JobRecord}
    (hm : m < s.bureau.next_id) (hjobs : ∀ job ∈ jobs, HasJob s job.job_id job.agent_name)
    (hnodup : (jobs.map fun job => job.job_id).Nodup)
    (hagents : (jobs.map fun job => job.agent_name).Nodup)
    (hun : ∀ job ∈ jobs, ∀ b ∈ s.bureau.attempts, b.job_id ≠ job.job_id)
    (hmessage : ∀ e ∈ s.edges, e.child_message_id ≠ m)
    (hnone : ∀ job ∈ jobs, ∀ b ∈ s.bureau.attempts, b.message_id = m →
      b.agent_name ≠ job.agent_name) :
    Guarded config terms (onBureau (Prog.forEach jobs fun job => do
        let attempt_id ← new_id
        AttemptStore.append (pending_attempt attempt_id m job 0 t)
        queue_request service job m attempt_id t)) (fun _ s' => s'.edges = s.edges ∧ ∃ attempts,
        s'.bureau.attempts = s.bureau.attempts ++ attempts ∧ Attempted m jobs attempts) s := by
  induction jobs generalizing s with
  | nil => exact guarded_bureau_pure ⟨rfl, [], by simp, List.Forall₂.nil⟩
  | cons job jobs ih =>
    simp only [List.map_cons, List.nodup_cons] at hnodup hagents
    refine guarded_bureau_bind (guarded_record_job service hm (hjobs job List.mem_cons_self)
      (hun job List.mem_cons_self) hmessage (hnone job List.mem_cons_self)) fun _ s₁ _ hext h₁ => ?_
    obtain ⟨i, hattempts, hedges⟩ := h₁
    refine (ih (hm.trans_le hext.next_id)
      (fun j hj => (hjobs j (List.mem_cons_of_mem job hj)).extends hext) hnodup.2 hagents.2
      ?_ ?_ ?_).mono fun _ s' _ _ h => ?_
    · intro j hj b hb
      rw [hattempts] at hb
      rcases List.mem_append.mp hb with hb | hb
      · exact hun j (List.mem_cons_of_mem job hj) b hb
      · rw [List.mem_singleton.mp hb]
        intro hid
        exact hnodup.1 (List.mem_map.mpr ⟨j, hj, hid.symm⟩)
    · rw [hedges]
      exact hmessage
    · intro j hj b hb hbm
      rw [hattempts] at hb
      rcases List.mem_append.mp hb with hb | hb
      · exact hnone j (List.mem_cons_of_mem job hj) b hb hbm
      · rw [List.mem_singleton.mp hb]
        intro hagent
        exact hagents.1 (List.mem_map.mpr ⟨j, hj, hagent.symm⟩)
    · obtain ⟨hedges', attempts, hattempts', hforall⟩ := h
      refine ⟨hedges'.trans hedges, pending_attempt i m job 0 t :: attempts, ?_, ?_⟩
      · rw [hattempts', hattempts, List.append_assoc, List.singleton_append]
      · exact List.Forall₂.cons ⟨rfl, rfl, rfl⟩ hforall

/-- **A submission adds one attempt for each job, all on a message of its own.** -/
theorem guarded_record_submission (request : MessageEnvelope) {jobs : List JobRecord}
    (submission_id : Option SubmissionId) (t : Timestamp) (origin : Option MessageId)
    (hjobs : ∀ job ∈ jobs, HasJob s job.job_id job.agent_name)
    (hnodup : (jobs.map fun job => job.job_id).Nodup)
    (hagents : (jobs.map fun job => job.agent_name).Nodup)
    (hun : ∀ job ∈ jobs, ∀ b ∈ s.bureau.attempts, b.job_id ≠ job.job_id) :
    Guarded config terms (onBureau (record_submission service request jobs submission_id t
        origin))
      (fun message_id s' => ∀ m, message_id = some m → s.bureau.next_id ≤ m ∧
        s'.edges = s.edges ∧ ∃ attempts,
          s'.bureau.attempts = s.bureau.attempts ++ attempts ∧ Attempted m jobs attempts) s := by
  unfold record_submission
  split
  · exact guarded_bureau_pure (by simp)
  · refine guarded_bureau_bind guarded_new_id fun m s₁ _ hext₁ hm => ?_
    obtain ⟨hmid, hunused, hs₁⟩ := hm
    have horigin : Touches (fun _ => False)
        (onBureau (origin_or origin (resolve_origin_message_id request.reply_to))) :=
      touches_onBureau (touches_origin_or _ (touches_resolve_origin _))
    have hlook : Guarded config terms
        (onBureau (origin_or origin (resolve_origin_message_id request.reply_to)))
        (fun _ s' => s' = s₁) s₁ :=
      ((guarded_free horigin (fun kind hkind => hkind.elim)).leaves horigin
        (J := fun x => x = s₁) (fun kind hkind => hkind.elim) rfl).mono fun _ _ _ _ h => h.2
    refine guarded_bureau_bind hlook fun origin_message_id s₂ _ _ hs₂ => ?_
    subst hs₂
    refine guarded_bureau_bind (guarded_append_message hunused.below hunused.message hagents)
      fun _ s₃ _ hext₃ hs₃ => ?_
    have hattempts₃ : s₃.bureau.attempts = s.bureau.attempts := by rw [hs₃, hs₁]
    have hedges₃ : s₃.edges = s.edges := by rw [hs₃, hs₁]
    refine guarded_bureau_bind (guarded_record_jobs service (hunused.below.trans_le hext₃.next_id)
      (fun job hjob => (hjobs job hjob).extends (hext₁.trans hext₃)) hnodup hagents ?_ ?_ ?_)
      fun _ s₄ _ _ h₄ => ?_
    · rw [hattempts₃]
      exact hun
    · intro e he
      rw [hedges₃, show s.edges = s₂.edges by rw [hs₁]] at he
      exact (hunused.edge e he).2.1
    · intro job _ b hb hbm
      rw [hattempts₃, show s.bureau.attempts = s₂.bureau.attempts by rw [hs₁]] at hb
      exact absurd hbm (hunused.attempt b hb).2
    · obtain ⟨hedges₄, attempts, hattempts₄, hforall⟩ := h₄
      refine guarded_bureau_pure fun m' hm' => ?_
      cases hm'
      refine ⟨hmid.ge, hedges₄.trans hedges₃, attempts, ?_, hforall⟩
      rw [hattempts₄, hattempts₃]

theorem lt_next_retry_index {attempts : List AttemptRecord} {a : AgentName}
    {b : AttemptRecord} (hb : b ∈ attempts) (hm : b.message_id = m) (ha : b.agent_name = a) :
    b.retry_index < ((attempts.filter fun r => r.message_id = m).filter
      fun r => r.agent_name = a).foldl (fun latest r => max latest (r.retry_index + 1)) 0 := by
  have hmem : b ∈ (attempts.filter fun r => r.message_id = m).filter fun r => r.agent_name = a := by
    simp [hb, hm, ha]
  have hmono : ∀ (l : List AttemptRecord) (n : ℕ),
      n ≤ l.foldl (fun latest r => max latest (r.retry_index + 1)) n := by
    intro l
    induction l with
    | nil => exact fun n => Nat.le_refl n
    | cons x l ih => exact fun n => (Nat.le_max_left _ _).trans (ih _)
  generalize (attempts.filter fun r => r.message_id = m).filter (fun r => r.agent_name = a) = l
    at hmem
  generalize 0 = n
  induction l generalizing n with
  | nil => simp at hmem
  | cons x l ih =>
    rcases List.mem_cons.mp hmem with rfl | hmem
    · exact Nat.lt_of_lt_of_le (Nat.lt_succ_self _) ((Nat.le_max_right _ _).trans (hmono l _))
    · exact ih hmem _

/-- A retry or a continuation adds an attempt to a message that its agent has one on, or
that is no edge's child. -/
theorem guarded_record_retry_attempt {job : JobRecord} (t : Timestamp)
    (hjob : HasJob s job.job_id job.agent_name)
    (hmessage : Lineal s → (∃ b ∈ s.bureau.attempts, b.message_id = m ∧
      b.agent_name = job.agent_name) ∨ ∀ e ∈ s.edges, e.child_message_id ≠ m) :
    Guarded config terms (onBureau (record_retry_attempt service m job t)) (fun _ _ => True) s := by
  refine guarded_bureau_read_bind ?_
  cases hlatest : latest? (fun r : MessageRecord => r.message_id) m s.bureau.messages with
  | none => exact guarded_raise
  | some message =>
    obtain ⟨hmem, hid⟩ := mem_of_latest? hlatest
    refine guarded_bureau_read_bind ?_
    cases hexisting : latest? (fun r : AttemptRecord => r.job_id) job.job_id
        s.bureau.attempts with
    | some existing =>
      dsimp only
      split
      · exact guarded_raise
      · split
        · exact guarded_bureau_pure trivial
        · refine guarded_bureau_bind (guarded_restore_inbound _ _ _) fun _ _ _ _ _ => ?_
          refine guarded_bureau_bind (guarded_rebuild service _ _) fun _ _ _ _ _ => ?_
          refine guarded_bureau_bind (guarded_set_message_state _ _ _) fun _ _ _ _ _ => ?_
          exact guarded_bureau_pure trivial
    | none =>
      refine guarded_bureau_read_bind ?_
      refine guarded_bureau_bind guarded_new_id fun i s₁ hs₁ hext hi => ?_
      obtain ⟨_, hunused, hs₁eq⟩ := hi
      have hnone := (latest?_eq_none_iff _).mp hexisting
      refine guarded_bureau_bind (guarded_append_attempt (hunused.new_attempt ?_
        (hjob.extends hext) ?_ ?_ ?_)) fun _ _ _ _ _ => ?_
      · rw [← hid]
        exact hs₁.message_below message (hext.messages hmem)
      · intro b hb hbjob
        rw [hs₁eq] at hb
        exact hnone (hbjob ▸ List.mem_map_of_mem (f := fun r : AttemptRecord => r.job_id) hb)
      · intro hlineal
        rw [hs₁eq] at hlineal ⊢
        exact hmessage (hlineal.same rfl rfl rfl)
      · intro b hb hbm hbagent
        rw [hs₁eq] at hb
        exact lt_next_retry_index hb hbm hbagent
      · refine guarded_bureau_bind (guarded_queue_request service _ _ _ _) fun _ _ _ _ _ => ?_
        refine guarded_bureau_bind (guarded_set_message_state _ _ _) fun _ _ _ _ _ => ?_
        exact guarded_bureau_pure trivial

theorem guarded_append_reply_delivery_message (reply : ReplyRecord) {agent_name : AgentName}
    (t : Timestamp) (provider : ProviderName) {job_id : JobId} (hjob : HasJob s job_id agent_name)
    (hun : ∀ b ∈ s.bureau.attempts, b.job_id ≠ job_id) :
    Guarded config terms (onBureau (ReplyDelivery.append_reply_delivery_message reply agent_name
      t provider job_id)) (fun _ _ => True) s := by
  refine guarded_bureau_bind guarded_new_id fun m s₁ _ hext₁ hm => ?_
  obtain ⟨_, hunused, hs₁⟩ := hm
  refine guarded_bureau_bind guarded_new_id fun i s₂ _ hext₂ hi => ?_
  obtain ⟨_, hunused', hs₂⟩ := hi
  have hmessages : s₂.bureau.messages = s₁.bureau.messages := by rw [hs₂]
  refine guarded_bureau_bind (guarded_append_message (hunused.below.trans_le hext₂.next_id)
    (hmessages ▸ hunused.message) (List.nodup_singleton _)) fun _ s₃ _ hext₃ hs₃ => ?_
  have hattempts : s₃.bureau.attempts = s.bureau.attempts := by rw [hs₃, hs₂, hs₁]
  have hedges : s₃.edges = s₁.edges := by rw [hs₃, hs₂]
  refine (guarded_append_attempt ⟨hunused'.below.trans_le hext₃.next_id, ?_, ?_, ?_, ?_,
    fun _ => Or.inr ?_, ?_, ?_⟩).mono fun _ _ _ _ _ => trivial
  · intro b hb
    rw [hattempts, show s.bureau.attempts = s₂.bureau.attempts by rw [hs₂, hs₁]] at hb
    exact (hunused'.attempt b hb).1
  · exact hunused.below.trans_le (hext₂.trans hext₃).next_id
  · exact hjob.extends (hext₁.trans (hext₂.trans hext₃))
  · rw [hattempts]
    exact hun
  · rw [hedges]
    exact fun e he => (hunused.edge e he).2.1
  · intro b hb hbm
    rw [hattempts, show s.bureau.attempts = s₁.bureau.attempts by rw [hs₁]] at hb
    exact absurd hbm (hunused.attempt b hb).2
  · rfl

end Records

end ClaudeCodeBridge.Analysis
