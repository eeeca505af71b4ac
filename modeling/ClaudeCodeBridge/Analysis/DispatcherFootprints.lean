import ClaudeCodeBridge.Program.Frames
import ClaudeCodeBridge.Model.DispatcherOperations

/-!
# What each function of the dispatcher may touch

A footprint is the set of kinds of accesses a program makes: it may append a job, an
attempt, an edge and so on, or change a mailbox or the state in memory.  `Touches K p`
says that the accesses of `p` other than reads are of the kinds in `K`.  What an
invariant needs to know of a function that does not bear on it is read off its footprint.
-/

set_option autoImplicit false

namespace ClaudeCodeBridge.Analysis

open Program Model

variable {α β : Type}

inductive BureauKind where
  | new_id | message | attempt | reply | mailbox
  deriving DecidableEq

/-- The accesses of a kind, with what they do. -/
inductive BureauTouch : BureauKind → BureauAccess → (BureauStore → BureauStore) → Prop
  | new_id : BureauTouch .new_id .new_id fun s => { s with next_id := s.next_id + 1 }
  | message (r : MessageRecord) :
      BureauTouch .message .append_message fun s => { s with messages := s.messages ++ [r] }
  | attempt (r : AttemptRecord) :
      BureauTouch .attempt .append_attempt fun s => { s with attempts := s.attempts ++ [r] }
  | reply (r : ReplyRecord) :
      BureauTouch .reply (.append_reply r) fun s => { s with replies := s.replies ++ [r] }
  | mailbox (agent_name : AgentName) (l : MailboxAccess) (f : MailboxFiles → MailboxFiles) :
      BureauTouch .mailbox (.mailbox agent_name l) fun s =>
        { s with
          mailboxes := Function.update s.mailboxes agent_name (f (s.mailboxes agent_name)) }

inductive Kind where
  | job | event | requeue | submission | edge | state | remember | start | replied
  | bureau (kind : BureauKind)

@[grind] def requeues : JobEventType → Bool
  | .reply_delivery_requeued _ => true
  | _ => false

inductive Touch : Kind → DispatcherAccess → (DispatcherStore → DispatcherStore) → Prop
  | job (r : JobRecord) : Touch .job (.append_job r) fun s => { s with jobs := s.jobs ++ [r] }
  | event (r : JobEvent) (h : requeues r.type = false) :
      Touch .event (.append_event r) fun s => { s with events := s.events ++ [r] }
  | requeue (r : JobEvent) :
      Touch .requeue (.append_event r) fun s => { s with events := s.events ++ [r] }
  | submission (r : SubmissionRecord) :
      Touch .submission .append_submission fun s => { s with submissions := s.submissions ++ [r] }
  | edge (r : CallbackEdgeRecord) :
      Touch .edge (.append_edge r) fun s => { s with edges := s.edges ++ [r] }
  | state (f : DispatcherState → DispatcherState) :
      Touch .state .update_state fun s => { s with state := f s.state }
  | remember (job_id : JobId) (agent_name : AgentName) :
      Touch .remember .update_state fun s =>
        { s with state := s.state.remember_job job_id agent_name }
  | start (job_id : JobId) :
      Touch .start (.start_execution job_id) fun s => { s with starts := s.starts ++ [job_id] }
  | replied (job_id : JobId) :
      Touch .replied (.record_reply job_id) fun s => { s with replied := s.replied ++ [job_id] }
  | bureau (kind : BureauKind) (access : BureauAccess) (f : BureauStore → BureauStore)
      (h : BureauTouch kind access f) :
      Touch (.bureau kind) (.bureau access) fun s => { s with bureau := f s.bureau }

/-- An access is a read or of a kind in `K`. -/
def Within (K : Kind → Prop) (l : DispatcherAccess) (f : DispatcherStore → DispatcherStore) :
    Prop :=
  f = id ∨ ∃ kind, K kind ∧ Touch kind l f

def BureauWithin (K : BureauKind → Prop) (l : BureauAccess) (f : BureauStore → BureauStore) :
    Prop :=
  f = id ∨ ∃ kind, K kind ∧ BureauTouch kind l f

/-- The accesses of `p` are reads or of the kinds in `K`. -/
def Touches (K : Kind → Prop) (p : DispatcherM α) : Prop := p.Each (Within K)

def BureauTouches (K : BureauKind → Prop) (p : BureauM α) : Prop := p.Each (BureauWithin K)

variable {K : Kind → Prop} {B : BureauKind → Prop}

section Rules

@[grind ←] theorem touches_pure (a : α) : Touches K (pure a : DispatcherM α) := trivial

@[grind ←] theorem touches_raise (e : Failure) : Touches K (.raise e : DispatcherM α) := trivial

@[grind ←] theorem touches_bind {p : DispatcherM α} {f : α → DispatcherM β} (hp : Touches K p)
    (hf : ∀ a, Touches K (f a)) : Touches K (p >>= f) := Prog.Each.bind hp hf

@[grind ←] theorem touches_read (l : DispatcherAccess) (g : DispatcherStore → α) :
    Touches K (Prog.read l g) := ⟨Or.inl rfl, fun _ => trivial⟩

@[grind ←] theorem touches_forEach {xs : List β} {body : β → DispatcherM Unit}
    (h : ∀ x, Touches K (body x)) : Touches K (Prog.forEach xs body) := Prog.Each.forEach h

@[grind ←] theorem bureauTouches_pure (a : α) : BureauTouches B (pure a : BureauM α) := trivial

@[grind ←] theorem bureauTouches_raise (e : Failure) :
    BureauTouches B (.raise e : BureauM α) := trivial

@[grind ←] theorem bureauTouches_bind {p : BureauM α} {f : α → BureauM β}
    (hp : BureauTouches B p) (hf : ∀ a, BureauTouches B (f a)) : BureauTouches B (p >>= f) :=
  Prog.Each.bind hp hf

@[grind ←] theorem bureauTouches_read (l : BureauAccess) (g : BureauStore → α) :
    BureauTouches B (Prog.read l g) := ⟨Or.inl rfl, fun _ => trivial⟩

@[grind ←] theorem bureauTouches_forEach {xs : List β} {body : β → BureauM Unit}
    (h : ∀ x, BureauTouches B (body x)) : BureauTouches B (Prog.forEach xs body) :=
  Prog.Each.forEach h

@[grind ←] theorem touches_onBureau {p : BureauM α}
    (hp : BureauTouches (fun kind => K (.bureau kind)) p) : Touches K (onBureau p) := by
  refine Prog.Each.zoom (B := BureauWithin fun kind => K (.bureau kind)) ?_ hp
  rintro l f (rfl | ⟨kind, hkind, htouch⟩)
  · exact Or.inl rfl
  · exact Or.inr ⟨.bureau kind, hkind, Touch.bureau kind l f htouch⟩

end Rules

section Bureau

@[grind ←] theorem touches_onMailbox (h : B .mailbox) (agent_name : AgentName)
    (p : MailboxM α) : BureauTouches B (onMailbox agent_name p) := by
  refine Prog.Each.zoom (B := fun l f => ∃ g : MailboxFiles → MailboxFiles, l.1 = agent_name ∧
    f = fun boxes : Mailboxes => Function.update boxes agent_name (g (boxes agent_name))) ?_ ?_
  · rintro ⟨_, l⟩ f ⟨g, rfl, rfl⟩
    exact Or.inr ⟨.mailbox, h, BureauTouch.mailbox _ l g⟩
  · refine Prog.Each.zoom (B := fun _ _ => True) ?_ (Prog.each_of_forall (fun _ _ => trivial) p)
    exact fun l f _ => ⟨f, rfl, rfl⟩

@[grind ←] theorem touches_new_id (h : B .new_id) : BureauTouches B new_id :=
  ⟨Or.inr ⟨.new_id, h, .new_id⟩, fun _ => trivial⟩

@[grind ←] theorem touches_append_message (h : B .message) (r : MessageRecord) :
    BureauTouches B (MessageStore.append r) := ⟨Or.inr ⟨.message, h, .message r⟩, fun _ => trivial⟩

@[grind ←] theorem touches_append_attempt (h : B .attempt) (r : AttemptRecord) :
    BureauTouches B (AttemptStore.append r) := ⟨Or.inr ⟨.attempt, h, .attempt r⟩, fun _ => trivial⟩

@[grind ←] theorem touches_append_reply (h : B .reply) (r : ReplyRecord) :
    BureauTouches B (ReplyStore.append r) := ⟨Or.inr ⟨.reply, h, .reply r⟩, fun _ => trivial⟩

@[grind ←] theorem touches_find_message (m : MessageId) :
    BureauTouches B (MessageStore.get_latest m) := bureauTouches_read _ _

@[grind ←] theorem touches_find_attempt (a : AttemptId) :
    BureauTouches B (AttemptStore.get_latest a) := bureauTouches_read _ _

@[grind ←] theorem touches_find_attempt_by_job (j : JobId) :
    BureauTouches B (AttemptStore.get_latest_by_job_id j) := bureauTouches_read _ _

@[grind ←] theorem touches_list_attempts (m : MessageId) :
    BureauTouches B (AttemptStore.list_message m) := bureauTouches_read _ _

@[grind ←] theorem touches_find_reply (r : ReplyId) :
    BureauTouches B (ReplyStore.get_latest r) := bureauTouches_read _ _

@[grind ←] theorem touches_list_replies (m : MessageId) :
    BureauTouches B (ReplyStore.list_message m) := bureauTouches_read _ _

open MessageBureau

variable (service : MailboxKernelService)

@[grind ←] theorem touches_resolve_origin (r : Option ReplyTo) :
    BureauTouches B (resolve_origin_message_id r) := by
  unfold resolve_origin_message_id
  grind

@[grind ←] theorem touches_origin_or (o : Option MessageId) {p : BureauM (Option MessageId)}
    (hp : BureauTouches B p) : BureauTouches B (origin_or o p) := by
  unfold origin_or
  grind

@[grind ←] theorem touches_set_message_state (h : B .message) (m : MessageId) (state : MessageState)
    (t : Timestamp) : BureauTouches B (set_message_state m state t) := by
  unfold set_message_state
  grind

@[grind ←] theorem touches_refresh_message_state (h : B .message) (m : MessageId)
    (t : Timestamp) : BureauTouches B (refresh_message_state m t) := by
  unfold refresh_message_state
  grind

@[grind ←] theorem touches_next_retry_index (m : MessageId) (a : AgentName) :
    BureauTouches B (next_retry_index m a) := by
  unfold next_retry_index
  grind

@[grind ←] theorem touches_queue_request (hi : B .new_id) (hm : B .mailbox) (job : JobRecord)
    (m : MessageId) (a : AttemptId) (t : Timestamp) :
    BureauTouches B (queue_request service job m a t) := by
  unfold queue_request
  grind

@[grind ←] theorem touches_restore_inbound (hi : B .new_id) (hm : B .mailbox) (job : JobRecord)
    (m : MessageId) (a : AttemptRecord) : BureauTouches B (restore_inbound job m a) := by
  unfold restore_inbound
  grind

@[grind ←] theorem touches_record_submission (hi : B .new_id) (hm : B .mailbox) (hr : B .message)
    (ha : B .attempt) (request : MessageEnvelope) (jobs : List JobRecord)
    (submission_id : Option SubmissionId) (t : Timestamp) (origin : Option MessageId) :
    BureauTouches B (record_submission service request jobs submission_id t origin) := by
  unfold record_submission
  split
  · grind
  · refine bureauTouches_bind (touches_new_id hi) fun message_id => ?_
    refine bureauTouches_bind (by grind) fun origin_message_id => ?_
    grind

@[grind ←] theorem touches_record_retry_attempt (hi : B .new_id) (hm : B .mailbox)
    (hr : B .message) (ha : B .attempt) (m : MessageId) (job : JobRecord) (t : Timestamp) :
    BureauTouches B (record_retry_attempt service m job t) := by
  unfold record_retry_attempt
  refine bureauTouches_bind (touches_find_message m) fun message => ?_
  cases message with
  | none => grind
  | some message =>
    refine bureauTouches_bind (touches_find_attempt_by_job job.job_id) fun existing => ?_
    cases existing with
    | none => grind
    | some existing => grind

@[grind ←] theorem touches_resolve_inbound (hm : B .mailbox) (job : JobRecord)
    (a : AttemptId) : BureauTouches B (resolve_inbound_for_attempt_start job a) := by
  unfold resolve_inbound_for_attempt_start
  grind

@[grind ←] theorem touches_deliver_reply (hi : B .new_id) (hm : B .mailbox)
    (caller : Option AgentName) (notice : Bool) (a : AttemptRecord) (r : ReplyId)
    (t : Timestamp) : BureauTouches B (deliver_reply service caller notice a r t) := by
  unfold deliver_reply queue_reply_delivery record_consumed_completion_notice
  grind

@[grind ←] theorem touches_record_reply (hi : B .new_id) (hm : B .mailbox) (hr : B .message)
    (hp : B .reply) (known : List AgentName) (job : JobRecord) (d : Model.CompletionDecision)
    (t : Timestamp) (deliver : Bool) :
    BureauTouches B (record_reply service known job d t deliver) := by
  unfold record_reply
  grind

@[grind ←] theorem touches_record_notice (hi : B .new_id) (hm : B .mailbox) (hr : B .message)
    (hp : B .reply) (known : List AgentName) (job : JobRecord) (text : String)
    (t : Timestamp) (status : ReplyTerminalStatus) (actor : Option Actor) :
    BureauTouches B (record_notice service known job text t status actor) := by
  unfold record_notice
  grind

end Bureau

section Stores

variable (config : DispatcherConfig) (env : DispatcherEnvironment)

@[grind ←] theorem touches_dispatcher_new_id (h : K (.bureau .new_id)) :
    Touches K dispatcher_new_id := touches_onBureau (touches_new_id h)

@[grind ←] theorem touches_job_append (h : K .job) (r : JobRecord) :
    Touches K (JobStore.append r) := ⟨Or.inr ⟨.job, h, .job r⟩, fun _ => trivial⟩

@[grind ←] theorem touches_job_list_agent (a : AgentName) :
    Touches K (JobStore.list_agent a) := touches_read _ _

@[grind ←] theorem touches_job_get_latest (a : AgentName) (j : JobId) :
    Touches K (JobStore.get_latest a j) := touches_read _ _

@[grind ←] theorem touches_event_append (h : K .event) (r : JobEvent)
    (hr : requeues r.type = false) : Touches K (JobEventStore.append r) :=
  ⟨Or.inr ⟨.event, h, .event r hr⟩, fun _ => trivial⟩

@[grind ←] theorem touches_read_target (a : AgentName) :
    Touches K (JobEventStore.read_target a) := touches_read _ _

@[grind ←] theorem touches_submission_append (h : K .submission) (r : SubmissionRecord) :
    Touches K (SubmissionStore.append r) := ⟨Or.inr ⟨.submission, h, .submission r⟩, fun _ => trivial⟩

@[grind ←] theorem touches_submission_get_latest (i : SubmissionId) :
    Touches K (SubmissionStore.get_latest i) := touches_read _ _

@[grind ←] theorem touches_edge_get_latest (i : EdgeId) :
    Touches K (CallbackEdgeStore.get_latest i) := touches_read _ _

@[grind ←] theorem touches_edge_for_child_job (j : JobId) :
    Touches K (CallbackEdgeStore.get_latest_for_child_job j) := touches_read _ _

@[grind ←] theorem touches_edge_for_child_message (m : MessageId) :
    Touches K (CallbackEdgeStore.get_latest_for_child_message m) := touches_read _ _

@[grind ←] theorem touches_edge_for_parent_job (j : JobId) :
    Touches K (CallbackEdgeStore.get_latest_for_parent_job j) := touches_read _ _

@[grind ←] theorem touches_onState (g : DispatcherState → α) : Touches K (onState g) :=
  touches_read _ _

@[grind ←] theorem touches_updateState (h : K .state) (g : DispatcherState → DispatcherState) :
    Touches K (updateState g) := ⟨Or.inr ⟨.state, h, .state g⟩, fun _ => trivial⟩

@[grind ←] theorem touches_find_job (h : K .remember) (j : JobId) (agents : List AgentName) :
    Touches K (find_job j agents) := by
  induction agents with
  | nil => trivial
  | cons a agents ih =>
    unfold find_job
    refine touches_bind (touches_job_get_latest a j) fun record => ?_
    cases record with
    | none => exact ih
    | some record =>
      exact ⟨Or.inr ⟨.remember, h, .remember j a⟩, fun _ => trivial⟩

@[grind ←] theorem touches_get_job (h : K .remember) (j : JobId) :
    Touches K (get_job config j) := by
  unfold get_job
  grind

@[grind ←] theorem touches_append_job (hj : K .job) (hs : K .remember) (r : JobRecord) :
    Touches K (append_job r) := by
  refine touches_bind (touches_job_append hj r) fun _ => ?_
  exact ⟨Or.inr ⟨.remember, hs, .remember r.job_id r.agent_name⟩, fun _ => trivial⟩

@[grind ←] theorem touches_append_event (h : K .event) (r : JobRecord) (type : JobEventType)
    (t : Timestamp) (hr : requeues type = false) : Touches K (append_event r type t) :=
  touches_event_append h _ hr

end Stores

section Chains

open Callbacks

variable (config : DispatcherConfig) (env : DispatcherEnvironment)

@[grind ←] theorem touches_raiseDispatch (text : String) :
    Touches K (raiseDispatch text : DispatcherM α) := trivial

@[grind ←] theorem touches_rejectIf (condition : Bool) (text : String) :
    Touches K (rejectIf condition text) := by
  unfold rejectIf
  grind

@[grind ←] theorem touches_active_parent_job (h : K .remember) (actor : Actor) :
    Touches K (active_parent_job config actor) := by
  unfold active_parent_job
  grind

@[grind ←] theorem touches_message_for_job (job : JobRecord) : Touches K (message_for_job job) := by
  unfold message_for_job
  grind

@[grind ←] theorem touches_validate_continuation_target (parent : JobRecord)
    (child : Option AgentName) :
    Touches K (validate_callback_continuation_target parent child) := by
  unfold validate_callback_continuation_target
  grind

@[grind ←] theorem touches_validate_nested_ask_request (h : K .remember)
    (request : MessageEnvelope) : Touches K (validate_nested_ask_request config request) := by
  unfold validate_nested_ask_request
  grind

@[grind ←] theorem touches_bind_callback_workspace_tree (parent : JobRecord) :
    Touches K (bind_callback_workspace_tree env parent) := by
  unfold bind_callback_workspace_tree
  grind

@[grind ←] theorem touches_delegated_parent_edge (job : JobRecord) :
    Touches K (delegated_parent_edge job) := touches_edge_for_parent_job _

@[grind ←] theorem touches_callback_child_edge (job : JobRecord) :
    Touches K (callback_child_edge job) := by
  unfold callback_child_edge
  grind

@[grind ←] theorem touches_existing_by_edge (targets : List AgentName) :
    Touches K (existing_continuation_jobs_by_edge targets) := by
  induction targets with
  | nil => trivial
  | cons target targets ih =>
    unfold existing_continuation_jobs_by_edge
    grind

@[grind ←] theorem touches_recorded_child_reply (edge : CallbackEdgeRecord) :
    Touches K (recorded_child_reply edge) := by
  unfold recorded_child_reply
  grind

@[grind ←] theorem touches_latest_child_reply (edge : CallbackEdgeRecord) :
    Touches K (latest_child_reply edge) := by
  unfold latest_child_reply
  grind

@[grind ←] theorem touches_job_for_reply (h : K .remember) (reply : Option ReplyRecord) :
    Touches K (job_for_reply config reply) := by
  unfold job_for_reply
  grind

@[grind ←] theorem touches_append_submission_job (h : K .submission)
    (i : Option SubmissionId) (j : JobId) (t : Timestamp) :
    Touches K (append_submission_job i j t) := by
  unfold append_submission_job
  grind

@[grind ←] theorem touches_inbound_of_attempt (hm : K (.bureau .mailbox)) (a : AgentName)
    (attempt : Option AttemptRecord) : Touches K (inbound_of_attempt a attempt) := by
  unfold inbound_of_attempt
  grind

@[grind ←] theorem touches_repair_pending_continuation_attempt (hi : K (.bureau .new_id))
    (hm : K (.bureau .mailbox)) (hr : K (.bureau .message)) (ha : K (.bureau .attempt))
    (edge : CallbackEdgeRecord) (job : JobRecord) :
    Touches K (repair_pending_continuation_attempt env edge job) := by
  unfold repair_pending_continuation_attempt
  grind

@[grind ←] theorem touches_record_callback_failure_notice (hj : K .remember)
    (hi : K (.bureau .new_id)) (hm : K (.bureau .mailbox)) (hr : K (.bureau .message))
    (hp : K (.bureau .reply)) (edge : CallbackEdgeRecord) (reason detail : String)
    (t : Timestamp) :
    Touches K (record_callback_failure_notice config env edge reason detail t) := by
  unfold record_callback_failure_notice
  grind

@[grind ←] theorem touches_spec_for (a : AgentName) : Touches K (spec_for config a) := by
  unfold spec_for
  grind

@[grind ←] theorem touches_validate_target_available (a : AgentName) :
    Touches K (validate_target_available config env a) := by
  unfold validate_target_available
  grind

@[grind ←] theorem touches_pending_status (a : AgentName) : Touches K (pending_status a) := by
  unfold pending_status
  grind

@[grind =] theorem requeues_acceptance_event (status : JobStatus) :
    requeues (acceptance_event status) = false := by
  unfold acceptance_event
  split <;> rfl

@[grind ←] theorem touches_enqueue_submitted_job (hj : K .job) (hr : K .remember)
    (hs : K .state) (he : K .event) (job : JobRecord) (t : Timestamp) :
    Touches K (enqueue_submitted_job job t) := by
  unfold enqueue_submitted_job
  grind

@[grind ←] theorem touches_submit_continuation_job (hj : K .job) (hr : K .remember)
    (hs : K .state) (he : K .event) (hb : ∀ kind, K (.bureau kind)) (hu : K .submission)
    (request : MessageEnvelope) (a : AgentName) (m : MessageId) (t : Timestamp) :
    Touches K (submit_continuation_job config env request a m t) := by
  unfold submit_continuation_job
  refine touches_bind (touches_validate_target_available config env a) fun _ => ?_
  refine touches_bind (touches_spec_for config a) fun spec => ?_
  refine touches_bind (touches_dispatcher_new_id (hb _)) fun job_id => ?_
  refine touches_bind (touches_pending_status a) fun status => ?_
  refine touches_bind (touches_enqueue_submitted_job hj hr hs he _ t) fun _ => ?_
  refine touches_bind (by grind) fun _ => ?_
  grind

section Continuations

variable (hj : K .job) (hr : K .remember) (hs : K .state) (hv : K .event) (he : K .edge)
  (hb : ∀ kind, K (.bureau kind)) (hu : K .submission)
include hj hr hs hv he hb hu

end Continuations

@[grind ←] theorem touches_queued_continuation_job (edge : CallbackEdgeRecord) :
    Touches K (queued_continuation_job edge) := by
  unfold queued_continuation_job
  grind

end Chains

section Submissions

open Submission

variable (config : DispatcherConfig) (env : DispatcherEnvironment)

@[grind ←] theorem touches_validate_sender (sender : Actor) :
    Touches K (validate_sender config sender) := by
  unfold validate_sender
  grind

@[grind ←] theorem touches_validate_request_body (request : MessageEnvelope) :
    Touches K (validate_request_body request) := touches_rejectIf _ _

@[grind ←] theorem touches_validate_targets_available (targets : List AgentName) :
    Touches K (validate_targets_available config env targets) := by
  unfold validate_targets_available
  grind

@[grind ←] theorem touches_submission_id_for (h : K (.bureau .new_id))
    (request : MessageEnvelope) : Touches K (submission_id_for request) := by
  unfold submission_id_for
  grind

@[grind ←] theorem touches_record_broadcast (h : K .submission) (plan : SubmissionPlan)
    (jobs : List JobRecord) (t : Timestamp) : Touches K (record_broadcast plan jobs t) := by
  unfold record_broadcast
  grind

@[grind ←] theorem touches_jobs_for_resubmission (attempts : List AttemptRecord)
    (targets : List AgentName) : Touches K (jobs_for_resubmission config attempts targets) := by
  induction targets with
  | nil => trivial
  | cons target targets ih =>
    unfold jobs_for_resubmission
    refine touches_bind (touches_spec_for config target) fun spec => ?_
    refine touches_bind (touches_rejectIf _ _) fun _ => ?_
    grind

section Writers

variable (hj : K .job) (hr : K .remember) (hs : K .state) (hv : K .event)
  (hb : ∀ kind, K (.bureau kind)) (hu : K .submission)
include hj hr hs hv hb hu

end Writers

end Submissions

section Completions

open Callbacks Completion

variable (config : DispatcherConfig) (env : DispatcherEnvironment)

@[grind ←] theorem touches_retryable_failure_context (job : JobRecord)
    (d : Model.CompletionDecision) : Touches K (retryable_failure_context env job d) := by
  unfold retryable_failure_context
  grind

@[grind ←] theorem touches_automatic_retry_plan (job : JobRecord) (d : Model.CompletionDecision) :
    Touches K (automatic_retry_plan env job d) := by
  unfold automatic_retry_plan
  grind

@[grind ←] theorem touches_reply_decision (hv : K .event) (current terminal : JobRecord)
    (d : Model.CompletionDecision) (t : Timestamp) :
    Touches K (reply_decision_without_automatic_retry env current terminal d t) := by
  unfold reply_decision_without_automatic_retry
  grind

@[grind =] theorem requeues_terminal_event (status : CompletionStatus) :
    requeues (terminal_event status) = false := by
  cases status <;> rfl

@[grind ←] theorem touches_empty_result_notice_decision (terminal : JobRecord)
    (d : Model.CompletionDecision) (deliver : Bool) :
    Touches K (empty_result_notice_decision env terminal d deliver) := by
  unfold empty_result_notice_decision
  grind

section Writers

variable (hj : K .job) (hr : K .remember) (hs : K .state) (hv : K .event)
  (hb : ∀ kind, K (.bureau kind)) (hu : K .submission)
include hj hr hs hv hb hu

variable (he : K .edge) (hp : K .replied)
include he hp

omit hj hr hs hb hu he hp in
@[grind ←] theorem touches_rewritten_decision (current terminal : JobRecord)
    (d : Model.CompletionDecision) (failure : Option Model.CompletionDecision) (t : Timestamp) :
    Touches K (rewritten_decision env current terminal d failure t) := by
  unfold rewritten_decision
  grind

end Writers

section Whole

variable (h : ∀ kind, K kind)
include h

end Whole

end Completions

section Whole

open Callbacks Completion ReplyDelivery JobStart DispatcherOperations

variable (config : DispatcherConfig) (env : DispatcherEnvironment)

@[grind ←] theorem touches_delivery_never_reached_provider (current : JobRecord) :
    Touches K (delivery_never_reached_provider env current) := by
  unfold delivery_never_reached_provider
  grind

@[grind ←] theorem touches_still_claimable (hr : K .remember) (job : JobRecord)
    (a : AgentName) : Touches K (still_claimable config job a) := by
  unfold still_claimable
  grind

@[grind ←] theorem touches_already_retried (hr : K .remember) (job : JobRecord)
    (p : Option PayloadRef) : Touches K (already_retried config job p) := by
  unfold already_retried
  grind

@[grind ←] theorem touches_job_or_none (hr : K .remember) (j : Option JobId) :
    Touches K (job_or_none config j) := by
  unfold job_or_none
  grind

@[grind ←] theorem touches_execution_start (h : K .start) (running : JobRecord) :
    Touches K (execution_start env running) :=
  ⟨Or.inr ⟨.start, h, .start _⟩, fun _ => trivial⟩

end Whole

end ClaudeCodeBridge.Analysis
