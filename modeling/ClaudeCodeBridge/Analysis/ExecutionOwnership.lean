import ClaudeCodeBridge.Program.History
import ClaudeCodeBridge.Model.ExecutionThreads
import ClaudeCodeBridge.Analysis.RestoredDecisions

/-!
# Who owns a provider submission

A history of the service says which submission of a job is current (`currentRef`), which
start token is awaited (`awaited`) and whether the job has ended and not been started
since (`isQuiet`).  A history is `Lawful` when every event was `Enabled` by the events
before it: a submission becomes active only under the awaited token, a poll result only
in place of the polled submission, and nothing is written for a quiet job.

The ladder: every access of a call extends a lawful history lawfully and keeps the maps
in step with it (`Owned`); so does any interleaving of any threads
(`Program.Threads.safe_run`), and what is claimed of the service is read off the lawful
history.
-/

set_option autoImplicit false

namespace ClaudeCodeBridge.Analysis

open Program
open Model

variable {ι : Type}

def tokenOf : ExecutionEvent ι → Option (StartToken ι)
  | .start_began t _ | .start_failed t _ | .start_returned t _ _ | .started t _ _
  | .discarded t _ _ => some t
  | _ => none

def refAfter (job_id : JobId) (ref : Option ℕ) : ExecutionEvent ι → Option ℕ
  | .started _ j submission | .polled j _ submission | .injected j submission _ _ =>
    if j = job_id then some submission.ref else ref
  | .released j | .ended j => if j = job_id then none else ref
  | _ => ref

def currentRef (h : List (ExecutionEvent ι)) (job_id : JobId) : Option ℕ :=
  h.foldl (refAfter job_id) none

def awaitedAfter (job_id : JobId) (token : Option (StartToken ι)) :
    ExecutionEvent ι → Option (StartToken ι)
  | .start_began t j => if j = job_id then some t else token
  | .start_failed _ j | .started _ j _ | .ended j => if j = job_id then none else token
  | _ => token

def awaited (h : List (ExecutionEvent ι)) (job_id : JobId) : Option (StartToken ι) :=
  h.foldl (awaitedAfter job_id) none

def quietAfter (job_id : JobId) (ended : Bool) : ExecutionEvent ι → Bool
  | .ended j => if j = job_id then true else ended
  | .start_began _ j => if j = job_id then false else ended
  | _ => ended

def isQuiet (h : List (ExecutionEvent ι)) (job_id : JobId) : Bool :=
  h.foldl (quietAfter job_id) false

/-- A submission of the job becomes active, or its file is written. -/
def touches (job_id : JobId) : ExecutionEvent ι → Bool
  | .started _ j _ | .polled j _ _ | .injected j _ _ _ | .saved j => j = job_id
  | _ => false

/-- The file of the job is overwritten as if nothing were pending, and no decision was. -/
def Overwritten (before after : Option PersistedExecutionState) : Prop :=
  ∀ old, before = some old → old.pending_decision = none ∧
    ∃ new, after = some new ∧ new.pending_items = []

/-- The event may follow these. -/
def Enabled (h : List (ExecutionEvent ι)) (e : ExecutionEvent ι) : Prop :=
  (∀ job_id, touches job_id e = true → isQuiet h job_id = false) ∧
    match e with
    | .start_began t _ => ∀ earlier ∈ h, tokenOf earlier ≠ some t
    | .started t job_id submission =>
      awaited h job_id = some t ∧ .start_returned t job_id submission ∈ h
    | .discarded t job_id submission => .start_returned t job_id submission ∈ h ∧
      (∀ j s, .started t j s ∉ h) ∧ ∀ j s, .discarded t j s ∉ h
    | .polled job_id ref _ => currentRef h job_id = some ref
    | .injected _ _ before after => Overwritten before after
    | _ => True

/-- What adapters are relied on for: they answer for the job they are asked about. -/
structure AnswersForJob (env : Environment) : Prop where
  registry : ∀ n, KeepsBinding (env.registry n)
  start : ∀ n job context now submission, env.start n job context now = .ok submission →
    submission.value.job_id = job.job_id

/-- The maps say what the history says. -/
structure Owned (x : Executions ι) : Prop where
  lawful : Lawful Enabled x.history
  fresh : ∀ e ∈ x.history, ∀ t, tokenOf e = some t → t.number < x.accesses
  identity : ∀ job_id, x.identity.get job_id = currentRef x.history job_id
  active : ∀ job_id, (x.service.active.get job_id).isSome = (x.identity.get job_id).isSome
  starting : ∀ job_id, x.starting.get job_id = awaited x.history job_id
  quiet : ∀ job_id, isQuiet x.history job_id = true →
    x.identity.get job_id = none ∧ x.starting.get job_id = none ∧ x.service.load job_id = none
  bound : Bound x.service

def Undecided (x : Executions ι) : Prop :=
  ∀ job_id persisted, (x.service.active.get job_id).isSome = true →
    x.service.load job_id = some persisted → persisted.pending_decision = none

variable {x y : Executions ι}

/-- The rule for an access that notes one event. -/
theorem Owned.extend (h : Owned x) (e : ExecutionEvent ι) (hhistory : y.history = x.history ++ [e])
    (henabled : Enabled x.history e) (hfresh : ∀ t, tokenOf e = some t → t.number < y.accesses)
    (haccesses : x.accesses ≤ y.accesses)
    (hidentity : ∀ job_id, y.identity.get job_id = refAfter job_id (x.identity.get job_id) e)
    (hactive : ∀ job_id, (y.service.active.get job_id).isSome = (y.identity.get job_id).isSome)
    (hstarting : ∀ job_id, y.starting.get job_id = awaitedAfter job_id (x.starting.get job_id) e)
    (hload : ∀ job_id, quietAfter job_id (isQuiet x.history job_id) e = true →
      touches job_id e = false → y.service.load job_id = none)
    (hbound : Bound y.service) : Owned y := by
  constructor
  · rw [hhistory]
    exact h.lawful.append henabled
  · intro e' he' t ht
    rw [hhistory, List.mem_append, List.mem_singleton] at he'
    rcases he' with he' | rfl
    · exact Nat.lt_of_lt_of_le (h.fresh e' he' t ht) haccesses
    · exact hfresh t ht
  · intro job_id
    rw [hidentity, hhistory, h.identity]
    simp [currentRef]
  · exact hactive
  · intro job_id
    rw [hstarting, hhistory, h.starting]
    simp [awaited]
  · intro job_id hquiet
    have hafter : quietAfter job_id (isQuiet x.history job_id) e = true := by
      rw [hhistory] at hquiet
      simpa [isQuiet] using hquiet
    have huntouched : touches job_id e = false := by
      by_contra htouches
      rw [Bool.not_eq_false] at htouches
      have hbusy := henabled.1 job_id htouches
      cases e <;> simp_all [touches, quietAfter]
    refine ⟨?_, ?_, hload job_id hafter huntouched⟩
    · rw [hidentity]
      cases e with
      | ended j =>
        by_cases hj : j = job_id
        · simp [refAfter, hj]
        · simp only [quietAfter, if_neg hj] at hafter
          simp only [refAfter, if_neg hj]
          exact (h.quiet job_id hafter).1
      | start_began t j =>
        simp only [quietAfter] at hafter
        split at hafter
        · simp at hafter
        · exact (h.quiet job_id hafter).1
      | _ =>
        simp only [quietAfter] at hafter
        have hold := (h.quiet job_id hafter).1
        simp_all [refAfter, touches]
    · rw [hstarting]
      cases e with
      | ended j =>
        by_cases hj : j = job_id
        · simp [awaitedAfter, hj]
        · simp only [quietAfter, if_neg hj] at hafter
          simp only [awaitedAfter, if_neg hj]
          exact (h.quiet job_id hafter).2.1
      | start_began t j =>
        by_cases hj : j = job_id
        · simp [quietAfter, hj] at hafter
        · simp only [quietAfter, if_neg hj] at hafter
          simp only [awaitedAfter, if_neg hj]
          exact (h.quiet job_id hafter).2.1
      | _ =>
        simp only [quietAfter] at hafter
        have hold := (h.quiet job_id hafter).2.1
        simp_all [awaitedAfter, touches]
  · exact hbound

/-- An event of one job touches no quiet job, as this one is not. -/
theorem untouched_quiet {h : List (ExecutionEvent ι)} {job_id : JobId}
    (hbusy : isQuiet h job_id = false) (k : JobId) (hk : decide (job_id = k) = true) :
    isQuiet h k = false := by
  rw [decide_eq_true_eq] at hk
  rw [← hk]
  exact hbusy

/-- The rule for an access that notes nothing. -/
theorem Owned.same (h : Owned x) (hhistory : y.history = x.history)
    (haccesses : x.accesses ≤ y.accesses) (hidentity : y.identity = x.identity)
    (hstarting : y.starting = x.starting)
    (hactive : ∀ job_id, (y.service.active.get job_id).isSome =
      (x.service.active.get job_id).isSome)
    (hload : ∀ job_id, x.service.load job_id = none → y.service.load job_id = none)
    (hbound : Bound y.service) : Owned y := by
  constructor
  · rw [hhistory]
    exact h.lawful
  · intro e he t ht
    rw [hhistory] at he
    exact Nat.lt_of_lt_of_le (h.fresh e he t ht) haccesses
  · rw [hhistory, hidentity]
    exact h.identity
  · intro job_id
    rw [hactive, hidentity]
    exact h.active job_id
  · rw [hhistory, hstarting]
    exact h.starting
  · intro job_id hquiet
    rw [hhistory] at hquiet
    obtain ⟨hnone, hnot, hfile⟩ := h.quiet job_id hquiet
    rw [hidentity, hstarting]
    exact ⟨hnone, hnot, hload job_id hfile⟩
  · exact hbound

/-- The events that belong to no start. -/
def Untokened (x y : Executions ι) : Prop :=
  ∃ later, y.history = x.history ++ later ∧ ∀ e ∈ later, tokenOf e = none

/-- What holds of the later events holds of those of two histories in a row. -/
theorem grown_trans {P : ExecutionEvent ι → Prop} {first second third : List (ExecutionEvent ι)}
    (h : ∃ later, second = first ++ later ∧ ∀ e ∈ later, P e)
    (h' : ∃ later, third = second ++ later ∧ ∀ e ∈ later, P e) :
    ∃ later, third = first ++ later ∧ ∀ e ∈ later, P e := by
  obtain ⟨later, rfl, hlater⟩ := h
  obtain ⟨last, rfl, hlast⟩ := h'
  exact ⟨later ++ last, List.append_assoc _ _ _, List.forall_mem_append.mpr ⟨hlater, hlast⟩⟩

theorem Untokened.trans {z : Executions ι} (h : Untokened x y) (h' : Untokened y z) :
    Untokened x z := grown_trans h h'

/-- Writing the file of an active job. -/
structure Persisted (job_id : JobId) (decision : Option TerminalDecision)
    (items : List CompletionItem) (x y : Executions ι) : Prop where
  owned : Owned y
  history : Untokened x y
  active : y.service.active = x.service.active
  identity : y.identity = x.identity
  starting : y.starting = x.starting
  accesses : y.accesses = x.accesses
  others : ∀ k, k ≠ job_id → y.service.load k = x.service.load k
  file : ∀ persisted, y.service.load job_id = some persisted →
    persisted.pending_decision = decision ∧ persisted.pending_items = items
  kept : (x.service.load job_id).isSome = true → (y.service.load job_id).isSome = true
  busy : ∀ k, isQuiet y.history k = isQuiet x.history k

theorem persist_persisted (env : Environment) {job_id : JobId} {submission : ProviderSubmission}
    (h : Owned x) (hactive : x.service.active.get job_id = some submission)
    (hbusy : isQuiet x.history job_id = false) (decision : Option TerminalDecision)
    (items : List CompletionItem) :
    Persisted job_id decision items x (x.persist env job_id decision items) := by
  have hjob : submission.job_id = job_id := h.bound.active job_id submission hactive
  obtain ⟨state, hsave, hstate, _, hdecision, hitems⟩ :=
    persist_submission_of_active (env.registry x.accesses) hactive decision items []
  have hload : ∀ k, (x.service.save state).load k =
      if k = job_id then x.service.state_store.map fun _ => state else x.service.load k := by
    intro k
    rw [load_save, hstate, hjob]
  unfold Executions.persist
  rw [hactive, hsave]
  cases hstore : x.service.state_store with
  | none =>
    have hsame : ∀ k, (x.service.save state).load k = x.service.load k := by
      intro k
      unfold ExecutionService.load ExecutionService.save
      rw [hstore]
      rfl
    refine ⟨h.same rfl le_rfl rfl rfl (fun _ => rfl) (fun k hk => (hsame k).trans hk)
      (bound_save h.bound), ⟨[], by simp, by simp⟩, rfl, rfl, rfl, rfl, fun k _ => hsame k, ?_, ?_,
      fun _ => rfl⟩
    · intro persisted hpersisted
      simp [hload, hstore] at hpersisted
    · intro hsome
      simpa [hsame] using hsome
  | some store =>
    refine ⟨h.extend (.saved submission.job_id) rfl ?_ ?_ le_rfl (fun _ => rfl) h.active
      (fun _ => rfl) ?_ (bound_save h.bound), ⟨[.saved submission.job_id], rfl, ?_⟩, rfl, rfl,
      rfl, rfl, ?_, ?_, ?_, ?_⟩
    · exact ⟨untouched_quiet (hjob ▸ hbusy), trivial⟩
    · exact fun t ht => absurd ht (by simp [tokenOf])
    · intro k hquiet huntouched
      simp only [touches, decide_eq_false_iff_not] at huntouched
      have hk : k ≠ job_id := fun heq => huntouched (hjob.trans heq.symm)
      show (x.service.save state).load k = none
      rw [hload, if_neg hk]
      exact (h.quiet k hquiet).2.2
    · intro e he
      rw [List.mem_singleton] at he
      rw [he]
      rfl
    · intro k hk
      show (x.service.save state).load k = _
      rw [hload, if_neg hk]
    · intro persisted hpersisted
      have hpersisted' : (x.service.save state).load job_id = some persisted := hpersisted
      rw [hload, if_pos rfl, hstore] at hpersisted'
      simp only [Option.map_some, Option.some.injEq] at hpersisted'
      rw [← hpersisted']
      exact ⟨hdecision, hitems⟩
    · intro _
      show ((x.service.save state).load job_id).isSome = true
      rw [hload, if_pos rfl, hstore]
      rfl
    · intro k
      simp [Executions.note, isQuiet, quietAfter]

abbrev accessed (x : Executions ι) : Executions ι := { x with accesses := x.accesses + 1 }

/-- Thread `i` notes no event of another thread's start, and a return of `adapter.start`
only if `returns`. -/
def Noted (i : ι) (returns : Bool) (e : ExecutionEvent ι) : Prop :=
  (∀ t, tokenOf e = some t → t.thread = i) ∧
    (returns = false → ∀ t job_id submission, e ≠ .start_returned t job_id submission)

/-- An access of thread `i` that keeps the maps in step with the history. -/
structure Access (i : ι) (returns : Bool) (x y : Executions ι) : Prop where
  owned : Owned y
  undecided : Undecided y
  history : ∃ later, y.history = x.history ++ later ∧ ∀ e ∈ later, Noted i returns e

variable {e : ExecutionEvent ι}

theorem noted_of_untokened (i : ι) (htoken : tokenOf e = none) : Noted i false e := by
  refine ⟨fun t ht => ?_, fun _ t job_id submission he => ?_⟩
  · rw [htoken] at ht
    simp at ht
  · rw [he] at htoken
    simp [tokenOf] at htoken

theorem Untokened.of_thread (h : Untokened x y) (i : ι) :
    ∃ later, y.history = x.history ++ later ∧ ∀ e ∈ later, Noted i false e := by
  obtain ⟨later, hlater, htokens⟩ := h
  exact ⟨later, hlater, fun e he => noted_of_untokened i (htokens e he)⟩

theorem untokened_refl (x : Executions ι) : Untokened x x := ⟨[], by simp, by simp⟩

theorem untokened_note (h : y.history = x.history ++ [e])
    (htoken : tokenOf e = none) : Untokened x y := by
  refine ⟨[e], h, ?_⟩
  intro e' he'
  rw [List.mem_singleton] at he'
  rw [he']
  exact htoken

theorem Owned.accessed (h : Owned x) : Owned (accessed x) :=
  h.same rfl (Nat.le_succ _) rfl rfl (fun _ => rfl) (fun _ hk => hk) h.bound

theorem access_read (i : ι) (h : Owned x) (hu : Undecided x) : Access i false x (accessed x) where
  owned := h.accessed
  undecided := hu
  history := (untokened_refl x).of_thread i

variable {i : ι} {env : Environment} {job_id : JobId}

variable (env) in
theorem access_begin_start (h : Owned x) (hu : Undecided x) (job : JobRecord)
    (context : Option ProviderRuntimeContext) :
    Access i false x (accessed (Executions.begin_start env i job context x).2) ∧
    ∀ t now, (Executions.begin_start env i job context x).1 = some (t, now) →
      t.thread = i ∧ t.number < x.accesses + 1 ∧ ∀ e ∈ x.history, tokenOf e ≠ some t := by
  have hnew : ∀ e ∈ x.history, tokenOf e ≠ some (⟨i, x.accesses⟩ : StartToken ι) := by
    intro e he ht
    exact absurd (h.fresh e he _ ht) (lt_irrefl _)
  unfold Executions.begin_start
  simp only
  cases hfault : env.fault x.accesses job with
  | some replay =>
    refine ⟨⟨h.same rfl (Nat.le_succ _) rfl rfl (fun _ => rfl) (fun _ hk => hk)
      ⟨h.bound.file, h.bound.active⟩, hu, (untokened_refl x).of_thread i⟩, ?_⟩
    exact fun t now ht => absurd ht (by simp)
  | none =>
    simp only
    split
    · exact ⟨access_read i h hu, fun t now ht => absurd ht (by simp)⟩
    · refine ⟨⟨?_, hu, ?_⟩, ?_⟩
      · refine h.extend (.start_began ⟨i, x.accesses⟩ job.job_id) rfl ?_ ?_ (Nat.le_succ _)
          (fun _ => rfl) h.active ?_ ?_ h.bound
        · exact ⟨fun k hk => absurd hk (by simp [touches]), hnew⟩
        · intro t ht
          simp only [tokenOf, Option.some.injEq] at ht
          rw [← ht]
          exact Nat.lt_succ_self _
        · exact fun k => Dict.get_set _ _ k _
        · intro k hquiet _
          simp only [quietAfter] at hquiet
          split at hquiet
          · simp at hquiet
          · exact (h.quiet k hquiet).2.2
      · refine ⟨[.start_began ⟨i, x.accesses⟩ job.job_id], rfl, ?_⟩
        intro e he
        rw [List.mem_singleton] at he
        rw [he]
        exact ⟨fun t ht => by rw [tokenOf, Option.some.injEq] at ht; rw [← ht],
          fun _ _ _ _ => by simp⟩
      · intro t now ht
        simp only [Option.some.injEq, Prod.mk.injEq] at ht
        rw [← ht.1]
        exact ⟨rfl, Nat.lt_succ_self _, hnew⟩

/-- An event that changes no map. -/
def silent : ExecutionEvent ι → Bool
  | .start_returned _ _ _ | .discarded _ _ _ | .cancelled _ => true
  | _ => false

theorem access_note {returns : Bool} (h : Owned x) (hu : Undecided x)
    (hsilent : silent e = true) (henabled : Enabled x.history e)
    (htoken : ∀ t, tokenOf e = some t → t.thread = i ∧ t.number < x.accesses)
    (hreturns : returns = false → ∀ t job_id submission, e ≠ .start_returned t job_id submission) :
    Access i returns x (accessed (x.note e)) := by
  refine ⟨?_, hu, ?_⟩
  · refine h.extend e rfl henabled ?_ (Nat.le_succ _) ?_ h.active ?_ ?_ h.bound
    · exact fun t ht => Nat.lt_succ_of_lt (htoken t ht).2
    · intro k
      cases e <;> first | rfl | simp [silent] at hsilent
    · intro k
      cases e <;> first | rfl | simp [silent] at hsilent
    · intro k hquiet _
      refine (h.quiet k ?_).2.2
      cases e <;> first | exact hquiet | simp [silent] at hsilent
  · refine ⟨[e], rfl, ?_⟩
    intro e' he'
    rw [List.mem_singleton] at he'
    rw [he']
    exact ⟨fun t ht => (htoken t ht).1, hreturns⟩

variable (job_id) in
theorem access_withdraw [DecidableEq ι] {t : StartToken ι} (h : Owned x) (hu : Undecided x)
    (hthread : t.thread = i) (hnumber : t.number < x.accesses) :
    Access i false x (accessed (Executions.withdraw t job_id x).2) := by
  unfold Executions.withdraw
  split
  · refine ⟨?_, hu, ?_⟩
    · refine h.extend (.start_failed t job_id) rfl ?_ ?_ (Nat.le_succ _) (fun _ => rfl) h.active
        ?_ ?_ h.bound
      · exact ⟨fun k hk => absurd hk (by simp [touches]), trivial⟩
      · intro t' ht'
        simp only [tokenOf, Option.some.injEq] at ht'
        rw [← ht']
        exact Nat.lt_succ_of_lt hnumber
      · exact fun k => Dict.get_pop _ _ k
      · exact fun k hquiet _ => (h.quiet k hquiet).2.2
    · refine ⟨[.start_failed t job_id], rfl, ?_⟩
      intro e he
      rw [List.mem_singleton] at he
      rw [he]
      exact ⟨fun t' ht' => by rw [tokenOf, Option.some.injEq] at ht'; rw [← ht']; exact hthread,
        fun _ _ _ _ => by simp⟩
  · exact access_read i h hu

theorem load_finish (s : ExecutionService) (j k : JobId) :
    (s.finish j).load k = if k = j then none else s.load k := load_remove s j k

theorem access_remove_job (h : Owned x) (hu : Undecided x) :
    Access i false x (accessed (x.remove_job job_id)) := by
  refine ⟨?_, ?_, (untokened_note rfl rfl).of_thread i⟩
  · refine h.extend (.ended job_id) rfl ?_ ?_ (Nat.le_succ _) ?_ ?_ ?_ ?_ (bound_finish h.bound _)
    · exact ⟨fun k hk => absurd hk (by simp [touches]), trivial⟩
    · exact fun t ht => absurd ht (by simp [tokenOf])
    · exact fun k => Dict.get_pop _ _ k
    · intro k
      simp only [Executions.remove_job, Executions.note, ExecutionService.finish, Dict.get_pop]
      split
      · rfl
      · exact h.active k
    · exact fun k => Dict.get_pop _ _ k
    · intro k hquiet _
      show (x.service.finish job_id).load k = none
      rw [load_finish]
      split
      · rfl
      · rename_i hk
        simp only [quietAfter, if_neg (fun heq => hk (Eq.symm heq))] at hquiet
        exact (h.quiet k hquiet).2.2
  · intro k persisted hactive hload
    have hload' : (x.service.finish job_id).load k = some persisted := hload
    rw [load_finish] at hload'
    split at hload'
    · simp at hload'
    · rename_i hk
      refine hu k persisted ?_ hload'
      have hactive' : ((x.service.active.pop job_id).get k).isSome = true := hactive
      rwa [Dict.get_pop_of_ne _ hk] at hactive'

/-- The rule for an event that installs a submission. -/
theorem owned_install {z : Executions ι} {submission : SubmissionObject} (h : Owned x)
    (hjob : submission.value.job_id = job_id) (hhistory : z.history = x.history ++ [e])
    (henabled : Enabled x.history e) (htoken : ∀ t, tokenOf e = some t → t.number < x.accesses)
    (hactive : z.service.active = x.service.active.set job_id submission.value)
    (hload : ∀ k, z.service.load k = x.service.load k)
    (hidentity : z.identity = x.identity.set job_id submission.ref)
    (href : ∀ k ref, refAfter k ref e = if job_id = k then some submission.ref else ref)
    (hstarting : ∀ k, z.starting.get k = awaitedAfter k (x.starting.get k) e)
    (hquiet : ∀ k ended, quietAfter k ended e = ended) (haccesses : z.accesses = x.accesses)
    (hbusy : isQuiet x.history job_id = false) :
    Owned z ∧ z.service.active.get job_id = some submission.value ∧
      isQuiet z.history job_id = false := by
  have hget : z.service.active.get job_id = some submission.value := by
    rw [hactive, Dict.get_set_self]
  have hbusy' : isQuiet z.history job_id = false := by
    rw [hhistory]
    simpa [isQuiet, hquiet] using hbusy
  refine ⟨h.extend e hhistory henabled ?_ (le_of_eq haccesses.symm) ?_ ?_ hstarting ?_ ?_, hget,
    hbusy'⟩
  · intro t ht
    rw [haccesses]
    exact htoken t ht
  · intro k
    rw [href, hidentity, Dict.get_set]
  · intro k
    rw [hactive, hidentity, Dict.get_set, Dict.get_set]
    split
    · rfl
    · exact h.active k
  · intro k hk _
    rw [hquiet] at hk
    rw [hload]
    exact (h.quiet k hk).2.2
  · refine ⟨?_, ?_⟩
    · intro k persisted hpersisted
      rw [hload] at hpersisted
      exact h.bound.file k persisted hpersisted
    · intro k value hvalue
      rw [hactive, Dict.get_set] at hvalue
      split at hvalue
      · rename_i hk
        rw [← Option.some.inj hvalue, hjob, hk]
      · exact h.bound.active k value hvalue

theorem Persisted.undecided {decision : Option TerminalDecision} {items : List CompletionItem}
    {z w : Executions ι} (hwrite : Persisted job_id decision items z w) (hu : Undecided x)
    (hload : ∀ k, z.service.load k = x.service.load k) {value : ProviderSubmission}
    (hactive : z.service.active = x.service.active.set job_id value) (k : JobId)
    (persisted : PersistedExecutionState) (hsome : (w.service.active.get k).isSome = true)
    (hpersisted : w.service.load k = some persisted) :
    persisted.pending_decision = none ∨ k = job_id ∧ persisted.pending_decision = decision := by
  by_cases hk : k = job_id
  · rw [hk] at hpersisted
    exact Or.inr ⟨hk, (hwrite.file persisted hpersisted).1⟩
  · rw [hwrite.others k hk, hload] at hpersisted
    rw [hwrite.active, hactive, Dict.get_set_of_ne _ hk] at hsome
    exact Or.inl (hu k persisted hsome hpersisted)

theorem Persisted.undecided_none {items : List CompletionItem} {z w : Executions ι}
    (hwrite : Persisted job_id none items z w) (hu : Undecided x)
    (hload : ∀ k, z.service.load k = x.service.load k) {value : ProviderSubmission}
    (hactive : z.service.active = x.service.active.set job_id value) : Undecided w := by
  intro k persisted hsome hpersisted
  rcases hwrite.undecided hu hload hactive k persisted hsome hpersisted with hnone | ⟨_, hnone⟩
  · exact hnone
  · exact hnone

theorem Owned.not_quiet_of_awaited (h : Owned x) {t : StartToken ι}
    (hstarting : x.starting.get job_id = some t) : isQuiet x.history job_id = false := by
  by_contra hquiet
  rw [Bool.not_eq_false] at hquiet
  rw [(h.quiet job_id hquiet).2.1] at hstarting
  simp at hstarting

theorem Owned.not_quiet_of_current (h : Owned x) {ref : ℕ}
    (hidentity : x.identity.get job_id = some ref) : isQuiet x.history job_id = false := by
  by_contra hquiet
  rw [Bool.not_eq_false] at hquiet
  rw [(h.quiet job_id hquiet).1] at hidentity
  simp at hidentity

variable (env) in
theorem access_settle_start [DecidableEq ι] {t : StartToken ι} {submission : SubmissionObject}
    (h : Owned x) (hu : Undecided x) (hthread : t.thread = i) (hnumber : t.number < x.accesses)
    (hjob : submission.value.job_id = job_id)
    (hreturned : .start_returned t job_id submission ∈ x.history)
    (context : Option ProviderRuntimeContext) :
    Access i false x (accessed (Executions.settle_start env t job_id context submission x).2) ∧
    ((Executions.settle_start env t job_id context submission x).1 = true →
      .started t job_id submission ∈
        (Executions.settle_start env t job_id context submission x).2.history) ∧
    ((Executions.settle_start env t job_id context submission x).1 = false →
      (Executions.settle_start env t job_id context submission x).2 = x) := by
  unfold Executions.settle_start
  split
  · rename_i hstarting
    have hbusy := h.not_quiet_of_awaited hstarting
    simp only
    generalize hz : Executions.note (_ : Executions ι) _ = z
    have hhistory : z.history = x.history ++ [.started t job_id submission] := by rw [← hz]; rfl
    have hload : ∀ k, z.service.load k = x.service.load k := by rw [← hz]; exact fun _ => rfl
    have hactive : z.service.active = x.service.active.set job_id submission.value := by
      rw [← hz]; rfl
    have henabled : Enabled x.history (.started t job_id submission) := by
      refine ⟨untouched_quiet hbusy, ?_, hreturned⟩
      rw [← h.starting]
      exact hstarting
    have hpopped : ∀ k, z.starting.get k =
        awaitedAfter k (x.starting.get k) (.started t job_id submission) := by
      intro k
      rw [← hz]
      exact Dict.get_pop _ _ k
    obtain ⟨hinstalled, hget, hbusy'⟩ := owned_install h hjob hhistory henabled
      (fun t' ht' => by
        simp only [tokenOf, Option.some.injEq] at ht'
        rw [← ht']
        exact hnumber)
      hactive hload (by rw [← hz]; rfl) (fun _ _ => rfl) hpopped (fun _ _ => rfl)
      (by rw [← hz]; rfl) hbusy
    have hwrite := persist_persisted env hinstalled hget hbusy' none []
    obtain ⟨later, hlater, htokens⟩ := hwrite.history
    refine ⟨⟨hwrite.owned.accessed, hwrite.undecided_none hu hload hactive, ?_⟩, ?_,
      fun hfalse => absurd hfalse (by simp)⟩
    · refine ⟨.started t job_id submission :: later, ?_, ?_⟩
      · show (z.persist env job_id none []).history = _
        rw [hlater, hhistory, List.append_assoc, List.singleton_append]
      · intro e he
        rcases List.mem_cons.mp he with rfl | he
        · exact ⟨fun t' ht' => by rw [tokenOf, Option.some.injEq] at ht'; rw [← ht']; exact hthread,
            fun _ _ _ _ => by simp⟩
        · exact noted_of_untokened i (htokens e he)
    · intro _
      rw [hlater, hhistory]
      simp
  · exact ⟨access_read i h hu, by simp, fun _ => rfl⟩

theorem active_object_eq {submission : SubmissionObject}
    (hobject : x.active_object job_id = some submission) :
    x.service.active.get job_id = some submission.value ∧
      x.identity.get job_id = some submission.ref := by
  unfold Executions.active_object at hobject
  split at hobject
  · rename_i value ref hvalue href
    cases hobject
    exact ⟨hvalue, href⟩
  · simp at hobject

theorem persist_overwrites (env : Environment) {submission : ProviderSubmission}
    {old : PersistedExecutionState} (hactive : x.service.active.get job_id = some submission)
    (hjob : submission.job_id = job_id) (hload : x.service.load job_id = some old) :
    ∃ new, (x.persist env job_id none []).service.load job_id = some new ∧
      new.pending_items = [] := by
  obtain ⟨state, hsave, hstate, _, _, hitems⟩ :=
    persist_submission_of_active (env.registry x.accesses) hactive none [] []
  have hservice : (x.persist env job_id none []).service = x.service.save state := by
    unfold Executions.persist
    rw [hactive, hsave]
    cases x.service.state_store <;> rfl
  cases hstore : x.service.state_store with
  | none => simp [ExecutionService.load, hstore] at hload
  | some store =>
    refine ⟨state, ?_, hitems⟩
    rw [hservice, load_save, if_pos (by rw [hstate, hjob]), hstore]
    rfl

theorem access_inject (h : Owned x) (hu : Undecided x) (request : ActiveFollowupRequest) :
    Access i false x (accessed (Executions.inject_active_followup env request x).2) := by
  unfold Executions.inject_active_followup
  split
  · exact access_read i h hu
  · rename_i submission hobject
    obtain ⟨hvalue, href⟩ := active_object_eq hobject
    have hjob := h.bound.active request.job_id submission.value hvalue
    have hbusy := h.not_quiet_of_current href
    split
    · exact access_read i h hu
    · split
      · exact access_read i h hu
      · split
        · exact access_read i h hu
        · rename_i updated _
          split
          · exact access_read i h hu
          · rename_i hbinding
            rw [not_or, not_not, not_not] at hbinding
            have hjob' : updated.value.job_id = request.job_id := hbinding.1.trans hjob
            simp only
            generalize hafter :
              ((x.set_active request.job_id updated).persist env request.job_id none
                []).service.load request.job_id = after
            generalize hz : Executions.note (_ : Executions ι) _ = z
            have hhistory : z.history = x.history ++ [.injected request.job_id updated
                (x.service.load request.job_id) after] := by rw [← hz]; rfl
            have hload : ∀ k, z.service.load k = x.service.load k := by
              rw [← hz]; exact fun _ => rfl
            have hactive : z.service.active =
                x.service.active.set request.job_id updated.value := by rw [← hz]; rfl
            have henabled : Enabled x.history (.injected request.job_id updated
                (x.service.load request.job_id) after) := by
              refine ⟨untouched_quiet hbusy, ?_⟩
              intro old hold
              refine ⟨hu request.job_id old (by rw [hvalue]; rfl) hold, ?_⟩
              have hold' : (x.set_active request.job_id updated).service.load request.job_id =
                some old := hold
              obtain ⟨new, hnew, hitems⟩ := persist_overwrites env
                (Dict.get_set_self _ _ _) hjob' hold'
              exact ⟨new, hafter.symm.trans hnew, hitems⟩
            obtain ⟨hinstalled, hget, hbusy'⟩ := owned_install h hjob' hhistory henabled
              (fun t ht => absurd ht (by simp [tokenOf])) hactive hload (by rw [← hz]; rfl)
              (fun _ _ => rfl) (by rw [← hz]; exact fun _ => rfl) (fun _ _ => rfl)
              (by rw [← hz]; rfl) hbusy
            have hwrite := persist_persisted env hinstalled hget hbusy' none []
            exact ⟨hwrite.owned.accessed, hwrite.undecided_none hu hload hactive,
              ((untokened_note hhistory rfl).trans hwrite.history).of_thread i⟩

theorem access_rewrite {persisted state : PersistedExecutionState} (h : Owned x)
    (hu : Undecided x) (hload : x.service.load job_id = some persisted)
    (hjob : state.submission.job_id = persisted.submission.job_id)
    (hdecision : state.pending_decision = persisted.pending_decision)
    (hservice : y.service = x.service.save state ∨
      y.service = { x.service with
        pending_replays := x.service.pending_replays.pop job_id }.save state)
    (hhistory : y.history = x.history ++ [.saved persisted.submission.job_id])
    (hidentity : y.identity = x.identity) (hstarting : y.starting = x.starting)
    (haccesses : y.accesses = x.accesses + 1) : Access i false x y := by
  have hbound := h.bound.file job_id persisted hload
  have hget : ∀ k, y.service.load k =
      if k = job_id then x.service.state_store.map fun _ => state else x.service.load k := by
    intro k
    rcases hservice with hservice | hservice
    · rw [hservice, load_save, hjob, hbound]
    · rw [hservice, load_save, hjob, hbound]
      rfl
  have hactive : y.service.active = x.service.active := by
    rcases hservice with hservice | hservice <;> rw [hservice] <;> rfl
  have hbusy : isQuiet x.history job_id = false := by
    by_contra hquiet
    rw [Bool.not_eq_false] at hquiet
    rw [(h.quiet job_id hquiet).2.2] at hload
    simp at hload
  refine ⟨?_, ?_, (untokened_note hhistory rfl).of_thread i⟩
  · refine h.extend (.saved persisted.submission.job_id) hhistory
      ⟨untouched_quiet (hbound ▸ hbusy), trivial⟩ ?_ (by omega)
      (fun k => by rw [hidentity]; rfl) (fun k => by rw [hactive, hidentity]; exact h.active k)
      (fun k => by rw [hstarting]; rfl) ?_ ?_
    · exact fun t ht => absurd ht (by simp [tokenOf])
    · intro k hquiet huntouched
      simp only [touches, decide_eq_false_iff_not, hbound] at huntouched
      rw [hget, if_neg (fun heq => huntouched heq.symm)]
      exact (h.quiet k hquiet).2.2
    · refine ⟨?_, by rw [hactive]; exact h.bound.active⟩
      intro k other hother
      rw [hget] at hother
      split at hother
      · rename_i hk
        obtain ⟨_, _, rfl⟩ := Option.map_eq_some_iff.mp hother
        rw [hjob, hbound, hk]
      · exact h.bound.file k other hother
  · intro k other hsome hother
    rw [hactive] at hsome
    rw [hget] at hother
    split at hother
    · rename_i hk
      obtain ⟨_, _, rfl⟩ := Option.map_eq_some_iff.mp hother
      rw [hdecision]
      rw [hk] at hsome
      exact hu job_id persisted hsome hload
    · exact hu k other hsome hother

theorem access_acknowledge (h : Owned x) (hu : Undecided x) :
    Access i false x (accessed (Executions.acknowledge job_id x).2) := by
  unfold Executions.acknowledge ExecutionService.acknowledge
  have hsame : ({ x.service with
      pending_replays := x.service.pending_replays.pop job_id } : ExecutionService).load job_id =
        x.service.load job_id := rfl
  cases hload : x.service.load job_id with
  | none =>
    simp only [hsame, hload]
    exact ⟨h.same rfl (Nat.le_succ _) rfl rfl (fun _ => rfl) (fun _ hk => hk)
      ⟨h.bound.file, h.bound.active⟩, hu, (untokened_refl x).of_thread i⟩
  | some persisted =>
    simp only [hsame, hload]
    refine access_rewrite h hu hload ?_ ?_ (Or.inr rfl) rfl rfl rfl rfl
    · rfl
    · rfl

theorem access_acknowledge_item (h : Owned x) (hu : Undecided x) (event_seq : Option ℤ) :
    Access i false x (accessed (Executions.acknowledge_item job_id event_seq x).2) := by
  unfold Executions.acknowledge_item ExecutionService.acknowledge_item
  cases event_seq with
  | none => exact access_read i h hu
  | some event_seq =>
    cases hload : x.service.load job_id with
    | none => exact access_read i h hu
    | some persisted =>
      simp only
      split
      · exact access_read i h hu
      · refine access_rewrite h hu hload ?_ ?_ (Or.inl rfl) rfl rfl rfl rfl
        · rfl
        · rfl

theorem access_release (contexts : Dict JobId (Option ProviderRuntimeContext)) (h : Owned x)
    (hu : ∀ k, k ≠ job_id → ∀ persisted, (x.service.active.get k).isSome = true →
      x.service.load k = some persisted → persisted.pending_decision = none) :
    Access i false x (accessed { (x.pop_active job_id).note (.released job_id) with
      service := { (x.pop_active job_id).service with runtime_contexts := contexts } }) := by
  refine ⟨?_, ?_, (untokened_note rfl rfl).of_thread i⟩
  · refine h.extend (.released job_id) rfl ?_ ?_ (Nat.le_succ _) ?_ ?_ (fun _ => rfl) ?_ ?_
    · exact ⟨fun k hk => absurd hk (by simp [touches]), trivial⟩
    · exact fun t ht => absurd ht (by simp [tokenOf])
    · exact fun k => Dict.get_pop _ _ k
    · intro k
      simp only [Executions.pop_active, Executions.note, Dict.get_pop]
      split
      · rfl
      · exact h.active k
    · exact fun k hquiet _ => (h.quiet k hquiet).2.2
    · refine ⟨h.bound.file, ?_⟩
      intro k value hvalue
      have hvalue' : (x.service.active.pop job_id).get k = some value := hvalue
      by_cases hk : k = job_id
      · simp [hk] at hvalue'
      · rw [Dict.get_pop_of_ne _ hk] at hvalue'
        exact h.bound.active k value hvalue'
  · intro k persisted hsome hpersisted
    have hsome' : ((x.service.active.pop job_id).get k).isSome = true := hsome
    by_cases hk : k = job_id
    · simp [hk] at hsome'
    · rw [Dict.get_pop_of_ne _ hk] at hsome'
      exact hu k hk persisted hsome' hpersisted

theorem access_drop_active {submission : SubmissionObject} (h : Owned x) (hu : Undecided x) :
    Access i false x (accessed (Executions.drop_active job_id submission x).2) := by
  unfold Executions.drop_active
  split
  · exact access_release _ h fun k _ => hu k
  · exact access_read i h hu

theorem access_record_result {submission : SubmissionObject} {result : ProviderPollResult}
    {ref : ℕ} (h : Owned x) (hu : Undecided x) (hjob : result.submission.job_id = job_id) :
    Access i false x
      (accessed (Executions.record_result env job_id submission result ref x).2) := by
  unfold Executions.record_result
  split
  · rename_i hactive
    simp only [Executions.is_active, decide_eq_true_eq] at hactive
    have hbusy := h.not_quiet_of_current hactive
    simp only
    generalize hz : Executions.note (_ : Executions ι) _ = z
    have hhistory : z.history = x.history ++ [.polled job_id submission.ref
        ⟨ref, result.submission⟩] := by rw [← hz]; rfl
    have hload : ∀ k, z.service.load k = x.service.load k := by rw [← hz]; exact fun _ => rfl
    have hset : z.service.active = x.service.active.set job_id result.submission := by
      rw [← hz]; rfl
    have henabled : Enabled x.history (.polled job_id submission.ref ⟨ref, result.submission⟩) := by
      refine ⟨untouched_quiet hbusy, ?_⟩
      show currentRef x.history job_id = some submission.ref
      rw [← h.identity]
      exact hactive
    have hjob' : (⟨ref, result.submission⟩ : SubmissionObject).value.job_id = job_id := hjob
    obtain ⟨hinstalled, hget, hbusy'⟩ := owned_install h hjob' hhistory henabled
      (fun t ht => absurd ht (by simp [tokenOf])) hset hload (by rw [← hz]; rfl)
      (fun _ _ => rfl) (by rw [← hz]; exact fun _ => rfl) (fun _ _ => rfl) (by rw [← hz]; rfl)
      hbusy
    have hwrite := persist_persisted env hinstalled hget hbusy' result.decision result.items
    have hfiles := hwrite.undecided hu hload hset
    have huntokened := (untokened_note hhistory rfl).trans hwrite.history
    have hundecided : result.decision = none → Undecided (z.persist env job_id result.decision
        result.items) := by
      intro hnone k persisted hsome hpersisted
      rcases hfiles k persisted hsome hpersisted with hno | ⟨_, hno⟩
      · exact hno
      · rw [hno, hnone]
    have hplain : result.decision = none →
        Access i false x (accessed (z.persist env job_id result.decision result.items)) := by
      intro hnone
      exact ⟨hwrite.owned.accessed, hundecided hnone, huntokened.of_thread i⟩
    cases hdecision : result.decision with
    | none =>
      rw [hdecision] at hplain
      simp only [Option.isNone_none, Bool.and_true, Option.isSome_none, Bool.false_eq_true,
        if_false]
      split
      · exact hplain rfl
      · exact hplain rfl
    | some decision =>
      rw [hdecision] at hwrite hfiles huntokened
      simp only [Option.isNone_some, Bool.and_false, Option.isSome_some, Bool.false_eq_true,
        if_false, if_true]
      have hothers : ∀ k, k ≠ job_id → ∀ persisted,
          ((z.persist env job_id (some decision) result.items).service.active.get k).isSome →
          (z.persist env job_id (some decision) result.items).service.load k = some persisted →
          persisted.pending_decision = none := by
        intro k hk persisted hsome hpersisted
        rcases hfiles k persisted hsome hpersisted with hno | ⟨heq, _⟩
        · exact hno
        · exact absurd heq hk
      have hrelease := access_release (i := i)
        ((z.persist env job_id (some decision) result.items).service.runtime_contexts.pop job_id)
        hwrite.owned hothers
      exact ⟨hrelease.owned, hrelease.undecided,
        grown_trans (huntokened.of_thread i) hrelease.history⟩
  · exact access_read i h hu

theorem drain_pending_replays_same (s : ExecutionService) :
    s.drain_pending_replays.1.active = s.active ∧
      s.drain_pending_replays.1.state_store = s.state_store := by
  have hfold : ∀ (replays : List (JobId × List CompletionItem × Option TerminalDecision))
      (s' : ExecutionService), s'.active = s.active ∧ s'.state_store = s.state_store →
      (replays.foldl (fun s replay =>
        if s.should_keep_pending_replay replay.1 replay.2.2 then s
        else { s with pending_replays := s.pending_replays.pop replay.1 }) s').active = s.active ∧
      (replays.foldl (fun s replay =>
        if s.should_keep_pending_replay replay.1 replay.2.2 then s
        else { s with pending_replays := s.pending_replays.pop replay.1 }) s').state_store =
          s.state_store := by
    intro replays
    induction replays with
    | nil => exact fun s' hs' => hs'
    | cons replay replays ih =>
      intro s' hs'
      rw [List.foldl_cons]
      split
      · exact ih s' hs'
      · exact ih _ hs'
  exact hfold _ s ⟨rfl, rfl⟩

variable (env) in
theorem access_drain (h : Owned x) (hu : Undecided x) :
    Access i false x (accessed (Executions.drain env x).2) := by
  obtain ⟨hactive, hstore⟩ := drain_pending_replays_same x.service
  have hload : ∀ k, x.service.drain_pending_replays.1.load k = x.service.load k := by
    intro k
    unfold ExecutionService.load
    rw [hstore]
  refine ⟨h.same rfl (Nat.le_succ _) rfl rfl ?_ ?_ ?_, ?_, (untokened_refl x).of_thread i⟩
  · intro k
    show (x.service.drain_pending_replays.1.active.get k).isSome = _
    rw [hactive]
  · exact fun k hk => (hload k).trans hk
  · refine ⟨?_, ?_⟩
    · intro k persisted hpersisted
      exact h.bound.file k persisted ((hload k).symm.trans hpersisted)
    · intro k value hvalue
      refine h.bound.active k value ?_
      rw [← hactive]
      exact hvalue
  · intro k persisted hsome hpersisted
    refine hu k persisted ?_ ((hload k).symm.trans hpersisted)
    rw [← hactive]
    exact hsome

/-- Other threads note no event of a start of this thread. -/
def Relied (i : ι) (x y : Executions ι) : Prop :=
  ∃ later, y.history = x.history ++ later ∧ ∀ e ∈ later, ∀ t, tokenOf e = some t → t.thread ≠ i

theorem relied_refl (i : ι) (x : Executions ι) : Relied i x x := ⟨[], by simp, by simp⟩

theorem relied_trans (i : ι) {x y z : Executions ι} (h : Relied i x y) (h' : Relied i y z) :
    Relied i x z := grown_trans h h'

/-- Every access keeps the maps in step with the history. -/
def ownership (ι : Type) : Contract ι Unit (Executions ι) Unit where
  permits := fun _ _ _ _ => true
  notes := fun _ _ _ _ g => g
  inv := fun x => Owned x.store ∧ Undecided x.store
  rely := fun i x y => Relied i x.store y.store
  rely_refl := fun i x => relied_refl i x.store
  rely_trans := fun i _ _ _ => relied_trans i

theorem safe_atomically [DecidableEq ι] {α : Type} (returns : Bool)
    {f : Executions ι → α × Executions ι} {Q : α → Executions ι → Prop}
    {x : Shared ι (Executions ι) Unit} (hQ : ∀ a y z, Q a y → Relied i y z → Q a z)
    (hf : ∀ y, Relied i x.store y → Owned y → Undecided y →
      Access i returns y (accessed (f y).2) ∧ Q (f y).1 (accessed (f y).2)) :
    Safe (ownership ι) i (Executions.atomically f) (fun a y => Q a y.store) x := by
  intro y hy hinv _
  obtain ⟨haccess, hpost⟩ := hf y.store hy hinv.1 hinv.2
  refine ⟨⟨⟨haccess.owned, haccess.undecided⟩, ?_⟩, ?_⟩
  · intro j hj
    obtain ⟨later, hlater, htokens⟩ := haccess.history
    refine ⟨later, hlater, ?_⟩
    intro e he t ht heq
    exact hj (heq.symm.trans ((htokens e he).1 t ht))
  · exact fun z hz _ => hQ _ _ _ hpost hz

/-- Every start of the thread whose adapter returned is over. -/
def StartsSettled (i : ι) (h : List (ExecutionEvent ι)) : Prop :=
  ∀ t job_id submission, t.thread = i → .start_returned t job_id submission ∈ h →
    .started t job_id submission ∈ h ∨ .discarded t job_id submission ∈ h

theorem settled_append {t : StartToken ι} {submission : SubmissionObject}
    {h : List (ExecutionEvent ι)} (later : List (ExecutionEvent ι))
    (hover : .started t job_id submission ∈ h ∨ .discarded t job_id submission ∈ h) :
    .started t job_id submission ∈ h ++ later ∨ .discarded t job_id submission ∈ h ++ later := by
  rcases hover with hstarted | hdiscarded
  · exact Or.inl (List.mem_append_left _ hstarted)
  · exact Or.inr (List.mem_append_left _ hdiscarded)

theorem StartsSettled.relied (h : StartsSettled i x.history) (hrelied : Relied i x y) :
    StartsSettled i y.history := by
  obtain ⟨later, hlater, htokens⟩ := hrelied
  intro t job_id submission ht hreturned
  rw [hlater] at hreturned ⊢
  rcases List.mem_append.mp hreturned with hreturned | hreturned
  · exact settled_append _ (h t job_id submission ht hreturned)
  · exact absurd ht (htokens _ hreturned t rfl)

theorem StartsSettled.access (h : StartsSettled i x.history) (haccess : Access i false x y) :
    StartsSettled i y.history := by
  obtain ⟨later, hlater, hnoted⟩ := haccess.history
  intro t job_id submission ht hreturned
  rw [hlater] at hreturned ⊢
  rcases List.mem_append.mp hreturned with hreturned | hreturned
  · exact settled_append _ (h t job_id submission ht hreturned)
  · exact absurd rfl ((hnoted _ hreturned).2 rfl t job_id submission)

abbrev AllSettled {α : Type} (i : ι) (_ : α) (y : Shared ι (Executions ι) Unit) : Prop :=
  StartsSettled i y.store.history

theorem safe_settled [DecidableEq ι] {α : Type} {f : Executions ι → α × Executions ι}
    {x : Shared ι (Executions ι) Unit} (hx : StartsSettled i x.store.history)
    (hf : ∀ y, Owned y → Undecided y → Access i false y (accessed (f y).2)) :
    Safe (ownership ι) i (Executions.atomically f) (AllSettled i) x := by
  refine safe_atomically false (Q := fun _ y => StartsSettled i y.history) ?_ ?_
  · exact fun _ y z hy hrelied => hy.relied hrelied
  · intro y hy howned hundecided
    have haccess := hf y howned hundecided
    exact ⟨haccess, (hx.relied hy).access haccess⟩

/-- Where thread `i` stands with its start `t` of the job. -/
structure Underway (i : ι) (t : StartToken ι) (job_id : JobId)
    (returned : Option SubmissionObject) (h : List (ExecutionEvent ι)) : Prop where
  thread : t.thread = i
  began : .start_began t job_id ∈ h
  answered : ∀ j submission, .start_returned t j submission ∈ h →
    j = job_id ∧ returned = some submission
  recorded : ∀ submission, returned = some submission → .start_returned t job_id submission ∈ h
  unstarted : ∀ j submission, .started t j submission ∉ h
  undiscarded : ∀ j submission, .discarded t j submission ∉ h
  others : ∀ t' j submission, t'.thread = i → t' ≠ t → .start_returned t' j submission ∈ h →
    .started t' j submission ∈ h ∨ .discarded t' j submission ∈ h

theorem Underway.relied {t : StartToken ι} {returned : Option SubmissionObject}
    (h : Underway i t job_id returned x.history) (hrelied : Relied i x y) :
    Underway i t job_id returned y.history := by
  obtain ⟨later, hlater, htokens⟩ := hrelied
  have hold : ∀ e t', t'.thread = i → tokenOf e = some t' → e ∈ x.history ++ later →
      e ∈ x.history := by
    intro e t' hthread htoken he
    rcases List.mem_append.mp he with he | he
    · exact he
    · exact absurd hthread (htokens e he t' htoken)
  rw [hlater]
  refine ⟨h.thread, List.mem_append_left _ h.began, ?_, ?_, ?_, ?_, ?_⟩
  · exact fun j submission hreturned => h.answered j submission (hold _ t h.thread rfl hreturned)
  · exact fun submission hsome => List.mem_append_left _ (h.recorded submission hsome)
  · exact fun j submission hstarted => h.unstarted j submission (hold _ t h.thread rfl hstarted)
  · exact fun j submission hdiscarded =>
      h.undiscarded j submission (hold _ t h.thread rfl hdiscarded)
  · exact fun t' j submission hthread hne hreturned =>
      settled_append _ (h.others t' j submission hthread hne (hold _ t' hthread rfl hreturned))

theorem Underway.settled {t : StartToken ι} (h : Underway i t job_id none x.history) :
    StartsSettled i x.history := by
  intro t' j submission hthread hreturned
  by_cases ht : t' = t
  · rw [ht] at hreturned
    exact absurd (h.answered j submission hreturned).2 (by simp)
  · exact h.others t' j submission hthread ht hreturned

theorem Underway.finish {t : StartToken ι} {submission : SubmissionObject}
    (h : Underway i t job_id (some submission) x.history) (haccess : Access i false x y)
    (hdone : .started t job_id submission ∈ y.history ∨
      .discarded t job_id submission ∈ y.history) : StartsSettled i y.history := by
  obtain ⟨later, hlater, hnoted⟩ := haccess.history
  intro t' j other hthread hreturned
  rw [hlater] at hreturned
  rcases List.mem_append.mp hreturned with hreturned | hreturned
  · by_cases ht : t' = t
    · rw [ht] at hreturned ⊢
      obtain ⟨rfl, hsame⟩ := h.answered j other hreturned
      cases hsame
      exact hdone
    · rw [hlater]
      exact settled_append _ (h.others t' j other hthread ht hreturned)
  · exact absurd rfl ((hnoted _ hreturned).2 rfl t' j other)

theorem underway_of_began {t : StartToken ι} (h : StartsSettled i x.history)
    (hthread : t.thread = i) (hnew : ∀ e ∈ x.history, tokenOf e ≠ some t) :
    Underway i t job_id none (x.history ++ [.start_began t job_id]) := by
  have hold : ∀ e, e ≠ .start_began t job_id → tokenOf e = some t →
      e ∉ x.history ++ [.start_began t job_id] := by
    intro e hne htoken he
    rcases List.mem_append.mp he with he | he
    · exact hnew e he htoken
    · exact hne (List.mem_singleton.mp he)
  refine ⟨hthread, by simp, ?_, ?_, ?_, ?_, ?_⟩
  · exact fun j submission hreturned => absurd hreturned (hold _ (by simp) rfl)
  · exact fun submission hsome => absurd hsome (by simp)
  · exact fun j submission => hold _ (by simp) rfl
  · exact fun j submission => hold _ (by simp) rfl
  · intro t' j submission hthread' _ hreturned
    rcases List.mem_append.mp hreturned with hreturned | hreturned
    · exact settled_append _ (h t' j submission hthread' hreturned)
    · simp at hreturned

theorem begin_start_began {t : StartToken ι} {job : JobRecord}
    {context : Option ProviderRuntimeContext} {now : Timestamp}
    (h : (Executions.begin_start env i job context x).1 = some (t, now)) :
    (Executions.begin_start env i job context x).2.history =
      x.history ++ [.start_began t job.job_id] := by
  unfold Executions.begin_start at h ⊢
  simp only at h ⊢
  split at h
  · simp at h
  · split at h
    · simp at h
    · rename_i hreg
      simp only [Option.some.injEq, Prod.mk.injEq] at h
      simp only [hreg]
      rw [← h.1]
      rfl

theorem Underway.number {t : StartToken ι} {returned : Option SubmissionObject}
    (h : Underway i t job_id returned x.history) (howned : Owned x) : t.number < x.accesses :=
  howned.fresh _ h.began t rfl

theorem call_start_access (henv : AnswersForJob env) {t : StartToken ι} {job : JobRecord}
    (h : Owned x) (hu : Undecided x) (hunderway : Underway i t job.job_id none x.history)
    (context : Option ProviderRuntimeContext) (now : Timestamp) :
    Access i true x (accessed (Executions.call_start env t job context now x).2) ∧
    match (Executions.call_start env t job context now x).1 with
    | .error _ => Underway i t job.job_id none
        (Executions.call_start env t job context now x).2.history
    | .ok submission => submission.value.job_id = job.job_id ∧
        Underway i t job.job_id (some submission)
          (Executions.call_start env t job context now x).2.history := by
  unfold Executions.call_start
  cases hstart : env.start x.accesses job context now with
  | error e =>
    have hread := access_read i h hu
    obtain ⟨later, hlater, hnoted⟩ := hread.history
    exact ⟨⟨hread.owned, hread.undecided, later, hlater,
      fun e' he' => ⟨(hnoted e' he').1, fun hfalse => absurd hfalse (by simp)⟩⟩, hunderway⟩
  | ok submission =>
    refine ⟨access_note h hu rfl ⟨fun k hk => absurd hk (by simp [touches]), trivial⟩ ?_
      (fun hfalse => absurd hfalse (by simp)), henv.start _ _ _ _ _ hstart, ?_⟩
    · intro t' ht'
      simp only [tokenOf, Option.some.injEq] at ht'
      rw [← ht']
      exact ⟨hunderway.thread, hunderway.number h⟩
    · refine ⟨hunderway.thread, List.mem_append_left _ hunderway.began, ?_, ?_, ?_, ?_, ?_⟩
      · intro j other hreturned
        rcases List.mem_append.mp hreturned with hreturned | hreturned
        · exact absurd (hunderway.answered j other hreturned).2 (by simp)
        · simp only [List.mem_singleton, ExecutionEvent.start_returned.injEq] at hreturned
          exact ⟨hreturned.2.1, by rw [hreturned.2.2]⟩
      · intro other hsome
        rw [← Option.some.inj hsome]
        exact List.mem_append_right _ List.mem_cons_self
      · intro j other hstarted
        rcases List.mem_append.mp hstarted with hstarted | hstarted
        · exact hunderway.unstarted j other hstarted
        · simp at hstarted
      · intro j other hdiscarded
        rcases List.mem_append.mp hdiscarded with hdiscarded | hdiscarded
        · exact hunderway.undiscarded j other hdiscarded
        · simp at hdiscarded
      · intro t' j other hthread hne hreturned
        rcases List.mem_append.mp hreturned with hreturned | hreturned
        · exact settled_append _ (hunderway.others t' j other hthread hne hreturned)
        · simp only [List.mem_singleton, ExecutionEvent.start_returned.injEq] at hreturned
          exact absurd hreturned.1 hne

theorem call_poll_binding (henv : AnswersForJob env) {submission : SubmissionObject}
    {now : Timestamp} {result : ProviderPollResult} {ref : ℕ}
    (hjob : submission.value.job_id = job_id)
    (h : (Executions.call_poll env job_id submission now x).1 = some (some (result, ref))) :
    result.submission.job_id = job_id := by
  unfold Executions.call_poll at h
  cases hadapter : env.registry x.accesses submission.value.provider with
  | none =>
    rw [hadapter] at h
    simp at h
  | some adapter =>
    rw [hadapter] at h
    simp only [Option.some.injEq, Option.map_eq_some_iff, Prod.mk.injEq] at h
    obtain ⟨polled, hpolled, hresult, _⟩ := h
    have hbinding := (polled_result_binding (henv.registry _) hadapter hpolled).1
    rw [← hresult]
    exact hbinding.trans hjob

theorem call_poll_same (job_id : JobId) (submission : SubmissionObject) (now : Timestamp)
    (x : Executions ι) : (Executions.call_poll env job_id submission now x).2 = x := by
  unfold Executions.call_poll
  split <;> rfl

theorem drain_binding (h : Owned x) :
    ∀ item ∈ (Executions.drain env x).1.2.2, item.2.value.job_id = item.1 := by
  intro item hitem
  obtain ⟨entry, _, hentry⟩ := List.mem_filterMap.mp hitem
  obtain ⟨submission, hobject, rfl⟩ := Option.map_eq_some_iff.mp hentry
  exact h.bound.active _ _ (active_object_eq hobject).1

section Calls

variable [DecidableEq ι] {z : Shared ι (Executions ι) Unit}

theorem safe_ret_settled {α : Type} (a : α) (hz : StartsSettled i z.store.history) :
    Safe (ownership ι) i (Prog.ret a : ExecM ι α) (AllSettled i) z :=
  fun _ hy _ => hz.relied hy

def AfterBegin (i : ι) (job_id : JobId) (history : List (ExecutionEvent ι)) :
    Option (StartToken ι × Timestamp) → Prop
  | none => StartsSettled i history
  | some (t, _) => Underway i t job_id none history

def AfterCall (i : ι) (t : StartToken ι) (job_id : JobId)
    (history : List (ExecutionEvent ι)) : Except String SubmissionObject → Prop
  | .error _ => Underway i t job_id none history
  | .ok submission => submission.value.job_id = job_id ∧
      Underway i t job_id (some submission) history

/-- What the last critical section of a start leaves. -/
def AfterSettle (i : ι) (t : StartToken ι) (job_id : JobId) (submission : SubmissionObject)
    (history : List (ExecutionEvent ι)) : Bool → Prop
  | true => StartsSettled i history
  | false => Underway i t job_id (some submission) history

theorem safe_start (henv : AnswersForJob env) (job : JobRecord)
    (context : Option ProviderRuntimeContext) (hz : StartsSettled i z.store.history) :
    Safe (ownership ι) i (Executions.start env i job context) (AllSettled i) z := by
  unfold Executions.start
  -- `begin_start`
  refine Safe.bind ((safe_atomically false
    (Q := fun began y => AfterBegin i job.job_id y.history began) ?_ ?_).mono ?_)
  · intro began y y' hy hrelied
    cases began with
    | none => exact StartsSettled.relied hy hrelied
    | some began => exact Underway.relied hy hrelied
  · intro y hy howned hundecided
    have hsettled : StartsSettled i y.history := hz.relied hy
    obtain ⟨haccess, hbegan⟩ := access_begin_start env (i := i) howned hundecided job context
    refine ⟨haccess, ?_⟩
    cases hresult : (Executions.begin_start env i job context y).1 with
    | none => exact hsettled.access haccess
    | some began =>
      obtain ⟨hthread, _, hnew⟩ := hbegan began.1 began.2 hresult
      show Underway i began.1 job.job_id none (Executions.begin_start env i job context y).2.history
      rw [begin_start_began hresult]
      exact underway_of_began hsettled hthread hnew
  intro began y _ hbegan
  cases began with
  | none => exact safe_ret_settled _ hbegan
  | some began =>
    obtain ⟨t, now⟩ := began
    -- `adapter.start`
    refine Safe.bind ((safe_atomically true
      (Q := fun returned y => AfterCall i t job.job_id y.history returned) ?_ ?_).mono ?_)
    · intro returned y y' hy hrelied
      cases returned with
      | error e => exact Underway.relied hy hrelied
      | ok submission => exact ⟨hy.1, Underway.relied hy.2 hrelied⟩
    · intro y' hy' howned hundecided
      exact call_start_access henv howned hundecided (Underway.relied hbegan hy') context now
    intro returned y' _ hreturned
    cases returned with
    | error e =>
      refine Safe.bind ((safe_atomically false
        (Q := fun _ y => StartsSettled i y.history) ?_ ?_).mono ?_)
      · exact fun _ _ _ hy hrelied => StartsSettled.relied hy hrelied
      · intro w hw howned hundecided
        have hunderway : Underway i t job.job_id none w.history := Underway.relied hreturned hw
        have haccess := access_withdraw job.job_id howned hundecided hunderway.thread
          (hunderway.number howned)
        exact ⟨haccess, hunderway.settled.access haccess⟩
      · exact fun _ w _ hw => safe_ret_settled _ hw
    | ok submission =>
      obtain ⟨hjob, hunderway⟩ := hreturned
      -- the last critical section
      refine Safe.bind ((safe_atomically false
        (Q := fun started y => AfterSettle i t job.job_id submission y.history started)
        ?_ ?_).mono ?_)
      · intro started w w' hw hrelied
        cases started with
        | true => exact StartsSettled.relied hw hrelied
        | false => exact Underway.relied hw hrelied
      · intro w hw howned hundecided
        have hw' : Underway i t job.job_id (some submission) w.history := hunderway.relied hw
        have hreturned := hw'.recorded submission rfl
        obtain ⟨haccess, hstarted, hsame⟩ := access_settle_start env howned hundecided
          hw'.thread (hw'.number howned) hjob hreturned context
        refine ⟨haccess, ?_⟩
        cases hresult : (Executions.settle_start env t job.job_id context submission w).1 with
        | true => exact hw'.finish haccess (Or.inl (hstarted hresult))
        | false =>
          show Underway i t job.job_id (some submission) (Executions.settle_start env t job.job_id
            context submission w).2.history
          rw [hsame hresult]
          exact hw'
      intro started w _ hw
      cases started with
      | true => exact safe_ret_settled _ hw
      | false =>
        refine Safe.bind ((safe_atomically false
          (Q := fun _ y => StartsSettled i y.history) ?_ ?_).mono ?_)
        · exact fun _ _ _ hy hrelied => StartsSettled.relied hy hrelied
        · intro v hv howned hundecided
          have hv' : Underway i t job.job_id (some submission) v.history := Underway.relied hw hv
          have haccess : Access i false v
              (accessed (v.note (.discarded t job.job_id submission))) := by
            refine access_note howned hundecided rfl ⟨fun k hk => absurd hk (by simp [touches]),
              hv'.recorded submission rfl, hv'.unstarted, hv'.undiscarded⟩ ?_
              (fun _ _ _ _ => by simp)
            intro t' ht'
            simp only [tokenOf, Option.some.injEq] at ht'
            rw [← ht']
            exact ⟨hv'.thread, hv'.number howned⟩
          exact ⟨haccess, hv'.finish haccess (Or.inr (by simp [Executions.note]))⟩
        · exact fun _ v _ hv => safe_ret_settled _ hv

theorem safe_cancel (job_id : JobId) (hz : StartsSettled i z.store.history) :
    Safe (ownership ι) i (Executions.cancel job_id) (AllSettled i) z := by
  unfold Executions.cancel
  refine Safe.bind ((safe_settled hz fun y => access_remove_job).mono ?_)
  intro submission y _ hy
  cases submission with
  | none => exact safe_ret_settled _ hy
  | some submission =>
    refine safe_settled hy fun w howned hundecided => ?_
    exact access_note howned hundecided rfl ⟨fun k hk => absurd hk (by simp [touches]), trivial⟩
      (fun t ht => absurd ht (by simp [tokenOf])) (fun _ _ _ _ => by simp)

theorem safe_process_active_job (henv : AnswersForJob env) {submission : SubmissionObject}
    (hjob : submission.value.job_id = job_id) (now : Timestamp)
    (hz : StartsSettled i z.store.history) :
    Safe (ownership ι) i (Executions.process_active_job env job_id submission now)
      (AllSettled i) z := by
  unfold Executions.process_active_job
  refine Safe.bind ((safe_settled hz fun y => access_read i).mono ?_)
  intro active y _ hy
  cases active with
  | false => exact safe_ret_settled _ hy
  | true =>
    refine Safe.bind ((safe_atomically false
      (Q := fun polled w => StartsSettled i w.history ∧ ∀ result ref,
        polled = some (some (result, ref)) → result.submission.job_id = job_id) ?_ ?_).mono ?_)
    · exact fun _ w w' hw hrelied => ⟨StartsSettled.relied hw.1 hrelied, hw.2⟩
    · intro w hw howned hundecided
      have haccess : Access i false w
          (accessed (Executions.call_poll env job_id submission now w).2) := by
        rw [call_poll_same]
        exact access_read i howned hundecided
      have hsettled : StartsSettled i w.history := StartsSettled.relied hy hw
      exact ⟨haccess, hsettled.access haccess, fun result ref => call_poll_binding henv hjob⟩
    · intro polled w _ hw
      cases polled with
      | none =>
        refine Safe.bind ((safe_settled hw.1 fun v => access_drop_active).mono ?_)
        exact fun _ v _ hv => safe_ret_settled _ hv
      | some polled =>
        cases polled with
        | none => exact safe_ret_settled _ hw.1
        | some polled =>
          refine safe_settled hw.1 fun v howned hundecided => ?_
          exact access_record_result howned hundecided (hw.2 polled.1 polled.2 rfl)

theorem safe_process_active_jobs (henv : AnswersForJob env) (now : Timestamp)
    (items : List (JobId × SubmissionObject))
    (hitems : ∀ item ∈ items, item.2.value.job_id = item.1) (hz : StartsSettled i z.store.history) :
    Safe (ownership ι) i (Executions.process_active_jobs env now items) (AllSettled i) z := by
  induction items generalizing z with
  | nil => exact safe_ret_settled _ hz
  | cons item items ih =>
    refine Safe.bind ((safe_process_active_job henv (hitems item List.mem_cons_self) now
      hz).mono ?_)
    intro updates y _ hy
    refine Safe.bind ((ih (fun other hother => hitems other (List.mem_cons_of_mem _ hother))
      hy).mono ?_)
    exact fun _ w _ hw => safe_ret_settled _ hw

theorem safe_poll_updates (henv : AnswersForJob env) (hz : StartsSettled i z.store.history) :
    Safe (ownership ι) i (Executions.poll_updates env) (AllSettled i) z := by
  unfold Executions.poll_updates
  refine Safe.bind ((safe_atomically false
    (Q := fun drained w => StartsSettled i w.history ∧
      ∀ item ∈ drained.2.2, item.2.value.job_id = item.1) ?_ ?_).mono ?_)
  · exact fun _ w w' hw hrelied => ⟨StartsSettled.relied hw.1 hrelied, hw.2⟩
  · intro w hw howned hundecided
    have haccess := access_drain env (i := i) howned hundecided
    have hsettled : StartsSettled i w.history := hz.relied hw
    exact ⟨haccess, hsettled.access haccess, drain_binding howned⟩
  · intro drained w _ hw
    refine Safe.bind ((safe_process_active_jobs henv drained.1 _ ?_ hw.1).mono ?_)
    · exact fun item hitem => hw.2 item (List.mem_of_mem_filter hitem)
    · exact fun _ v _ hv => safe_ret_settled _ hv

theorem safe_exec (henv : AnswersForJob env) (call : Executions.Call)
    (hz : StartsSettled i z.store.history) :
    Safe (ownership ι) i (Executions.exec env i call) (AllSettled i) z := by
  cases call with
  | start job context =>
    refine Safe.bind ((safe_start henv job context hz).mono ?_)
    exact fun _ y _ hy => safe_ret_settled _ hy
  | cancel job_id => exact safe_cancel job_id hz
  | finish job_id => exact safe_settled hz fun y => access_remove_job
  | inject_active_followup request =>
    refine Safe.bind ((safe_settled hz fun y howned hundecided =>
      access_inject howned hundecided request).mono ?_)
    exact fun _ y _ hy => safe_ret_settled _ hy
  | acknowledge job_id => exact safe_settled hz fun y => access_acknowledge
  | acknowledge_item job_id event_seq =>
    exact safe_settled hz fun y howned hundecided =>
      access_acknowledge_item howned hundecided event_seq
  | poll =>
    refine Safe.bind ((safe_poll_updates henv hz).mono ?_)
    exact fun _ y _ hy => safe_ret_settled _ hy

end Calls

section Reading

variable {h before after : List (ExecutionEvent ι)} {t : StartToken ι}

theorem began_once (hh : Lawful Enabled h) (heq : h = before ++ .start_began t job_id :: after) :
    (∀ e ∈ before, tokenOf e ≠ some t) ∧ ∀ k, .start_began t k ∉ after := by
  refine ⟨(hh _ _ _ heq).2, ?_⟩
  intro k hk
  obtain ⟨first, last, hafter⟩ := List.append_of_mem hk
  have hsplit : h = (before ++ .start_began t job_id :: first) ++ .start_began t k :: last := by
    rw [heq, hafter, List.append_assoc, List.cons_append]
  exact (hh _ _ _ hsplit).2 (.start_began t job_id) (by simp) rfl

/-- A token that is awaited was awaited before or has been made since. -/
theorem awaited_append (h : awaited (before ++ after) job_id = some t) :
    awaited before job_id = some t ∨ .start_began t job_id ∈ after := by
  unfold awaited at h ⊢
  rw [List.foldl_append] at h
  generalize before.foldl (awaitedAfter job_id) none = token at h ⊢
  induction after generalizing token with
  | nil => exact Or.inl h
  | cons e after ih =>
    rw [List.foldl_cons] at h
    rcases ih _ h with hawaited | hbegan
    · cases e with
      | start_began t' j =>
        by_cases hj : j = job_id
        · simp only [awaitedAfter, if_pos hj, Option.some.injEq] at hawaited
          rw [hj, hawaited]
          exact Or.inr List.mem_cons_self
        · simp only [awaitedAfter, if_neg hj] at hawaited
          exact Or.inl hawaited
      | _ =>
        simp only [awaitedAfter] at hawaited
        first
          | exact Or.inl hawaited
          | (split at hawaited
             · simp at hawaited
             · exact Or.inl hawaited)
    · exact Or.inr (List.mem_cons_of_mem _ hbegan)

theorem awaited_began (hawaited : awaited h job_id = some t) : .start_began t job_id ∈ h := by
  have hawaited' : awaited ([] ++ h) job_id = some t := hawaited
  rcases awaited_append hawaited' with hnone | hbegan
  · simp [awaited] at hnone
  · exact hbegan

theorem awaited_ended : awaited (before ++ [.ended job_id]) job_id = none := by
  simp [awaited, awaitedAfter]

/-- A start whose job ended before its submission became active never makes it active. -/
theorem never_started {between : List (ExecutionEvent ι)} (hh : Lawful Enabled h)
    (heq : h = before ++ .start_began t job_id :: between ++ .ended job_id :: after)
    (hbetween : ∀ k s, .started t k s ∉ between) (k : JobId) (s : SubmissionObject) :
    .started t k s ∉ h := by
  intro hstarted
  have heq' : h = before ++ .start_began t job_id :: (between ++ .ended job_id :: after) := by
    rw [heq, List.append_assoc, List.cons_append]
  obtain ⟨hbefore, hrest⟩ := began_once hh heq'
  rw [heq'] at hstarted
  rcases List.mem_append.mp hstarted with hin | hin
  · exact hbefore _ hin rfl
  rcases List.mem_cons.mp hin with hin | hin
  · simp at hin
  rcases List.mem_append.mp hin with hin | hin
  · exact hbetween k s hin
  rcases List.mem_cons.mp hin with hin | hin
  · simp at hin
  -- The token was given up at the end of the job and is not made again.
  obtain ⟨first, last, hafter⟩ := List.append_of_mem hin
  have hsplit : h = ((before ++ .start_began t job_id :: between ++ [.ended job_id]) ++ first) ++
      .started t k s :: last := by
    rw [heq, hafter]
    simp
  have hawaited := (hh _ _ _ hsplit).2.1
  have hbegan := awaited_began hawaited
  have hk : k = job_id := by
    rcases List.mem_append.mp hbegan with hbegan | hbegan
    · rcases List.mem_append.mp hbegan with hbegan | hbegan
      · rcases List.mem_append.mp hbegan with hbegan | hbegan
        · exact absurd rfl (hbefore _ hbegan)
        · rcases List.mem_cons.mp hbegan with hbegan | hbegan
          · exact (ExecutionEvent.start_began.inj hbegan).2
          · exact absurd (List.mem_append_left _ hbegan) (hrest k)
      · simp at hbegan
    · refine absurd ?_ (hrest k)
      rw [hafter]
      simp [hbegan]
  rw [hk] at hawaited
  rcases awaited_append hawaited with hended | hagain
  · rw [awaited_ended] at hended
    simp at hended
  · refine hrest job_id ?_
    rw [hafter]
    simp [hagain]

/-- `start` passed its submission to `_cancel_submission`. -/
def discards [DecidableEq ι] (t : StartToken ι) : ExecutionEvent ι → Bool
  | .discarded t' _ _ => t' = t
  | _ => false

theorem discards_once [DecidableEq ι] (hh : Lawful Enabled h) (t : StartToken ι) :
    h.countP (discards t) ≤ 1 := by
  induction h using List.reverseRecOn with
  | nil => simp
  | append_singleton h e ih =>
    obtain ⟨hfirst, henabled⟩ := hh.last
    have hle := ih hfirst
    rw [List.countP_append, List.countP_singleton]
    by_cases hdiscards : discards t e = true
    · cases e with
      | discarded t' j submission =>
        simp only [discards, decide_eq_true_eq] at hdiscards
        rw [hdiscards] at henabled ⊢
        have hnone : h.countP (discards t) = 0 := by
          rw [List.countP_eq_zero]
          intro e he hagain
          cases e with
          | discarded t'' k other =>
            simp only [discards, decide_eq_true_eq] at hagain
            rw [hagain] at he
            exact henabled.2.2.2 k other he
          | _ => simp [discards] at hagain
        rw [hnone]
        split <;> omega
      | _ => simp [discards] at hdiscards
    · rw [if_neg hdiscards]
      omega

end Reading

def FilesBound (state_store : Option (Dict JobId PersistedExecutionState)) : Prop :=
  ∀ files, state_store = some files → ∀ job_id persisted, files.get job_id = some persisted →
    persisted.submission.job_id = job_id

theorem owned_init {files : Option (Dict JobId PersistedExecutionState)}
    (hfiles : FilesBound files) :
    Owned (Executions.init files : Executions ι) ∧
      Undecided (Executions.init files : Executions ι) := by
  refine ⟨⟨lawful_nil, by simp [Executions.init], fun _ => rfl, fun _ => rfl, fun _ => rfl,
    fun job_id hquiet => absurd hquiet (by simp [Executions.init, isQuiet]), ?_, ?_⟩, ?_⟩
  · intro job_id persisted hload
    cases files with
    | none => simp [Executions.init, ExecutionService.init, ExecutionService.load] at hload
    | some store => exact hfiles store rfl job_id persisted hload
  · intro job_id submission hactive
    exact absurd hactive (by simp [Executions.init, ExecutionService.init])
  · intro job_id persisted hactive
    exact absurd hactive (by simp [Executions.init, ExecutionService.init])

/-- Any interleaving keeps the maps in step with the history, and a thread that has
returned leaves no start unsettled. -/
theorem threads_owned [DecidableEq ι] {env : Environment} (henv : AnswersForJob env)
    {files : Option (Dict JobId PersistedExecutionState)} (hfiles : FilesBound files)
    (calls : ι → List Executions.Call) (schedule : List ι) :
    Owned ((Executions.threads env files calls).run schedule).store ∧
      ∀ i, ((Executions.threads env files calls).run schedule).returned i = true →
        StartsSettled i ((Executions.threads env files calls).run schedule).store.history := by
  have hsafe : ∀ j, Safe (ownership ι) j ((Executions.threads env files calls).thread j)
      (AllSettled j) ((Executions.threads env files calls).shared ()) := by
    intro j
    refine Safe.forEach (K := AllSettled j ()) ?_ ?_ ?_
    · exact fun y z hy hrelied => StartsSettled.relied hy hrelied
    · exact fun call _ y hy => safe_exec henv call hy
    · intro t job_id submission _ hreturned
      simp [Config.shared, Executions.threads, Executions.init] at hreturned
  have hclean := (ownership ι).clean_of_permits (fun _ _ _ _ => rfl) schedule
    (Executions.threads env files calls) ()
  obtain ⟨hthreads, hinv⟩ := safe_run schedule hsafe (owned_init hfiles) hclean
  refine ⟨hinv.1, ?_⟩
  intro i hreturned
  obtain ⟨_, hsettled⟩ := safe_returned (hthreads i) hinv hreturned
  exact hsettled

/-- What a poll stored is still there: the items that are not acknowledged and the
decision. -/
def NothingDropped (before after : Option PersistedExecutionState) : Prop :=
  ∀ old, before = some old → ∃ new, after = some new ∧
    (∀ item ∈ filter_pending_items old, item ∈ new.pending_items) ∧
    ∀ decision, old.pending_decision = some decision → new.pending_decision = some decision

/-- No item of the file is unacknowledged. -/
def NothingPending (persisted : Option PersistedExecutionState) : Prop :=
  ∀ old, persisted = some old → filter_pending_items old = []

theorem nothingDropped_iff {before after : Option PersistedExecutionState}
    (h : Overwritten before after) : NothingDropped before after ↔ NothingPending before := by
  constructor
  · intro hkept old hold
    obtain ⟨_, new, hnew, hempty⟩ := h old hold
    obtain ⟨new', hnew', hitems, _⟩ := hkept old hold
    rw [hnew, Option.some.injEq] at hnew'
    rw [← hnew', hempty] at hitems
    exact List.eq_nil_iff_forall_not_mem.mpr fun item hitem => List.not_mem_nil (hitems item hitem)
  · intro hnothing old hold
    obtain ⟨hdecision, new, hnew, _⟩ := h old hold
    refine ⟨new, hnew, ?_, ?_⟩
    · rw [hnothing old hold]
      simp
    · rw [hdecision]
      simp

/-- **Who owns a submission.**  In any interleaving of any calls: a job that has ended and
not been started since has no active submission, and nothing of it is installed or
written meanwhile; a submission whose job ended before it became active never becomes
active, and its `start` passes it to `_cancel_submission` once; a poll result replaces
the submission that was polled.  A follow-up drops nothing that is unacknowledged exactly
if it never finds such items in the job's file.

SOURCE: lib/provider_execution/service.py:107-149, 171-296,
lib/provider_execution/service_runtime/polling.py:12-128 -/
theorem submission_ownership [DecidableEq ι] (env : Environment) (henv : AnswersForJob env)
    (files : Option (Dict JobId PersistedExecutionState)) (hfiles : FilesBound files)
    (calls : ι → List Executions.Call) (schedule : List ι)
    (c : Config ι Unit (Executions ι) Unit Unit)
    (hrun : c = (Executions.threads env files calls).run schedule) :
    (∀ job_id, isQuiet c.store.history job_id = true → c.store.service.active.get job_id = none) ∧
    (∀ before e after job_id, c.store.history = before ++ e :: after →
      isQuiet before job_id = true → touches job_id e = false) ∧
    (∀ t job_id before between after,
      c.store.history = before ++ .start_began t job_id :: between ++ .ended job_id :: after →
      (∀ k s, .started t k s ∉ between) →
      (∀ k s, .started t k s ∉ c.store.history) ∧
        c.store.history.countP (discards t) ≤ 1 ∧
        (c.returned t.thread = true → (∃ s, .start_returned t job_id s ∈ c.store.history) →
          c.store.history.countP (discards t) = 1)) ∧
    ((∀ job_id, c.store.identity.get job_id = currentRef c.store.history job_id) ∧
      ∀ before job_id ref submission after,
        c.store.history = before ++ .polled job_id ref submission :: after →
        currentRef before job_id = some ref) ∧
    ((∀ job_id submission before after,
        .injected job_id submission before after ∈ c.store.history → NothingDropped before after) ↔
      ∀ job_id submission before after,
        .injected job_id submission before after ∈ c.store.history → NothingPending before) := by
  obtain ⟨howned, hsettled⟩ := threads_owned henv hfiles calls schedule
  rw [← hrun] at howned hsettled
  refine ⟨?_, ?_, ?_, ?_, ?_⟩
  · intro job_id hquiet
    have hnone := howned.active job_id
    rw [(howned.quiet job_id hquiet).1] at hnone
    exact Option.not_isSome_iff_eq_none.mp (by simp [hnone])
  · intro before e after job_id heq hquiet
    by_contra htouches
    rw [Bool.not_eq_false] at htouches
    have hbusy := (howned.lawful before e after heq).1 job_id htouches
    rw [hquiet] at hbusy
    simp at hbusy
  · intro t job_id before between after heq hbetween
    have hnever := never_started howned.lawful heq hbetween
    have honce := discards_once howned.lawful t
    refine ⟨hnever, honce, ?_⟩
    rintro hreturned ⟨s, hs⟩
    rcases hsettled t.thread hreturned t job_id s rfl hs with hstarted | hdiscarded
    · exact absurd hstarted (hnever job_id s)
    · have hpos : 0 < c.store.history.countP (discards t) :=
        List.countP_pos_iff.mpr ⟨_, hdiscarded, by simp [discards]⟩
      omega
  · refine ⟨howned.identity, ?_⟩
    intro before job_id ref submission after heq
    exact (howned.lawful _ _ _ heq).2
  · have hoverwritten : ∀ job_id submission before after,
        .injected job_id submission before after ∈ c.store.history → Overwritten before after := by
      intro job_id submission before after hin
      obtain ⟨first, last, heq⟩ := List.append_of_mem hin
      exact (howned.lawful _ _ _ heq).2
    constructor
    · intro hkept job_id submission before after hin
      exact (nothingDropped_iff (hoverwritten _ _ _ _ hin)).mp (hkept _ _ _ _ hin)
    · intro hnothing job_id submission before after hin
      exact (nothingDropped_iff (hoverwritten _ _ _ _ hin)).mpr (hnothing _ _ _ _ hin)

/-- An adapter whose first poll brings an item without a decision. -/
def itemAdapter : ProviderExecutionAdapter where
  poll submission now := some ⟨submission, [⟨.assistant_final, now, some 1⟩], none⟩
  export_runtime_state := none
  resume := none
  restart_resume_supported := false
  completion_reliability_policy := none

/-- The adapter takes follow-ups and answers each with the submission as it is. -/
def itemEnvironment : Environment where
  clock n := n
  registry _ _ := some itemAdapter
  fault _ _ := none
  start _ job _ _ := .ok ⟨0, { runningSubmission with job_id := job.job_id }⟩
  result_ref _ submission := submission.ref + 1
  inject _ _ := some fun submission _ _ => some ⟨some submission, .injected, "", "steer", none⟩

/-- One thread starts and polls job 0, the other sends it a follow-up. -/
def pollAndFollowup : Bool → List Executions.Call
  | true => [.start (runningJob .ask) none, .poll]
  | false => [.inject_active_followup ⟨0, 0, "more", ""⟩]

def pollAndFollowupRun : Config Bool Unit (Executions Bool) Unit Unit :=
  (Executions.threads itemEnvironment (some Dict.empty) pollAndFollowup).run
    (List.replicate 7 true ++ [false])

/-- **A follow-up drops what a poll stored.**  The poll stores its item until it is
acknowledged; the follow-up writes the file as if nothing were pending.

SOURCE: lib/provider_execution/service.py:268-280 -/
theorem followup_drops_items :
    ∃ job_id submission before after,
      .injected job_id submission before after ∈ pollAndFollowupRun.store.history ∧
      ¬ NothingDropped before after := by
  refine ⟨_, _, _, _, List.mem_of_getElem? (i := 6) rfl, ?_⟩
  intro hkept
  obtain ⟨new, hnew, hitems, _⟩ := hkept _ rfl
  rw [← Option.some.inj hnew] at hitems
  exact List.not_mem_nil (hitems ⟨.assistant_final, 3, some 1⟩ (by decide))

/-- The event is a follow-up that found an unacknowledged item in the job's file. -/
def findsPending : ExecutionEvent ι → Bool
  | .injected _ _ (some old) _ => !(filter_pending_items old).isEmpty
  | _ => false

/-- The follow-up comes before the poll. -/
def followupFirstRun : Config Bool Unit (Executions Bool) Unit Unit :=
  (Executions.threads itemEnvironment (some Dict.empty) pollAndFollowup).run
    ([true, true, true, false] ++ List.replicate 4 true)

theorem itemEnvironment_answers : AnswersForJob itemEnvironment := by
  refine ⟨fun n => ⟨?_, ?_⟩, ?_⟩
  · intro provider adapter submission now result hadapter hpoll
    cases hadapter
    cases hpoll
    exact ⟨rfl, rfl⟩
  · intro provider adapter resume job submission context persisted now resumed hadapter hresume
    cases hadapter
    cases hresume
  · intro n job context now submission hstart
    cases hstart
    rfl

/-- In the run with the follow-up first nothing is dropped. -/
theorem submission_ownership_followupFirst :
    followupFirstRun.store.history ≠ [] ∧
      ∀ job_id submission before after,
        .injected job_id submission before after ∈ followupFirstRun.store.history →
        NothingDropped before after := by
  refine ⟨by decide, ?_⟩
  obtain ⟨_, _, _, _, hiff⟩ := submission_ownership itemEnvironment itemEnvironment_answers
    (some Dict.empty) (fun files hfiles job_id persisted hget => by cases hfiles; cases hget)
    pollAndFollowup _ followupFirstRun rfl
  refine hiff.mpr ?_
  intro job_id submission before after hin old hold
  have hclear : ∀ e ∈ followupFirstRun.store.history, findsPending e = false := by decide
  have hempty := hclear _ hin
  rw [hold] at hempty
  simpa [findsPending] using hempty

end ClaudeCodeBridge.Analysis
