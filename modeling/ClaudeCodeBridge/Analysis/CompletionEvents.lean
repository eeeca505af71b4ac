import ClaudeCodeBridge.Analysis.NotificationJournals

/-!
# One event for each completion

The completions of an agent are counted in the state file, and the journal holds the keys
of the events that were written.  A call that stops between the two writes leaves the
agents of its snapshots behind in the state file.  As long as each of them is caught up
with by its next snapshot (`Ready`), every completion in the sequence of snapshots gets one
event.

The ladder: what one snapshot adds (`step_cases`); one call (`PassKept`); runs
(`counted_run`).
-/

set_option autoImplicit false

namespace ClaudeCodeBridge.Analysis.Notification

open Program
open Model.Notification

variable {limits : Limits} {store : NotificationStore} {key : SnapshotKey} {epoch : ℤ}

def activityOf (snapshot : NotificationSnapshot) : Activity :=
  canonical_activity_state snapshot.activity_state

def awaitedBy (snapshot : NotificationSnapshot) : Option ℤ :=
  if activityOf snapshot = .active then snapshot.namespace_epoch else none

/-- The same of an agent in the state file. -/
def awaited (prior : Option AgentState) : Option ℤ :=
  prior.bind fun prior => if prior.activity_state = .active then prior.namespace_epoch else none

def Completes (snapshot : NotificationSnapshot) (awaited : Option ℤ) : Prop :=
  activityOf snapshot ∈ [.idle, .failed] ∧ awaited.isSome ∧ awaited = snapshot.namespace_epoch

instance (snapshot : NotificationSnapshot) : DecidablePred (Completes snapshot) := fun awaited =>
  inferInstanceAs (Decidable (_ ∈ [Activity.idle, Activity.failed] ∧ awaited.isSome ∧ awaited = _))

def lastGiven (key : SnapshotKey) (given : List NotificationSnapshot) :
    Option NotificationSnapshot :=
  (given.filter fun snapshot => snapshot.snapshot_key = key).getLast?

def lastAwaited (key : SnapshotKey) (given : List NotificationSnapshot) : Option ℤ :=
  (lastGiven key given).bind awaitedBy

/-- How often the snapshots of one agent pass from active to idle or failed in the epoch. -/
def transitionsOf (epoch : ℤ) : List NotificationSnapshot → ℕ
  | prior :: snapshot :: rest =>
    (if Completes snapshot (awaitedBy prior) ∧ snapshot.namespace_epoch = some epoch then 1 else 0)
      + transitionsOf epoch (snapshot :: rest)
  | _ => 0

def transitions (key : SnapshotKey) (epoch : ℤ) (given : List NotificationSnapshot) : ℕ :=
  transitionsOf epoch (given.filter fun snapshot => snapshot.snapshot_key = key)

def completionOf (key : SnapshotKey) (event : Event) : Option (Option ℤ × ℕ) :=
  match event.dedupe_key with
  | .completion project_id namespace_epoch agent completion_sequence =>
    if (project_id, agent) = key then some (namespace_epoch, completion_sequence) else none
  | _ => none

def completions (key : SnapshotKey) (emitted : List Event) : List (Option ℤ × ℕ) :=
  emitted.filterMap (completionOf key)

/-- How many events there are for completions of the agent in the epoch. -/
def completionEvents (key : SnapshotKey) (epoch : ℤ) (emitted : List Event) : ℕ :=
  (completions key emitted).countP fun completion => completion.1 = some epoch

def counter (prior : Option AgentState) : ℕ :=
  (prior.map fun prior => prior.completion_sequence).getD 0

/-- The next snapshot of an agent can be judged from the state file: every written event is
counted there, and the snapshot completes what the last one has left open just if it
completes what the state file does; or one written event is not counted, the snapshot
repeats its completion, and the event is among the existing ones. -/
def ReadyFor (prior : Option AgentState) (lastAwaited : Option ℤ) (written : List (Option ℤ × ℕ))
    (existing : List DedupeKey) (snapshot : NotificationSnapshot) : Prop :=
  ((∀ completion ∈ written, completion.2 ≤ counter prior) ∧
    (Completes snapshot (awaited prior) ↔ Completes snapshot lastAwaited)) ∨
  ((∀ completion ∈ written, completion.2 ≤ counter prior + 1) ∧
    Completes snapshot (awaited prior) ∧ ¬ Completes snapshot lastAwaited ∧
    dedupe_key snapshot (counter prior + 1) ∈ existing)

def Ready (limits : Limits) (store : NotificationStore) (snapshot : NotificationSnapshot) : Prop :=
  ReadyFor (store.state.agents snapshot.snapshot_key)
    (lastAwaited snapshot.snapshot_key store.given)
    (completions snapshot.snapshot_key store.emitted)
    ((store.completion_events limits).map fun event => event.dedupe_key) snapshot

/-- The first snapshot of each agent in a call is ready. -/
def Orderly (limits : Limits) (store : NotificationStore) : Journal.Step → Prop
  | .sync_snapshots snapshots stop => stop = some .before_events ∨
    ∀ snapshot ∈ snapshots,
      (snapshots.find? fun s => s.snapshot_key = snapshot.snapshot_key) = some snapshot →
      Ready limits store snapshot
  | _ => True

def OrderlyRun (limits : Limits) : List Journal.Step → Journal → Prop
  | [], _ => True
  | c :: steps, journal =>
    Orderly limits journal.store c ∧ OrderlyRun limits steps (journal.step limits c)

variable {snapshot : NotificationSnapshot} {given : List NotificationSnapshot}

theorem transitionsOf_append (snapshots : List NotificationSnapshot) :
    transitionsOf epoch (snapshots ++ [snapshot]) = transitionsOf epoch snapshots +
      if Completes snapshot (snapshots.getLast?.bind awaitedBy) ∧
        snapshot.namespace_epoch = some epoch then 1 else 0 := by
  induction snapshots with
  | nil =>
    have hnone : ¬ Completes snapshot none := by
      rintro ⟨_, hsome, _⟩
      simp at hsome
    rw [List.getLast?_nil, Option.bind_none]
    rw [if_neg fun h => hnone h.1]
    rfl
  | cons prior rest ih =>
    cases rest with
    | nil =>
      show _ + 0 = 0 + _
      rw [Nat.add_comm]
      rfl
    | cons next rest =>
      have hlast : (prior :: next :: rest).getLast? = (next :: rest).getLast? :=
        List.getLast?_cons_cons
      rw [hlast]
      show _ + transitionsOf epoch ((next :: rest) ++ [snapshot]) = _
      rw [ih, ← Nat.add_assoc]
      rfl

theorem filter_append_self : (given ++ [snapshot]).filter
    (fun s => s.snapshot_key = snapshot.snapshot_key) =
      (given.filter fun s => s.snapshot_key = snapshot.snapshot_key) ++ [snapshot] := by
  rw [List.filter_append, List.filter_singleton]
  simp

theorem filter_append_other (h : snapshot.snapshot_key ≠ key) : (given ++ [snapshot]).filter
    (fun s => s.snapshot_key = key) = given.filter fun s => s.snapshot_key = key := by
  rw [List.filter_append, List.filter_singleton]
  simp [h]

theorem transitions_self : transitions snapshot.snapshot_key epoch (given ++ [snapshot]) =
    transitions snapshot.snapshot_key epoch given +
      if Completes snapshot (lastAwaited snapshot.snapshot_key given) ∧
        snapshot.namespace_epoch = some epoch then 1 else 0 := by
  unfold transitions
  rw [filter_append_self, transitionsOf_append]
  rfl

theorem transitions_other (h : snapshot.snapshot_key ≠ key) :
    transitions key epoch (given ++ [snapshot]) = transitions key epoch given := by
  unfold transitions
  rw [filter_append_other h]

theorem lastAwaited_self :
    lastAwaited snapshot.snapshot_key (given ++ [snapshot]) = awaitedBy snapshot := by
  unfold lastAwaited lastGiven
  rw [filter_append_self, List.getLast?_append]
  rfl

theorem lastAwaited_other (h : snapshot.snapshot_key ≠ key) :
    lastAwaited key (given ++ [snapshot]) = lastAwaited key given := by
  unfold lastAwaited lastGiven
  rw [filter_append_other h]

theorem transition_iff (prior : Option AgentState) :
    is_task_completion_transition prior (activityOf snapshot) snapshot.namespace_epoch = true ↔
      Completes snapshot (awaited prior) := by
  unfold is_task_completion_transition Completes awaited
  cases prior with
  | none => simp
  | some prior =>
    by_cases hactive : prior.activity_state = .active
    · simp [hactive, and_assoc]
    · simp [hactive]

def agentState (snapshot : NotificationSnapshot) (completion_sequence : ℕ) : AgentState :=
  ⟨snapshot.namespace_epoch, activityOf snapshot, completion_sequence⟩

theorem awaited_agentState (n : ℕ) : awaited (some (agentState snapshot n)) = awaitedBy snapshot :=
  rfl

/-- What a snapshot does: nothing but to be recorded; to be counted, where the event is
there already; or to be counted with a new event. -/
theorem step_cases (pass : CompletionPass) (snapshot : NotificationSnapshot) :
    let prior := pass.agents snapshot.snapshot_key
    let pass' := pass.step snapshot
    (¬ Completes snapshot (awaited prior) ∧ pass'.emitted = pass.emitted ∧
      pass'.existing = pass.existing ∧ pass'.agents = Function.update pass.agents
        snapshot.snapshot_key (some (agentState snapshot (counter prior)))) ∨
    (Completes snapshot (awaited prior) ∧
      dedupe_key snapshot (counter prior + 1) ∈ pass.existing ∧ pass'.emitted = pass.emitted ∧
      pass'.existing = pass.existing ∧ pass'.agents = Function.update pass.agents
        snapshot.snapshot_key (some (agentState snapshot (counter prior + 1)))) ∨
    (Completes snapshot (awaited prior) ∧
      dedupe_key snapshot (counter prior + 1) ∉ pass.existing ∧
      (∃ event, pass'.emitted = pass.emitted ++ [event] ∧
        event.dedupe_key = dedupe_key snapshot (counter prior + 1)) ∧
      pass'.existing = dedupe_key snapshot (counter prior + 1) :: pass.existing ∧
      pass'.agents = Function.update pass.agents
        snapshot.snapshot_key (some (agentState snapshot (counter prior + 1)))) := by
  intro prior pass'
  have htransition := @transition_iff snapshot prior
  by_cases hcompletes : Completes snapshot (awaited prior)
  · have hpass : pass' = (pass.complete snapshot (dedupe_key snapshot (counter prior + 1))).record
        snapshot.snapshot_key (agentState snapshot (counter prior + 1)) :=
      if_pos (htransition.mpr hcompletes)
    rw [hpass]
    unfold CompletionPass.complete
    by_cases hexisting : dedupe_key snapshot (counter prior + 1) ∈ pass.existing
    · rw [if_pos hexisting]
      exact .inr (.inl ⟨hcompletes, hexisting, rfl, rfl, rfl⟩)
    · rw [if_neg hexisting]
      exact .inr (.inr ⟨hcompletes, hexisting, ⟨_, rfl, rfl⟩, rfl, rfl⟩)
  · have hpass : pass' = pass.record snapshot.snapshot_key (agentState snapshot (counter prior)) :=
      if_neg fun h => hcompletes (htransition.mp h)
    rw [hpass]
    exact .inl ⟨hcompletes, rfl, rfl, rfl⟩

theorem completionOf_dedupe {event : Event} {n : ℕ} (h : event.dedupe_key = dedupe_key snapshot n) :
    completionOf key event =
      if snapshot.snapshot_key = key then some (snapshot.namespace_epoch, n) else none := by
  unfold completionOf
  rw [h]
  rfl

/-- A call that has come so far; it began with the store. -/
structure PassKept (limits : Limits) (store : NotificationStore)
    (done : List NotificationSnapshot) (pass : CompletionPass) : Prop where
  written : ∀ d ∈ pass.existing, ∃ e ∈ store.emitted ++ pass.emitted, e.dedupe_key = d
  existing : ∀ d ∈ (store.completion_events limits).map fun event => event.dedupe_key,
    d ∈ pass.existing
  counts : ∀ key epoch, completionEvents key epoch (store.emitted ++ pass.emitted) =
    transitions key epoch (store.given ++ done)
  visited : ∀ key, (∃ s ∈ done, s.snapshot_key = key) →
    (∀ completion ∈ completions key (store.emitted ++ pass.emitted),
      completion.2 ≤ counter (pass.agents key)) ∧
    awaited (pass.agents key) = lastAwaited key (store.given ++ done)
  unvisited : ∀ key, (∀ s ∈ done, s.snapshot_key ≠ key) →
    pass.agents key = store.state.agents key ∧ completions key pass.emitted = [] ∧
    lastAwaited key (store.given ++ done) = lastAwaited key store.given

variable {done : List NotificationSnapshot} {pass : CompletionPass}

theorem readyFor_of_kept (h : PassKept limits store done pass)
    (hready : (∀ s ∈ done, s.snapshot_key ≠ snapshot.snapshot_key) → Ready limits store snapshot) :
    ReadyFor (pass.agents snapshot.snapshot_key)
      (lastAwaited snapshot.snapshot_key (store.given ++ done))
      (completions snapshot.snapshot_key (store.emitted ++ pass.emitted)) pass.existing
      snapshot := by
  by_cases hvisited : ∃ s ∈ done, s.snapshot_key = snapshot.snapshot_key
  · obtain ⟨hcounted, hawaited⟩ := h.visited _ hvisited
    refine .inl ⟨hcounted, ?_⟩
    rw [hawaited]
  · have hnew : ∀ s ∈ done, s.snapshot_key ≠ snapshot.snapshot_key :=
      fun s hs heq => hvisited ⟨s, hs, heq⟩
    obtain ⟨hagents, hnone, hlast⟩ := h.unvisited _ hnew
    have hwritten : completions snapshot.snapshot_key (store.emitted ++ pass.emitted) =
        completions snapshot.snapshot_key store.emitted := by
      unfold completions at hnone ⊢
      rw [List.filterMap_append, hnone, List.append_nil]
    rw [hagents, hlast, hwritten]
    rcases hready hnew with hcounted | ⟨hbound, hfile, hgiven, hexisting⟩
    · exact .inl hcounted
    · exact .inr ⟨hbound, hfile, hgiven, h.existing _ hexisting⟩

theorem PassKept.others {pass' : CompletionPass} (h : PassKept limits store done pass)
    {new : List Event} (hemitted : pass'.emitted = pass.emitted ++ new)
    (hnew : ∀ key, snapshot.snapshot_key ≠ key → completions key new = [])
    {state : AgentState}
    (hagents : pass'.agents = Function.update pass.agents snapshot.snapshot_key (some state))
    (hwritten : ∀ d ∈ pass'.existing, ∃ e ∈ store.emitted ++ pass'.emitted, e.dedupe_key = d)
    (hexisting : ∀ d ∈ pass.existing, d ∈ pass'.existing)
    (hcounts : ∀ epoch,
      completionEvents snapshot.snapshot_key epoch (store.emitted ++ pass'.emitted) =
        transitions snapshot.snapshot_key epoch (store.given ++ (done ++ [snapshot])))
    (hcounted : ∀ completion ∈ completions snapshot.snapshot_key (store.emitted ++ pass'.emitted),
      completion.2 ≤ state.completion_sequence)
    (hawaited : awaited (some state) = awaitedBy snapshot) :
    PassKept limits store (done ++ [snapshot]) pass' := by
  have hother : ∀ key, snapshot.snapshot_key ≠ key →
      completions key (store.emitted ++ pass'.emitted) =
        completions key (store.emitted ++ pass.emitted) := by
    intro key hne
    have hnone := hnew key hne
    unfold completions at hnone ⊢
    rw [hemitted, ← List.append_assoc, List.filterMap_append, hnone, List.append_nil]
  have hagents_other : ∀ key, snapshot.snapshot_key ≠ key → pass'.agents key = pass.agents key := by
    intro key hne
    rw [hagents]
    exact Function.update_of_ne (Ne.symm hne) ..
  have hagents_self : pass'.agents snapshot.snapshot_key = some state := by
    rw [hagents]
    exact Function.update_self ..
  have hlast : ∀ key, snapshot.snapshot_key ≠ key →
      lastAwaited key (store.given ++ (done ++ [snapshot])) =
        lastAwaited key (store.given ++ done) := by
    intro key hne
    rw [← List.append_assoc]
    exact lastAwaited_other hne
  refine ⟨hwritten, fun d hd => hexisting d (h.existing d hd), ?_, ?_, ?_⟩
  · intro key epoch
    by_cases hkey : snapshot.snapshot_key = key
    · rw [← hkey]
      exact hcounts epoch
    · unfold completionEvents
      rw [hother key hkey, ← List.append_assoc, transitions_other hkey]
      exact h.counts key epoch
  · intro key hvisited
    by_cases hkey : snapshot.snapshot_key = key
    · rw [← hkey, hagents_self]
      refine ⟨hcounted, ?_⟩
      rw [hawaited, ← List.append_assoc, lastAwaited_self]
    · obtain ⟨s, hs, hsame⟩ := hvisited
      rcases List.mem_append.mp hs with hs | hs
      · rw [hother key hkey, hagents_other key hkey, hlast key hkey]
        exact h.visited key ⟨s, hs, hsame⟩
      · rw [List.mem_singleton.mp hs] at hsame
        exact absurd hsame hkey
  · intro key hunvisited
    have hkey : snapshot.snapshot_key ≠ key :=
      hunvisited snapshot (List.mem_append_right _ (List.mem_singleton_self _))
    obtain ⟨hsame, hnone, hgiven⟩ := h.unvisited key fun s hs =>
      hunvisited s (List.mem_append_left _ hs)
    refine ⟨(hagents_other key hkey).trans hsame, ?_, (hlast key hkey).trans hgiven⟩
    have hnone' := hnew key hkey
    unfold completions at hnone hnone' ⊢
    rw [hemitted, List.filterMap_append, hnone, hnone']
    rfl

theorem PassKept.step (h : PassKept limits store done pass)
    (hready : (∀ s ∈ done, s.snapshot_key ≠ snapshot.snapshot_key) → Ready limits store snapshot) :
    PassKept limits store (done ++ [snapshot]) (pass.step snapshot) := by
  have hfor := readyFor_of_kept h hready
  have hcases := step_cases pass snapshot
  have hcounts := h.counts snapshot.snapshot_key
  generalize pass.step snapshot = pass' at hcases ⊢
  -- without a new event the count stays, since the snapshot completes nothing
  have hsilent : ∀ n, pass'.emitted = pass.emitted → pass'.existing = pass.existing →
      pass'.agents = Function.update pass.agents snapshot.snapshot_key
        (some (agentState snapshot n)) →
      ¬ Completes snapshot (lastAwaited snapshot.snapshot_key (store.given ++ done)) →
      (∀ completion ∈ completions snapshot.snapshot_key (store.emitted ++ pass.emitted),
        completion.2 ≤ n) →
      PassKept limits store (done ++ [snapshot]) pass' := by
    intro n hemitted hexisting hagents hnot hcounted
    have hnone : pass'.emitted = pass.emitted ++ [] := by
      rw [hemitted, List.append_nil]
    refine h.others hnone (fun _ _ => rfl) hagents ?_ ?_ ?_ ?_ (awaited_agentState n)
    · rw [hemitted, hexisting]
      exact h.written
    · rw [hexisting]
      exact fun d hd => hd
    · intro epoch
      rw [hemitted, ← List.append_assoc, transitions_self, if_neg fun h => hnot h.1]
      exact hcounts epoch
    · rw [hemitted]
      exact hcounted
  rcases hcases with ⟨hnot, hemitted, hexisting, hagents⟩ |
    ⟨hcompletes, hmem, hemitted, hexisting, hagents⟩ |
    ⟨hcompletes, hmem, ⟨event, hemitted, hevent⟩, hexisting, hagents⟩
  · rcases hfor with ⟨hcounted, hiff⟩ | ⟨_, hcompletes, _, _⟩
    · exact hsilent _ hemitted hexisting hagents (fun hlast => hnot (hiff.mpr hlast)) hcounted
    · exact absurd hcompletes hnot
  · rcases hfor with ⟨hcounted, _⟩ | ⟨hbound, _, hlast, _⟩
    · obtain ⟨e, he, hkey⟩ := h.written _ hmem
      have hwritten : (snapshot.namespace_epoch,
          counter (pass.agents snapshot.snapshot_key) + 1) ∈
            completions snapshot.snapshot_key (store.emitted ++ pass.emitted) := by
        apply List.mem_filterMap.mpr
        refine ⟨e, he, ?_⟩
        rw [completionOf_dedupe hkey, if_pos rfl]
      have hle := hcounted _ hwritten
      exact absurd hle (Nat.not_succ_le_self _)
    · exact hsilent _ hemitted hexisting hagents hlast hbound
  · rcases hfor with ⟨hcounted, hiff⟩ | ⟨_, _, _, hexists⟩
    · have hself : completions snapshot.snapshot_key [event] = [(snapshot.namespace_epoch,
          counter (pass.agents snapshot.snapshot_key) + 1)] := by
        unfold completions
        rw [List.filterMap_cons_some, List.filterMap_nil]
        rw [completionOf_dedupe hevent, if_pos rfl]
      have hall : completions snapshot.snapshot_key (store.emitted ++ pass'.emitted) =
          completions snapshot.snapshot_key (store.emitted ++ pass.emitted) ++
            [(snapshot.namespace_epoch, counter (pass.agents snapshot.snapshot_key) + 1)] := by
        unfold completions at hself ⊢
        rw [hemitted, ← List.append_assoc, List.filterMap_append, hself]
      refine h.others hemitted ?_ hagents ?_ ?_ ?_ ?_ (awaited_agentState _)
      · intro key hne
        unfold completions
        rw [List.filterMap_cons_none, List.filterMap_nil]
        rw [completionOf_dedupe hevent, if_neg hne]
      · rw [hemitted, hexisting]
        intro d hd
        rcases List.mem_cons.mp hd with rfl | hd
        · exact ⟨event, by simp, hevent⟩
        · obtain ⟨e, he, hkey⟩ := h.written d hd
          refine ⟨e, ?_, hkey⟩
          rw [← List.append_assoc]
          exact List.mem_append_left _ he
      · rw [hexisting]
        exact fun d hd => List.mem_cons_of_mem _ hd
      · intro epoch
        have hbefore := hcounts epoch
        have hlast := hiff.mp hcompletes
        unfold completionEvents at hbefore ⊢
        rw [hall, List.countP_append, hbefore, ← List.append_assoc, transitions_self]
        congr 1
        by_cases hepoch : snapshot.namespace_epoch = some epoch
        · simp [hepoch, hlast]
        · simp [hepoch]
      · rw [hall]
        intro completion hmem
        rcases List.mem_append.mp hmem with hmem | hmem
        · exact Nat.le_succ_of_le (hcounted completion hmem)
        · rw [List.mem_singleton.mp hmem]
          exact Nat.le_refl _
    · exact absurd hexists hmem

theorem pass_kept (h : PassKept limits store done pass) (rest : List NotificationSnapshot)
    (hready : ∀ snapshot ∈ done ++ rest, ((done ++ rest).find? fun s =>
      s.snapshot_key = snapshot.snapshot_key) = some snapshot → Ready limits store snapshot) :
    PassKept limits store (done ++ rest) (rest.foldl CompletionPass.step pass) := by
  induction rest generalizing done pass with
  | nil =>
    rw [List.append_nil]
    exact h
  | cons snapshot rest ih =>
    have hsplit : done ++ snapshot :: rest = (done ++ [snapshot]) ++ rest := by simp
    have hstep : PassKept limits store (done ++ [snapshot]) (pass.step snapshot) := by
      apply h.step
      intro hnew
      apply hready snapshot (List.mem_append_right _ List.mem_cons_self)
      rw [List.find?_append, List.find?_eq_none.mpr, Option.none_or, List.find?_cons_of_pos]
      · simp
      · intro s hs
        simpa using hnew s hs
    rw [hsplit] at hready ⊢
    exact ih hstep hready

/-- The events are those of the completions in the snapshots. -/
def Counted (store : NotificationStore) : Prop :=
  ∀ key epoch, completionEvents key epoch store.emitted = transitions key epoch store.given

theorem pass_start (limits : Limits) (h : JournalsKept store) (hcounted : Counted store) :
    PassKept limits store [] (store.completion_pass limits) := by
  refine ⟨?_, fun d hd => hd, ?_, ?_, ?_⟩
  · intro d hd
    obtain ⟨e, he, hkey⟩ := List.mem_map.mp hd
    rw [completion_events_eq h] at he
    exact ⟨e, List.mem_append_left _ (h.completions e he).1, hkey⟩
  · intro key epoch
    show completionEvents key epoch (store.emitted ++ []) = _
    rw [List.append_nil, List.append_nil]
    exact hcounted key epoch
  · rintro key ⟨s, hs, _⟩
    exact absurd hs List.not_mem_nil
  · intro key _
    refine ⟨rfl, rfl, ?_⟩
    rw [List.append_nil]

theorem counted_sync_snapshots (h : JournalsKept store) (hcounted : Counted store)
    (snapshots : List NotificationSnapshot) (stop : Option NotificationStore.Stop)
    (hready : Orderly limits store (.sync_snapshots snapshots stop)) :
    Counted (store.sync_snapshots limits snapshots stop) := by
  rcases hready with rfl | hready
  · exact hcounted
  · have hpass := pass_kept (pass_start limits h hcounted) snapshots hready
    cases stop with
    | none => exact hpass.counts
    | some stop =>
      cases stop with
      | before_events => exact hcounted
      | before_state => exact hpass.counts

theorem counted_sync_invalidations (h : JournalsKept store) (hcounted : Counted store)
    {snapshots : List InvalidationSnapshot} (hlines : ∀ s ∈ snapshots, s.one_line)
    (stop : Option NotificationStore.Stop) :
    Counted (store.sync_invalidations limits snapshots stop) := by
  have hmade := sync_invalidations_made limits h hlines
  unfold NotificationStore.sync_invalidations
  dsimp only at hmade ⊢
  generalize List.foldl InvalidationPass.summarize _ _ = pass at hmade ⊢
  have hnone : ∀ key, completions key pass.emitted = [] := by
    intro key
    apply List.filterMap_eq_nil_iff.mpr
    intro e he
    have hdedupe := hmade.dedupe e he
    unfold completionOf
    split
    · rename_i hkey
      exact absurd hkey (hdedupe _ _ _ _)
    · rfl
  have hwritten : ∀ key epoch, completionEvents key epoch (store.emitted ++ pass.emitted) =
      transitions key epoch store.given := by
    intro key epoch
    have hkey := hnone key
    have hbefore := hcounted key epoch
    unfold completionEvents completions at hbefore hkey ⊢
    rw [List.filterMap_append, hkey, List.append_nil]
    exact hbefore
  cases stop with
  | none => exact hwritten
  | some stop =>
    cases stop with
    | before_events => exact hcounted
    | before_state => exact hwritten

theorem counted_run {steps : List Journal.Step} {journal : Journal}
    (h : JournalsKept journal.store) (hcounted : Counted journal.store)
    (hlines : ∀ c ∈ steps, c.one_line) (horderly : OrderlyRun limits steps journal) :
    Counted (journal.run limits steps).store := by
  unfold Journal.run
  induction steps generalizing journal with
  | nil => exact hcounted
  | cons c steps ih =>
    obtain ⟨hline, hlines⟩ := List.forall_mem_cons.mp hlines
    apply ih (kept_step h hline) _ hlines horderly.2
    cases c with
    | sync_snapshots snapshots stop =>
      exact counted_sync_snapshots h hcounted snapshots stop horderly.1
    | sync_invalidations snapshots stop =>
      exact counted_sync_invalidations h hcounted (List.all_eq_true.mp hline) stop
    | poll => exact hcounted

/-- In a run on texts of one line in which every agent that a stop has left behind in the state
file is caught up with by its next snapshot, the ids of the events ascend, and for every agent and
epoch there are as many events as completions in the snapshots. -/
theorem completions_counted (limits : Limits) (steps : List Journal.Step)
    (hlines : ∀ c ∈ steps, c.one_line) (h : OrderlyRun limits steps .start) :
    let store := (Journal.start.run limits steps).store
    Ascending Event.sequence store.emitted ∧ (∀ e ∈ store.emitted, e.id = .event e.sequence) ∧
    ∀ key epoch, completionEvents key epoch store.emitted = transitions key epoch store.given := by
  intro store
  have hkept : JournalsKept store := kept_run kept_empty hlines
  have hstart : Counted Journal.start.store := fun key epoch => rfl
  exact ⟨hkept.emitted, hkept.ids, counted_run kept_empty hstart hlines h⟩

section Runs

def agentSnapshot (activity_state : String) : NotificationSnapshot :=
  { project_id := asciiText "p"
    project_short_name := asciiText "project"
    namespace_epoch := some 1
    agent := asciiText "a"
    activity_state := asciiText activity_state
    observed_at := [] }

/-- The call that completes the agent stops before it writes the state, and is repeated. -/
def repeated : List Journal.Step :=
  [.sync_snapshots [agentSnapshot "active"] none,
    .sync_snapshots [agentSnapshot "idle"] (some .before_state),
    .sync_snapshots [agentSnapshot "idle"] none,
    .sync_snapshots [agentSnapshot "active"] none,
    .sync_snapshots [agentSnapshot "idle"] none]

/-- After the stop the agent is active again. -/
def notRepeated : List Journal.Step :=
  [.sync_snapshots [agentSnapshot "active"] none,
    .sync_snapshots [agentSnapshot "idle"] (some .before_state),
    .sync_snapshots [agentSnapshot "active"] none,
    .sync_snapshots [agentSnapshot "idle"] none]

theorem second_completion_lost :
    let store := (Journal.start.run ⟨100, 1024⟩ notRepeated).store
    let key := (agentSnapshot "idle").snapshot_key
    completionEvents key 1 store.emitted = 1 ∧ transitions key 1 store.given = 2 := by
  decide

instance (limits : Limits) (store : NotificationStore) (snapshot : NotificationSnapshot) :
    Decidable (Ready limits store snapshot) :=
  inferInstanceAs (Decidable ((_ ∧ _) ∨ (_ ∧ _ ∧ ¬ _ ∧ _ ∈ _)))

instance (limits : Limits) (store : NotificationStore) : DecidablePred (Orderly limits store)
  | .sync_snapshots _ _ => inferInstanceAs (Decidable (_ ∨ ∀ snapshot ∈ _, _ → _))
  | .sync_invalidations _ _ => inferInstanceAs (Decidable True)
  | .poll => inferInstanceAs (Decidable True)

theorem orderly_repeated : OrderlyRun ⟨100, 1024⟩ repeated .start := by
  refine ⟨?_, ?_, ?_, ?_, ?_, trivial⟩ <;> decide

theorem completions_counted_repeated :
    let store := (Journal.start.run ⟨100, 1024⟩ repeated).store
    Ascending Event.sequence store.emitted ∧ (∀ e ∈ store.emitted, e.id = .event e.sequence) ∧
    ∀ key epoch, completionEvents key epoch store.emitted = transitions key epoch store.given :=
  completions_counted ⟨100, 1024⟩ repeated (by decide) orderly_repeated

end Runs

end ClaudeCodeBridge.Analysis.Notification
