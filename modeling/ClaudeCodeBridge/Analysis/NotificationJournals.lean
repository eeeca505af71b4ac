import ClaudeCodeBridge.Model.NotificationStore

/-!
# The journals of notifications

What holds of the two journals in every run, with stops: the events of calls that write
their journal ascend (`JournalsKept.emitted`), the newest of them is in a journal, and
each journal holds all of its kind from its oldest event on, the invalidations as far as no
newer one of their key stands for them.

The ladder: the events of one call (`Batch`); the loops of `sync_snapshots`
(`CompletionsMade`) and of `sync_invalidations` (`InvalidationsMade`); the files
(`kept_sync_snapshots`, `kept_sync_invalidations`).
-/

set_option autoImplicit false

namespace ClaudeCodeBridge.Analysis.Notification

open Program
open Model.Notification

variable {limits : Limits} {store : NotificationStore} {bound next : ℕ} {new : List Event}
  {e e' : Event}

theorem recent_limit_pos (limits : Limits) : 0 < limits.recent_limit := by
  unfold Limits.recent_limit
  omega

theorem completion_limit_pos (limits : Limits) : 0 < limits.completion_limit := by
  unfold Limits.completion_limit
  omega

/-- New events, from `bound` on and before `next`. -/
structure Batch (bound next : ℕ) (new : List Event) : Prop where
  ascending : Ascending Event.sequence new
  low : ∀ e ∈ new, bound ≤ e.sequence
  high : ∀ e ∈ new, e.sequence < next
  ids : ∀ e ∈ new, e.id = .event e.sequence
  lines : ∀ e ∈ new, e.one_line
  le : bound ≤ next

theorem batch_nil (bound : ℕ) : Batch bound bound [] := by
  refine ⟨List.Pairwise.nil, ?_, ?_, ?_, ?_, Nat.le_refl _⟩ <;> simp

theorem Batch.emit (h : Batch bound next new) (hid : e.id = .event next)
    (hline : e.one_line) : Batch bound (next + 1) (new ++ [e]) := by
  have hsequence : e.sequence = next := by
    unfold Event.sequence
    rw [hid]
    rfl
  have hle := h.le
  have hall : ∀ x ∈ new ++ [e], x ∈ new ∨ x = e := by
    intro x hx
    rcases List.mem_append.mp hx with hx | hx
    · exact .inl hx
    · exact .inr (List.mem_singleton.mp hx)
  refine ⟨?_, ?_, ?_, ?_, ?_, Nat.le_succ_of_le hle⟩
  · apply h.ascending.append (List.pairwise_singleton _ _) h.high
    intro x hx
    rw [List.mem_singleton.mp hx, hsequence]
  · intro x hx
    rcases hall x hx with hx | rfl
    · exact h.low x hx
    · rw [hsequence]
      exact hle
  · intro x hx
    rcases hall x hx with hx | rfl
    · exact Nat.lt_succ_of_lt (h.high x hx)
    · rw [hsequence]
      exact Nat.lt_succ_self _
  · intro x hx
    rcases hall x hx with hx | rfl
    · exact h.ids x hx
    · rw [hsequence]
      exact hid
  · intro x hx
    rcases hall x hx with hx | rfl
    · exact h.lines x hx
    · exact hline

/-- The completions of a loop that began with `before`. -/
structure CompletionsMade (before : List Event) (bound : ℕ) (pass : CompletionPass) : Prop where
  batch : Batch bound pass.next_event_sequence pass.emitted
  completions : pass.completions = before ++ pass.emitted
  kinds : ∀ e ∈ pass.emitted, e.kind = .task_completed

variable {before : List Event}

theorem CompletionsMade.step {pass : CompletionPass} (h : CompletionsMade before bound pass)
    (hpos : 0 < bound) {snapshot : NotificationSnapshot} (hline : snapshot.one_line) :
    CompletionsMade before bound (pass.step snapshot) := by
  have hnext : pass.next_sequence = pass.next_event_sequence := by
    have hle := h.batch.le
    unfold CompletionPass.next_sequence
    omega
  have hcomplete : ∀ key, CompletionsMade before bound (pass.complete snapshot key) := by
    intro key
    unfold CompletionPass.complete
    split
    · exact h
    · refine ⟨?_, ?_, ?_⟩
      · rw [hnext]
        exact h.batch.emit rfl hline
      · show pass.completions ++ _ = before ++ (pass.emitted ++ _)
        rw [h.completions, List.append_assoc]
      · intro e he
        rcases List.mem_append.mp he with he | he
        · exact h.kinds e he
        · rw [List.mem_singleton.mp he]
          rfl
  unfold CompletionPass.step
  dsimp only
  split
  · obtain ⟨hbatch, hcompletions, hkinds⟩ := hcomplete (dedupe_key snapshot _)
    exact ⟨hbatch, hcompletions, hkinds⟩
  · exact ⟨h.batch, h.completions, h.kinds⟩

theorem completions_made {pass : CompletionPass} (h : CompletionsMade before bound pass)
    (hpos : 0 < bound) {snapshots : List NotificationSnapshot}
    (hlines : ∀ s ∈ snapshots, s.one_line) :
    CompletionsMade before bound (snapshots.foldl CompletionPass.step pass) :=
  List.foldlRecOn _ _ h fun _ h s hs => h.step hpos (hlines s hs)

/-- The records of loops that began with `before`. -/
structure InvalidationsMade (before : List Event) (bound : ℕ) (pass : InvalidationPass) : Prop where
  batch : Batch bound pass.next_event_sequence pass.emitted
  keys : (pass.records.map Event.invalidation_record_key).Nodup
  records : ∀ e ∈ pass.records, e ∈ before ∨ e ∈ pass.emitted
  stands : ∀ e, e ∈ before ∨ e ∈ pass.emitted → ∃ e' ∈ pass.records,
    e'.invalidation_record_key = e.invalidation_record_key ∧ e.sequence ≤ e'.sequence
  kinds : ∀ e ∈ pass.emitted, e.invalidation_record_key.isSome
  dedupe : ∀ e ∈ pass.emitted, ∀ project_id namespace_epoch agent n,
    e.dedupe_key ≠ .completion project_id namespace_epoch agent n
  summaries : ∀ s ∈ pass.summary_changed, s.one_line

variable {pass : InvalidationPass}

theorem InvalidationsMade.invalidate (h : InvalidationsMade before bound pass) (hpos : 0 < bound)
    (hbefore : ∀ e ∈ before, e.sequence < bound) {snapshot : InvalidationSnapshot}
    (hline : snapshot.one_line) (kind : EventKind) (scope : String) {agent : Text}
    (hagent : one_line agent)
    (hkind : kind ∈ [.project_summary_changed, .agent_activity_changed, .conversation_changed]) :
    InvalidationsMade before bound (pass.invalidate snapshot kind scope agent) := by
  have hle := h.batch.le
  have hnext : pass.next_sequence = pass.next_event_sequence := by
    unfold InvalidationPass.next_sequence
    omega
  unfold InvalidationPass.invalidate
  generalize hevent : InvalidationPass.invalidation_event pass.next_sequence snapshot kind scope
    agent = event
  have hid : event.id = .event pass.next_event_sequence := by
    rw [← hevent, ← hnext]
    rfl
  have hsequence : event.sequence = pass.next_event_sequence := by
    unfold Event.sequence
    rw [hid]
    rfl
  have hkey : event.invalidation_record_key.isSome := by
    have hkind' : event.kind = kind := by rw [← hevent]; rfl
    unfold Event.invalidation_record_key
    rw [hkind', if_pos hkind]
    rfl
  have hline' : event.one_line := by
    unfold NotificationSnapshot.one_line at hline
    unfold Event.one_line
    rw [← hevent]
    simp only [List.all_cons, Bool.and_eq_true] at hline ⊢
    exact ⟨hline.1, hline.2.1, hagent, hline.2.2.2⟩
  have hmem : ∀ x, x ∈ upsert Event.invalidation_record_key event pass.records ↔ x = event ∨
      x ∈ pass.records ∧ x.invalidation_record_key ≠ event.invalidation_record_key :=
    fun x => mem_upsert _ h.keys
  refine ⟨?_, upsert_nodup _ h.keys, ?_, ?_, ?_, ?_, h.summaries⟩
  · rw [hnext]
    exact h.batch.emit hid hline'
  · intro x hx
    rcases (hmem x).mp hx with rfl | ⟨hx, _⟩
    · exact .inr (List.mem_append_right _ (List.mem_singleton_self _))
    · exact (h.records x hx).imp_right fun hx => List.mem_append_left _ hx
  · intro x hx
    have hx' : (x ∈ before ∨ x ∈ pass.emitted) ∨ x = event := by
      rcases hx with hx | hx
      · exact .inl (.inl hx)
      · rcases List.mem_append.mp hx with hx | hx
        · exact .inl (.inr hx)
        · exact .inr (List.mem_singleton.mp hx)
    rcases hx' with hx | rfl
    · obtain ⟨y, hy, hkeys, hnewer⟩ := h.stands x hx
      by_cases hsame : y.invalidation_record_key = event.invalidation_record_key
      · refine ⟨event, (hmem event).mpr (.inl rfl), hsame.symm.trans hkeys, ?_⟩
        rw [hsequence]
        rcases hx with hx | hx
        · have hlow := hbefore x hx
          omega
        · have hhigh := h.batch.high x hx
          omega
      · exact ⟨y, (hmem y).mpr (.inr ⟨hy, hsame⟩), hkeys, hnewer⟩
    · exact ⟨x, (hmem x).mpr (.inl rfl), rfl, Nat.le_refl _⟩
  · intro x hx
    rcases List.mem_append.mp hx with hx | hx
    · exact h.kinds x hx
    · rw [List.mem_singleton.mp hx]
      exact hkey
  · intro x hx
    rcases List.mem_append.mp hx with hx | hx
    · exact h.dedupe x hx
    · rw [List.mem_singleton.mp hx, ← hevent]
      intro project_id namespace_epoch agent n hdedupe
      cases hdedupe

theorem InvalidationsMade.same {pass' : InvalidationPass} (h : InvalidationsMade before bound pass)
    (hnext : pass'.next_event_sequence = pass.next_event_sequence)
    (hrecords : pass'.records = pass.records) (hemitted : pass'.emitted = pass.emitted)
    (hsummaries : ∀ s ∈ pass'.summary_changed, s.one_line) :
    InvalidationsMade before bound pass' := by
  obtain ⟨hbatch, hkeys, hmade, hstands, hkinds, hdedupe, _⟩ := h
  refine ⟨?_, ?_, ?_, ?_, ?_, ?_, hsummaries⟩
  · rw [hnext, hemitted]
    exact hbatch
  · rw [hrecords]
    exact hkeys
  · rw [hrecords, hemitted]
    exact hmade
  · rw [hrecords, hemitted]
    exact hstands
  · rw [hemitted]
    exact hkinds
  · rw [hemitted]
    exact hdedupe

theorem InvalidationsMade.step (h : InvalidationsMade before bound pass) (hpos : 0 < bound)
    (hbefore : ∀ e ∈ before, e.sequence < bound) {snapshot : InvalidationSnapshot}
    (hline : snapshot.one_line) : InvalidationsMade before bound (pass.step snapshot) := by
  have hagent : one_line snapshot.agent := by
    unfold NotificationSnapshot.one_line at hline
    simp only [List.all_cons, Bool.and_eq_true] at hline
    exact hline.2.2.1
  unfold InvalidationPass.step
  cases hprior : pass.agents snapshot.snapshot_key with
  | none =>
    dsimp only
    rw [hprior]
    exact h.same rfl rfl rfl h.summaries
  | some prior =>
    dsimp only
    rw [hprior]
    have hactivity : ∀ c : Prop, [Decidable c] → InvalidationsMade before bound
        (if c then
          (pass.invalidate snapshot .agent_activity_changed "agent" snapshot.agent).note_summary
            snapshot
        else pass) := by
      intro c _
      split
      · refine (h.invalidate hpos hbefore hline _ _ hagent (by decide)).same rfl rfl rfl ?_
        intro s hs
        obtain rfl | hs := mem_of_upsert _ hs
        · exact hline
        · exact h.summaries s hs
      · exact h
    have hconversation : ∀ (pass : InvalidationPass) (c : Prop) [Decidable c],
        InvalidationsMade before bound pass → InvalidationsMade before bound
        (if c then pass.invalidate snapshot .conversation_changed "conversation" snapshot.agent
        else pass) := by
      intro pass c _ h
      split
      · exact h.invalidate hpos hbefore hline _ _ hagent (by decide)
      · exact h
    have hmade := fun c c' [Decidable c] [Decidable c'] => hconversation _ c' (hactivity c)
    exact (hmade _ _).same rfl rfl rfl (hmade _ _).summaries

theorem invalidations_made (h : InvalidationsMade before bound pass) (hpos : 0 < bound)
    (hbefore : ∀ e ∈ before, e.sequence < bound) {snapshots : List InvalidationSnapshot}
    (hlines : ∀ s ∈ snapshots, s.one_line) :
    InvalidationsMade before bound (snapshots.foldl InvalidationPass.step pass) :=
  List.foldlRecOn _ _ h fun _ h s hs => h.step hpos hbefore (hlines s hs)

theorem summaries_made (h : InvalidationsMade before bound pass) (hpos : 0 < bound)
    (hbefore : ∀ e ∈ before, e.sequence < bound) {snapshots : List InvalidationSnapshot}
    (hlines : ∀ s ∈ snapshots, s.one_line) :
    InvalidationsMade before bound (snapshots.foldl InvalidationPass.summarize pass) :=
  List.foldlRecOn _ _ h fun _ h s hs =>
    h.invalidate hpos hbefore (hlines s hs) _ _ rfl (by decide)

structure JournalsKept (store : NotificationStore) : Prop where
  legacy : store.legacy = []
  emitted : Ascending Event.sequence store.emitted
  ids : ∀ e ∈ store.emitted, e.id = .event e.sequence
  kinds : ∀ e ∈ store.emitted, e.kind = .task_completed ∨ e.invalidation_record_key.isSome
  lines : ∀ e ∈ store.emitted, e.one_line
  completions : ∀ e ∈ store.completion_journal, e ∈ store.emitted ∧ e.kind = .task_completed
  completions_ascend : Ascending Event.sequence store.completion_journal
  invalidations : ∀ e ∈ store.invalidation_journal,
    e ∈ store.emitted ∧ e.invalidation_record_key.isSome
  invalidations_ascend : Ascending Event.sequence store.invalidation_journal
  keys : (store.invalidation_journal.map Event.invalidation_record_key).Nodup
  newest : ∀ e ∈ store.emitted, ∃ e', (e' ∈ store.completion_journal ∨
    e' ∈ store.invalidation_journal) ∧ e.sequence ≤ e'.sequence
  completions_kept : ∀ e ∈ store.emitted, e.kind = .task_completed →
    ∀ c ∈ store.completion_journal, c.sequence ≤ e.sequence → e ∈ store.completion_journal
  /-- For an invalidation that follows one of the journal one of its key stands in the
  journal. -/
  invalidations_kept : ∀ e ∈ store.emitted, e.invalidation_record_key.isSome →
    ∀ i ∈ store.invalidation_journal, i.sequence ≤ e.sequence →
    ∃ e' ∈ store.invalidation_journal,
      e'.invalidation_record_key = e.invalidation_record_key ∧ e.sequence ≤ e'.sequence

theorem kept_empty : JournalsKept .empty := by
  refine ⟨rfl, List.Pairwise.nil, ?_, ?_, ?_, ?_, List.Pairwise.nil, ?_, List.Pairwise.nil,
    List.nodup_nil, ?_, ?_, ?_⟩ <;> simp [NotificationStore.empty]

theorem not_completion (h : e.invalidation_record_key.isSome) : e.kind ≠ .task_completed := by
  intro hkind
  unfold Event.invalidation_record_key at h
  rw [hkind, if_neg (by decide)] at h
  simp at h

theorem read_events_eq (h : JournalsKept store) {journal : List Event}
    (hjournal : ∀ e ∈ journal, e ∈ store.emitted) : read_events journal = journal :=
  List.filter_eq_self.mpr fun e he => h.lines e (hjournal e he)

theorem completion_events_eq (h : JournalsKept store) :
    store.completion_events limits = store.completion_journal := by
  unfold NotificationStore.completion_events
  dsimp only
  rw [read_events_eq h fun e he => (h.completions e he).1, h.legacy]
  split
  · rfl
  · rename_i hempty
    rw [not_not.mp hempty]
    exact List.drop_nil

theorem invalidation_events_eq (h : JournalsKept store) :
    store.invalidation_events limits = store.invalidation_journal := by
  unfold NotificationStore.invalidation_events
  dsimp only
  rw [read_events_eq h fun e he => (h.invalidations e he).1, h.legacy]
  split
  · rfl
  · rename_i hempty
    rw [not_not.mp hempty]
    exact List.drop_nil

theorem JournalsKept.before_next (h : JournalsKept store) (n : ℕ) : ∀ e ∈ store.emitted,
    e.sequence < max n (next_sequence_after
      (store.completion_journal ++ store.invalidation_journal)) := by
  intro e he
  obtain ⟨e', he', hle⟩ := h.newest e he
  have hmax : e'.sequence ≤ maxRank Event.sequence
      (store.completion_journal ++ store.invalidation_journal) :=
    le_maxRank (List.mem_append.mpr he')
  unfold next_sequence_after
  omega

section Writes

variable {store' : NotificationStore} {n : ℕ}

theorem before_new (hbatch : Batch bound next new)
    (hbound : ∀ e ∈ store.emitted, e.sequence < bound) (he : e ∈ store.emitted)
    (he' : e' ∈ new) : e.sequence < e'.sequence :=
  Nat.lt_of_lt_of_le (hbound e he) (hbatch.low e' he')

theorem kept_completions (h : JournalsKept store) (hbatch : Batch bound next new)
    (hbound : ∀ e ∈ store.emitted, e.sequence < bound)
    (hkinds : ∀ e ∈ new, e.kind = .task_completed) (hn : 0 < n)
    (hlegacy : store'.legacy = store.legacy)
    (hcompletions : store'.completion_journal = lastOnes n (store.completion_journal ++ new))
    (hinvalidations : store'.invalidation_journal = store.invalidation_journal)
    (hemitted : store'.emitted = store.emitted ++ new) : JournalsKept store' := by
  have hall : ∀ e ∈ store.completion_journal ++ new,
      e ∈ store.emitted ++ new ∧ e.kind = .task_completed := by
    intro e he
    rcases List.mem_append.mp he with he | he
    · exact ⟨List.mem_append_left _ (h.completions e he).1, (h.completions e he).2⟩
    · exact ⟨List.mem_append_right _ he, hkinds e he⟩
  have hascend : Ascending Event.sequence (store.completion_journal ++ new) :=
    h.completions_ascend.append hbatch.ascending
      (fun e he => hbound e (h.completions e he).1) hbatch.low
  refine ⟨hlegacy.trans h.legacy, ?_, ?_, ?_, ?_, ?_, ?_, ?_, ?_, ?_, ?_, ?_, ?_⟩
  · rw [hemitted]
    exact h.emitted.append hbatch.ascending hbound hbatch.low
  · rw [hemitted]
    intro e he
    rcases List.mem_append.mp he with he | he
    · exact h.ids e he
    · exact hbatch.ids e he
  · rw [hemitted]
    intro e he
    rcases List.mem_append.mp he with he | he
    · exact h.kinds e he
    · exact .inl (hkinds e he)
  · rw [hemitted]
    exact List.forall_mem_append.mpr ⟨h.lines, hbatch.lines⟩
  · rw [hemitted, hcompletions]
    intro e he
    exact hall e (mem_of_lastOnes he)
  · rw [hcompletions]
    exact hascend.lastOnes n
  · rw [hemitted, hinvalidations]
    intro e he
    exact ⟨List.mem_append_left _ (h.invalidations e he).1, (h.invalidations e he).2⟩
  · rw [hinvalidations]
    exact h.invalidations_ascend
  · rw [hinvalidations]
    exact h.keys
  · rw [hemitted, hcompletions, hinvalidations]
    intro e he
    have hjournal : ∀ c ∈ store.completion_journal ++ new, e.sequence ≤ c.sequence →
        ∃ e', (e' ∈ lastOnes n (store.completion_journal ++ new) ∨
          e' ∈ store.invalidation_journal) ∧ e.sequence ≤ e'.sequence := by
      intro c hc hle
      obtain ⟨c', hc', hle'⟩ := hascend.newest hn hc
      exact ⟨c', .inl hc', Nat.le_trans hle hle'⟩
    rcases List.mem_append.mp he with he | he
    · obtain ⟨e', he' | he', hle⟩ := h.newest e he
      · exact hjournal e' (List.mem_append_left _ he') hle
      · exact ⟨e', .inr he', hle⟩
    · exact hjournal e (List.mem_append_right _ he) (Nat.le_refl _)
  · rw [hemitted, hcompletions]
    intro e he hkind c hc hle
    apply hascend.later hc _ hle
    rcases List.mem_append.mp he with he | he
    · rcases List.mem_append.mp (mem_of_lastOnes hc) with hold | hnew
      · exact List.mem_append_left _ (h.completions_kept e he hkind c hold hle)
      · have hlt := before_new hbatch hbound he hnew
        omega
    · exact List.mem_append_right _ he
  · rw [hemitted, hinvalidations]
    intro e he hkey i hi hle
    rcases List.mem_append.mp he with he | he
    · exact h.invalidations_kept e he hkey i hi hle
    · exact absurd (hkinds e he) (not_completion hkey)

theorem kept_invalidations (h : JournalsKept store) {pass : InvalidationPass}
    (hmade : InvalidationsMade store.invalidation_journal bound pass)
    (hbound : ∀ e ∈ store.emitted, e.sequence < bound) (hn : 0 < n)
    (hlegacy : store'.legacy = store.legacy)
    (hcompletions : store'.completion_journal = store.completion_journal)
    (hinvalidations : store'.invalidation_journal =
      lastOnes n (sortedBy Event.sequence pass.records))
    (hemitted : store'.emitted = store.emitted ++ pass.emitted) : JournalsKept store' := by
  have hbatch := hmade.batch
  have hall : ∀ e ∈ pass.records,
      e ∈ store.emitted ++ pass.emitted ∧ e.invalidation_record_key.isSome := by
    intro e he
    rcases hmade.records e he with he | he
    · exact ⟨List.mem_append_left _ (h.invalidations e he).1, (h.invalidations e he).2⟩
    · exact ⟨List.mem_append_right _ he, hmade.kinds e he⟩
  have hemit : Ascending Event.sequence (store.emitted ++ pass.emitted) :=
    h.emitted.append hbatch.ascending hbound hbatch.low
  have hranks : (pass.records.map Event.sequence).Nodup := by
    apply List.Nodup.map_on
    · intro e he e' he' hsame
      exact hemit.eq_of_rank (hall e he).1 (hall e' he').1 hsame
    · exact hmade.keys.of_map
  have hascend := ascending_sortedBy hranks
  -- for every event of a key one that is as new stands in the journal, if one before it does
  have hkept : ∀ e, e ∈ store.invalidation_journal ∨ e ∈ pass.emitted →
      ∀ i ∈ lastOnes n (sortedBy Event.sequence pass.records), i.sequence ≤ e.sequence →
      ∃ e' ∈ lastOnes n (sortedBy Event.sequence pass.records),
        e'.invalidation_record_key = e.invalidation_record_key ∧ e.sequence ≤ e'.sequence := by
    intro e he i hi hle
    obtain ⟨e', he', hkey, hnewer⟩ := hmade.stands e he
    refine ⟨e', ?_, hkey, hnewer⟩
    exact hascend.later hi (mem_sortedBy.mpr he') (Nat.le_trans hle hnewer)
  refine ⟨hlegacy.trans h.legacy, ?_, ?_, ?_, ?_, ?_, ?_, ?_, ?_, ?_, ?_, ?_, ?_⟩
  · rw [hemitted]
    exact hemit
  · rw [hemitted]
    intro e he
    rcases List.mem_append.mp he with he | he
    · exact h.ids e he
    · exact hbatch.ids e he
  · rw [hemitted]
    intro e he
    rcases List.mem_append.mp he with he | he
    · exact h.kinds e he
    · exact .inr (hmade.kinds e he)
  · rw [hemitted]
    exact List.forall_mem_append.mpr ⟨h.lines, hbatch.lines⟩
  · rw [hemitted, hcompletions]
    intro e he
    exact ⟨List.mem_append_left _ (h.completions e he).1, (h.completions e he).2⟩
  · rw [hcompletions]
    exact h.completions_ascend
  · rw [hemitted, hinvalidations]
    intro e he
    exact hall e (mem_sortedBy.mp (mem_of_lastOnes he))
  · rw [hinvalidations]
    exact hascend.lastOnes n
  · rw [hinvalidations]
    have hperm := List.perm_insertionSort (fun a b : Event => a.sequence ≤ b.sequence) pass.records
    apply List.Nodup.sublist ((lastOnes_suffix n _).sublist.map _)
    exact (hperm.map _).nodup_iff.mpr hmade.keys
  · rw [hemitted, hcompletions, hinvalidations]
    intro e he
    have hjournal : ∀ i, i ∈ store.invalidation_journal ∨ i ∈ pass.emitted →
        e.sequence ≤ i.sequence → ∃ e', (e' ∈ store.completion_journal ∨
          e' ∈ lastOnes n (sortedBy Event.sequence pass.records)) ∧ e.sequence ≤ e'.sequence := by
      intro i hi hle
      obtain ⟨i', hi', _, hnewer⟩ := hmade.stands i hi
      obtain ⟨e', he', hnewest⟩ := hascend.newest hn (mem_sortedBy.mpr hi')
      exact ⟨e', .inr he', by omega⟩
    rcases List.mem_append.mp he with he | he
    · obtain ⟨e', he' | he', hle⟩ := h.newest e he
      · exact ⟨e', .inl he', hle⟩
      · exact hjournal e' (.inl he') hle
    · exact hjournal e (.inr he) (Nat.le_refl _)
  · rw [hemitted, hcompletions]
    intro e he hkind c hc hle
    rcases List.mem_append.mp he with he | he
    · exact h.completions_kept e he hkind c hc hle
    · exact absurd hkind (not_completion (hmade.kinds e he))
  · rw [hemitted, hinvalidations]
    intro e he hkey i hi hle
    rcases List.mem_append.mp he with he | he
    · rcases hmade.records i (mem_sortedBy.mp (mem_of_lastOnes hi)) with hold | hnew
      · obtain ⟨e₁, he₁, hkey₁, hle₁⟩ := h.invalidations_kept e he hkey i hold hle
        obtain ⟨e₂, he₂, hkey₂, hle₂⟩ := hkept e₁ (.inl he₁) i hi (Nat.le_trans hle hle₁)
        exact ⟨e₂, he₂, hkey₂.trans hkey₁, Nat.le_trans hle₁ hle₂⟩
      · have hlt := before_new hbatch hbound he hnew
        omega
    · exact hkept e (.inr he) i hi hle

theorem JournalsKept.same (h : JournalsKept store) (hlegacy : store'.legacy = store.legacy)
    (hcompletions : store'.completion_journal = store.completion_journal)
    (hinvalidations : store'.invalidation_journal = store.invalidation_journal)
    (hemitted : store'.emitted = store.emitted) : JournalsKept store' := by
  cases store
  cases store'
  subst hlegacy hcompletions hinvalidations hemitted
  exact ⟨h.legacy, h.emitted, h.ids, h.kinds, h.lines, h.completions, h.completions_ascend,
    h.invalidations, h.invalidations_ascend, h.keys, h.newest, h.completions_kept,
    h.invalidations_kept⟩

end Writes

theorem sync_snapshots_made (limits : Limits) (h : JournalsKept store)
    {snapshots : List NotificationSnapshot} (hlines : ∀ s ∈ snapshots, s.one_line) :
    CompletionsMade store.completion_journal
      (store.completion_pass limits).next_event_sequence
      (snapshots.foldl CompletionPass.step (store.completion_pass limits)) := by
  apply completions_made
  · refine ⟨batch_nil _, ?_, ?_⟩
    · show store.completion_events limits = _
      rw [completion_events_eq h]
      exact (List.append_nil _).symm
    · intro e he
      exact absurd he List.not_mem_nil
  · unfold NotificationStore.completion_pass next_sequence_after
    dsimp only
    omega
  · exact hlines

theorem kept_sync_snapshots (h : JournalsKept store) {snapshots : List NotificationSnapshot}
    (hlines : ∀ s ∈ snapshots, s.one_line) (stop : Option NotificationStore.Stop) :
    JournalsKept (store.sync_snapshots limits snapshots stop) := by
  have hmade := sync_snapshots_made limits h hlines
  have hbound : ∀ e ∈ store.emitted,
      e.sequence < (store.completion_pass limits).next_event_sequence := by
    unfold NotificationStore.completion_pass
    rw [completion_events_eq h, invalidation_events_eq h]
    exact h.before_next _
  unfold NotificationStore.sync_snapshots
  generalize snapshots.foldl CompletionPass.step (store.completion_pass limits) = pass at hmade ⊢
  have hwritten : JournalsKept { store with
      completion_journal := lastOnes limits.completion_limit pass.completions
      emitted := store.emitted ++ pass.emitted
      given := store.given ++ snapshots } := by
    refine kept_completions h hmade.batch hbound hmade.kinds (completion_limit_pos limits) rfl ?_
      rfl rfl
    show lastOnes _ pass.completions = _
    rw [hmade.completions]
  cases stop with
  | none => exact hwritten.same rfl rfl rfl rfl
  | some stop =>
    cases stop with
    | before_events => exact h
    | before_state => exact hwritten

theorem sync_invalidations_made (limits : Limits) (h : JournalsKept store)
    {snapshots : List InvalidationSnapshot} (hlines : ∀ s ∈ snapshots, s.one_line) :
    let pass := snapshots.foldl InvalidationPass.step (store.invalidation_pass limits)
    InvalidationsMade store.invalidation_journal
      (store.invalidation_pass limits).next_event_sequence
      (pass.summary_changed.foldl InvalidationPass.summarize pass) := by
  have hrecords : (store.invalidation_pass limits).records = store.invalidation_journal := by
    unfold NotificationStore.invalidation_pass
    dsimp only
    rw [invalidation_events_eq h,
      List.filter_eq_self.mpr fun e he => (h.invalidations e he).2]
    exact collapse_of_nodup _ h.keys
  have hpos : 0 < (store.invalidation_pass limits).next_event_sequence := by
    unfold NotificationStore.invalidation_pass next_sequence_after
    dsimp only
    omega
  have hbefore : ∀ e ∈ store.invalidation_journal,
      e.sequence < (store.invalidation_pass limits).next_event_sequence := by
    intro e he
    rw [← hrecords] at he
    have hmax : e.sequence ≤ maxRank Event.sequence
        (store.completion_events limits ++ (store.invalidation_pass limits).records) :=
      le_maxRank (List.mem_append_right _ he)
    unfold NotificationStore.invalidation_pass next_sequence_after
    unfold NotificationStore.invalidation_pass at hmax
    dsimp only at hmax ⊢
    omega
  suffices hmade : InvalidationsMade store.invalidation_journal _
      (snapshots.foldl InvalidationPass.step (store.invalidation_pass limits)) from
    summaries_made hmade hpos hbefore hmade.summaries
  refine invalidations_made ⟨batch_nil _, ?_, ?_, ?_, ?_, ?_, ?_⟩ hpos hbefore hlines
  · rw [hrecords]
    exact h.keys
  · rw [hrecords]
    intro e he
    exact .inl he
  · rw [hrecords]
    rintro e (he | he)
    · exact ⟨e, he, rfl, Nat.le_refl _⟩
    · exact absurd he List.not_mem_nil
  iterate 3
    · intro e he
      exact absurd he List.not_mem_nil

theorem kept_sync_invalidations (h : JournalsKept store) {snapshots : List InvalidationSnapshot}
    (hlines : ∀ s ∈ snapshots, s.one_line) (stop : Option NotificationStore.Stop) :
    JournalsKept (store.sync_invalidations limits snapshots stop) := by
  have hmade := sync_invalidations_made limits h hlines
  have hbound : ∀ e ∈ store.emitted,
      e.sequence < (store.invalidation_pass limits).next_event_sequence := by
    unfold NotificationStore.invalidation_pass
    dsimp only
    rw [completion_events_eq h, invalidation_events_eq h,
      List.filter_eq_self.mpr fun e he => (h.invalidations e he).2, collapse_of_nodup _ h.keys]
    exact h.before_next _
  unfold NotificationStore.sync_invalidations
  dsimp only at hmade ⊢
  generalize List.foldl InvalidationPass.summarize _ _ = pass at hmade ⊢
  have hwritten : JournalsKept { store with
      invalidation_journal :=
        lastOnes limits.recent_limit (sortedBy Event.sequence pass.records)
      emitted := store.emitted ++ pass.emitted } :=
    kept_invalidations h hmade hbound (recent_limit_pos limits) rfl rfl rfl rfl
  cases stop with
  | none => exact hwritten.same rfl rfl rfl rfl
  | some stop =>
    cases stop with
    | before_events => exact h
    | before_state => exact hwritten

variable {journal : Journal} {steps : List Journal.Step}

theorem kept_step {c : Journal.Step} (h : JournalsKept journal.store) (hlines : c.one_line) :
    JournalsKept (journal.step limits c).store := by
  cases c with
  | sync_snapshots snapshots stop => exact kept_sync_snapshots h (List.all_eq_true.mp hlines) stop
  | sync_invalidations snapshots stop =>
    exact kept_sync_invalidations h (List.all_eq_true.mp hlines) stop
  | poll => exact h

theorem kept_run (h : JournalsKept journal.store) (hlines : ∀ c ∈ steps, c.one_line) :
    JournalsKept (journal.run limits steps).store := by
  unfold Journal.run
  induction steps generalizing journal with
  | nil => exact h
  | cons c steps ih =>
    obtain ⟨hline, hlines⟩ := List.forall_mem_cons.mp hlines
    exact ih (kept_step h hline) hlines

def Retained (limits : Limits) (store : NotificationStore) : Prop :=
  store.completion_journal.length ≤ limits.completion_limit ∧
    store.invalidation_journal.length ≤ limits.recent_limit

theorem retained_step (c : Journal.Step) (h : Retained limits journal.store) :
    Retained limits (journal.step limits c).store := by
  have hlast : ∀ (n : ℕ) (xs : List Event), (lastOnes n xs).length ≤ n := by
    intro n xs
    simp only [lastOnes, List.length_drop]
    omega
  cases c with
  | poll => exact h
  | sync_snapshots snapshots stop =>
    rcases stop with _ | _ | _
    · exact ⟨hlast _ _, h.2⟩
    · exact h
    · exact ⟨hlast _ _, h.2⟩
  | sync_invalidations snapshots stop =>
    rcases stop with _ | _ | _
    · exact ⟨h.1, hlast _ _⟩
    · exact h
    · exact ⟨h.1, hlast _ _⟩

/-- **Whatever is synchronised and wherever a call stops**, the journals stay within their
limits, ascend, hold one invalidation for a key, and keep all since their first event, as
long as every text stays in one line. -/
theorem journals_kept (limits : Limits) (steps : List Journal.Step)
    (hlines : ∀ c ∈ steps, c.one_line) :
    let store := (Journal.start.run limits steps).store
    JournalsKept store ∧ Retained limits store := by
  refine ⟨kept_run kept_empty hlines, ?_⟩
  exact List.foldlRecOn (motive := fun j : Journal => Retained limits j.store) steps _
    ⟨Nat.zero_le _, Nat.zero_le _⟩ fun _ h c _ => retained_step c h

section Runs

def exampleSnapshot (agent activity_state : String) : NotificationSnapshot :=
  { project_id := asciiText "p"
    project_short_name := asciiText "project"
    namespace_epoch := some 1
    agent := asciiText agent
    activity_state := asciiText activity_state
    observed_at := [] }

def exampleConversation (agent fingerprint : String) : InvalidationSnapshot :=
  { exampleSnapshot agent "idle" with conversation_fingerprint := asciiText fingerprint }

/-- The client has received a completion when the conversations of two agents change. -/
def conversationDropped : List Journal.Step :=
  [.sync_snapshots [exampleSnapshot "a" "active"] none,
    .sync_snapshots [exampleSnapshot "a" "idle"] none,
    .poll,
    .sync_invalidations [exampleConversation "a" "0", exampleConversation "b" "0"] none,
    .sync_invalidations [exampleConversation "a" "1"] none,
    .sync_invalidations [exampleConversation "b" "1"] none]

theorem journals_kept_dropped :
    let store := (Journal.start.run ⟨1, 1⟩ conversationDropped).store
    JournalsKept store ∧ Retained ⟨1, 1⟩ store :=
  journals_kept ⟨1, 1⟩ conversationDropped (by decide)

end Runs

end ClaudeCodeBridge.Analysis.Notification
