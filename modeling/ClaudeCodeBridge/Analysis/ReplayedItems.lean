import ClaudeCodeBridge.Analysis.RestoredDecisions
import Mathlib.Data.List.Dedup

/-!
# The items that a restart replays

A poll is persisted with its items, and the items are acknowledged one by one.  The file keeps
the items and beside them the sequence numbers that were acknowledged (`load_acknowledged`); a
restart replays the items that the file does not name as acknowledged (`restore_replays`).  A
number of 0 counts as missing there, a missing number is never acknowledged, and items with one
number are acknowledged together: so the replay is exact where no acknowledged item is of one of
these kinds, and nowhere else (`replay_exact_iff`).
-/

set_option autoImplicit false

namespace ClaudeCodeBridge.Analysis.ReplayedItems

open Program Model

variable {registry : ProviderExecutionRegistry} {s : ExecutionService} {job_id : JobId}
  {persisted : PersistedExecutionState} {marked : List (CompletionItem × Bool)}

theorem mem_sorted_set {value : ℤ} {values : List ℤ} :
    value ∈ sorted_set values ↔ value ∈ values := by
  unfold sorted_set
  rw [List.mem_insertionSort, List.mem_dedup]

def acknowledge_items (s : ExecutionService) (job_id : JobId) (items : List CompletionItem) :
    ExecutionService :=
  items.foldl (fun s item => s.acknowledge_item job_id item.event_seq) s

theorem acknowledge_items_cons (s : ExecutionService) (item : CompletionItem)
    (items : List CompletionItem) :
    acknowledge_items s job_id (item :: items) =
      acknowledge_items (s.acknowledge_item job_id item.event_seq) job_id items := rfl

/-- One item: its number is kept beside those before it. -/
theorem load_acknowledge_item (hload : s.load job_id = some persisted)
    (hjob : persisted.submission.job_id = job_id) (hitems : persisted.pending_items ≠ [])
    (event_seq : Option ℤ) :
    ∃ applied, (s.acknowledge_item job_id event_seq).load job_id =
        some { persisted with applied_event_seqs := applied } ∧
      ∀ value, value ∈ applied ↔ some value = event_seq ∨ value ∈ persisted.applied_event_seqs := by
  have hnonempty : persisted.pending_items.isEmpty = false := by
    rwa [Bool.eq_false_iff, ne_eq, List.isEmpty_iff]
  unfold ExecutionService.acknowledge_item
  cases event_seq with
  | none =>
    refine ⟨persisted.applied_event_seqs, hload, ?_⟩
    intro value
    simp
  | some event_seq =>
    rw [hload]
    dsimp only
    rw [if_neg (by rw [hnonempty]; decide), load_save, if_pos hjob.symm]
    have hstore : ∃ store, s.state_store = some store := by
      cases hstore : s.state_store with
      | some store => exact ⟨store, rfl⟩
      | none =>
        unfold ExecutionService.load at hload
        rw [hstore] at hload
        cases hload
    obtain ⟨store, hstore⟩ := hstore
    rw [hstore]
    refine ⟨_, rfl, ?_⟩
    intro value
    rw [mem_sorted_set, List.mem_cons, Option.some.injEq]

/-- All of them: the file keeps the numbers of those that have one. -/
theorem load_acknowledged (hload : s.load job_id = some persisted)
    (hjob : persisted.submission.job_id = job_id) (hitems : persisted.pending_items ≠ [])
    (acknowledged : List CompletionItem) :
    ∃ applied, (acknowledge_items s job_id acknowledged).load job_id =
        some { persisted with applied_event_seqs := applied } ∧
      ∀ value, value ∈ applied ↔
        (∃ item ∈ acknowledged, item.event_seq = some value) ∨
          value ∈ persisted.applied_event_seqs := by
  induction acknowledged generalizing s persisted with
  | nil =>
    refine ⟨persisted.applied_event_seqs, hload, ?_⟩
    intro value
    simp
  | cons item acknowledged ih =>
    obtain ⟨kept, hkept, hmem⟩ := load_acknowledge_item hload hjob hitems item.event_seq
    obtain ⟨applied, happlied, hall⟩ := ih hkept hjob hitems
    refine ⟨applied, happlied, ?_⟩
    intro value
    rw [hall, hmem]
    constructor
    · rintro (⟨later, hlater, hseq⟩ | hseq | hbefore)
      · exact Or.inl ⟨later, List.mem_cons_of_mem item hlater, hseq⟩
      · exact Or.inl ⟨item, List.mem_cons_self, hseq.symm⟩
      · exact Or.inr hbefore
    · rintro (⟨later, hlater, hseq⟩ | hbefore)
      · rcases List.mem_cons.mp hlater with rfl | hlater
        · exact Or.inr (Or.inl hseq.symm)
        · exact Or.inl ⟨later, hlater, hseq⟩
      · exact Or.inr (Or.inr hbefore)

theorem acknowledge_items_of_nil (hload : s.load job_id = some persisted)
    (hitems : persisted.pending_items = []) (acknowledged : List CompletionItem) :
    acknowledge_items s job_id acknowledged = s := by
  induction acknowledged with
  | nil => rfl
  | cons item acknowledged ih =>
    have hitem : s.acknowledge_item job_id item.event_seq = s := by
      unfold ExecutionService.acknowledge_item
      cases item.event_seq with
      | none => rfl
      | some event_seq =>
        rw [hload]
        dsimp only
        rw [hitems]
        rfl
    rw [acknowledge_items_cons, hitem, ih]

/-- The items of a job that the next poll hands on first. -/
def replayed_items (s : ExecutionService) (job_id : JobId) : List CompletionItem :=
  ((s.pending_replays.get job_id).map Prod.fst).getD []

theorem persist_submission_replays (registry : ProviderExecutionRegistry) (s : ExecutionService)
    (job_id : JobId) (decision : Option TerminalDecision) (items : List CompletionItem)
    (applied : List ℤ) :
    (s.persist_submission registry job_id decision items applied).pending_replays =
      s.pending_replays := by
  unfold ExecutionService.persist_submission
  split <;> rfl

theorem restore_persisted_replays (registry : ProviderExecutionRegistry) (s : ExecutionService)
    (job : JobRecord) (adapter : ProviderExecutionAdapter) (persisted : PersistedExecutionState)
    (runtime_context : Option ProviderRuntimeContext) (now : Timestamp) :
    (s.restore_persisted registry job adapter persisted runtime_context now).1.pending_replays =
      (s.recover_pending_items job.job_id persisted).pending_replays := by
  unfold ExecutionService.restore_persisted
  dsimp only
  split
  · rfl
  · unfold ExecutionService.restore_recovered
    split
    · rfl
    · split
      · rfl
      · exact persist_submission_replays _ _ _ _ _ _

theorem recover_pending_items_replays (s : ExecutionService)
    (hnone : s.pending_replays.get job_id = none) (persisted : PersistedExecutionState) :
    replayed_items (s.recover_pending_items job_id persisted) job_id =
      filter_pending_items persisted := by
  unfold replayed_items ExecutionService.recover_pending_items
  by_cases hempty : (filter_pending_items persisted).isEmpty = true
  · rw [if_pos hempty, hnone, List.isEmpty_iff.mp hempty]
    rfl
  · rw [if_neg hempty, Dict.get_set_self]
    rfl

/-- A restarted service replays what the file of the job does not name as acknowledged. -/
theorem restore_replays {job : JobRecord} {adapter : ProviderExecutionAdapter}
    (hadapter : registry job.provider = some adapter) (hload : s.load job.job_id = some persisted)
    (hprovider : persisted.submission.provider = job.provider)
    (runtime_context : Option ProviderRuntimeContext) (now : Timestamp) :
    replayed_items ((ExecutionService.init s.state_store).restore_submission registry job
      runtime_context now).1 job.job_id = filter_pending_items persisted := by
  have hactive : ((ExecutionService.init s.state_store).active.get job.job_id).isSome = false := by
    rfl
  have hstore : (ExecutionService.init s.state_store).state_store.isNone = false := by
    change s.state_store.isNone = false
    cases hstore : s.state_store with
    | some store => rfl
    | none =>
      unfold ExecutionService.load at hload
      rw [hstore] at hload
      cases hload
  have hloaded : (ExecutionService.init s.state_store).load job.job_id = some persisted := hload
  unfold ExecutionService.restore_submission
  rw [hactive, hstore, hadapter, hloaded]
  rw [if_neg Bool.false_ne_true, if_neg Bool.false_ne_true]
  dsimp only
  rw [if_neg (not_not.mpr hprovider)]
  have hreplays := restore_persisted_replays registry (ExecutionService.init s.state_store) job
    adapter persisted runtime_context now
  unfold replayed_items
  rw [hreplays]
  exact recover_pending_items_replays _ rfl persisted

/-- An acknowledged number stands for the item. -/
def covered (acknowledged : List CompletionItem) (item : CompletionItem) : Bool :=
  0 < item.event_seq.getD 0 && acknowledged.any fun other => other.event_seq = item.event_seq

variable {item : CompletionItem}

theorem covered_iff {acknowledged : List CompletionItem} :
    covered acknowledged item = true ↔
      ∃ number > 0, item.event_seq = some number ∧
        ∃ other ∈ acknowledged, other.event_seq = some number := by
  unfold covered
  rw [Bool.and_eq_true, decide_eq_true_iff, List.any_eq_true]
  constructor
  · rintro ⟨hpos, other, hother, hsame⟩
    rw [decide_eq_true_iff] at hsame
    cases hseq : item.event_seq with
    | none =>
      rw [hseq] at hpos
      cases hpos
    | some number =>
      rw [hseq] at hpos hsame
      exact ⟨number, hpos, rfl, other, hother, hsame⟩
  · rintro ⟨number, hpos, hseq, other, hother, hsame⟩
    rw [hseq]
    exact ⟨hpos, other, hother, by rw [hsame, decide_eq_true_iff]⟩

theorem apply_marker_mem_iff {applied : List ℤ}
    (hnumbers : ∀ value ∈ applied, 0 ≤ value)
    (hitem : ∀ value, item.event_seq = some value → 0 ≤ value) : apply_marker item ∈ applied ↔
      ∃ number > 0, item.event_seq = some number ∧ number ∈ applied := by
  have hmissing : (-1 : ℤ) ∉ applied := by
    intro hmem
    have hneg := hnumbers _ hmem
    omega
  unfold apply_marker
  cases hseq : item.event_seq with
  | none =>
    constructor
    · intro hmem
      exact absurd hmem hmissing
    · rintro ⟨number, _, hnone, _⟩
      cases hnone
  | some number =>
    dsimp only
    by_cases hzero : number = 0
    · rw [if_pos hzero]
      constructor
      · intro hmem
        exact absurd hmem hmissing
      · rintro ⟨other, hpos, hother, _⟩
        obtain rfl := Option.some.inj hother
        omega
    · rw [if_neg hzero]
      have hpos := hitem number hseq
      constructor
      · intro hmem
        exact ⟨number, by omega, rfl, hmem⟩
      · rintro ⟨other, _, hother, hmem⟩
        obtain rfl := Option.some.inj hother
        exact hmem

theorem filter_pending_items_eq (persisted : PersistedExecutionState) :
    filter_pending_items persisted = persisted.pending_items.filter fun item =>
      apply_marker item ∉ persisted.applied_event_seqs := by
  unfold filter_pending_items
  split
  · rename_i hempty
    rw [Bool.or_eq_true, List.isEmpty_iff, List.isEmpty_iff] at hempty
    rcases hempty with hitems | happlied
    · rw [hitems, List.filter_nil]
    · rw [happlied]
      symm
      apply List.filter_eq_self.mpr
      intro item _
      simp
  · rfl

/-- What is replayed of a poll that was persisted, once some of its items were acknowledged and
the daemon was started again. -/
def replay_after_restart (registry : ProviderExecutionRegistry) (s : ExecutionService)
    (job : JobRecord) (result : ProviderPollResult) (acknowledged : List CompletionItem)
    (runtime_context : Option ProviderRuntimeContext) (now : Timestamp) : List CompletionItem :=
  let polled := (s.record_result registry job.job_id result).1
  let stopped := acknowledge_items polled job.job_id acknowledged
  replayed_items ((ExecutionService.init stopped.state_store).restore_submission registry job
    runtime_context now).1 job.job_id

theorem load_record_result (registry : ProviderExecutionRegistry) {result : ProviderPollResult}
    (hstore : s.state_store.isSome = true) (hjob : result.submission.job_id = job_id) :
    ∃ persisted, (s.record_result registry job_id result).1.load job_id = some persisted ∧
      persisted.submission.job_id = job_id ∧
      persisted.submission.provider = result.submission.provider ∧
      persisted.pending_items = result.items ∧ persisted.applied_event_seqs = [] := by
  have hactive : (activated s job_id result.submission).active.get job_id =
      some result.submission := Dict.get_set_self _ _ _
  obtain ⟨store, hsome⟩ := Option.isSome_iff_exists.mp hstore
  have hpersisted : ∀ decision, ∃ persisted,
      ((activated s job_id result.submission).persist_submission registry job_id decision
        result.items []).load job_id = some persisted ∧
      persisted.submission.job_id = job_id ∧
      persisted.submission.provider = result.submission.provider ∧
      persisted.pending_items = result.items ∧ persisted.applied_event_seqs = [] := by
    intro decision
    unfold ExecutionService.persist_submission
    rw [hactive]
    dsimp only
    rw [load_save, if_pos hjob.symm, hsome]
    exact ⟨_, rfl, hjob, rfl, rfl, rfl⟩
  rcases record_result_cases registry s job_id result with
    ⟨_, hresult, _⟩ | ⟨decision, persisted, _, rfl, hresult⟩
  · rw [hresult]
    exact hpersisted none
  · rw [hresult]
    exact hpersisted (some decision)

/-- The replay leaves out the items whose number, if it is no 0, was acknowledged. -/
theorem replay_after_restart_eq {job : JobRecord} {result : ProviderPollResult}
    {adapter : ProviderExecutionAdapter} {acknowledged : List CompletionItem}
    (hstore : s.state_store.isSome = true) (hadapter : registry job.provider = some adapter)
    (hjob : result.submission.job_id = job.job_id)
    (hprovider : result.submission.provider = job.provider)
    (hnumbers : ∀ item ∈ result.items, ∀ number, item.event_seq = some number → 0 ≤ number)
    (hacknowledged : ∀ item ∈ acknowledged, item ∈ result.items)
    (runtime_context : Option ProviderRuntimeContext) (now : Timestamp) :
    replay_after_restart registry s job result acknowledged runtime_context now =
      result.items.filter fun item => !covered acknowledged item := by
  obtain ⟨persisted, hload, hsame, hkept, hitems, happlied⟩ :=
    load_record_result registry hstore hjob
  unfold replay_after_restart
  dsimp only
  by_cases hnone : persisted.pending_items = []
  · rw [acknowledge_items_of_nil hload hnone,
      restore_replays hadapter hload (hkept.trans hprovider), filter_pending_items_eq, ← hitems,
      hnone]
    rfl
  · obtain ⟨applied, hfile, hmem⟩ := load_acknowledged hload hsame hnone acknowledged
    rw [happlied] at hmem
    rw [restore_replays hadapter hfile (hkept.trans hprovider), filter_pending_items_eq]
    dsimp only
    rw [hitems]
    have happlied_nonneg : ∀ value ∈ applied, 0 ≤ value := by
      intro value hvalue
      rcases (hmem value).mp hvalue with ⟨item, hitem, hseq⟩ | hnil
      · exact hnumbers item (hacknowledged item hitem) value hseq
      · cases hnil
    apply List.filter_congr
    intro item hitem
    have hsame_number : apply_marker item ∈ applied ↔ covered acknowledged item = true := by
      rw [apply_marker_mem_iff happlied_nonneg (hnumbers item hitem), covered_iff]
      apply exists_congr
      intro number
      rw [hmem]
      simp
    by_cases hcovered : covered acknowledged item = true
    · rw [hcovered]
      simpa using hsame_number.mpr hcovered
    · rw [Bool.eq_false_iff.mpr hcovered]
      simpa using fun hin => hcovered (hsame_number.mp hin)

def acknowledged_items (marked : List (CompletionItem × Bool)) : List CompletionItem :=
  (marked.filter fun item => item.2).map Prod.fst

def open_items (marked : List (CompletionItem × Bool)) : List CompletionItem :=
  (marked.filter fun item => !item.2).map Prod.fst

theorem mem_acknowledged_items : item ∈ acknowledged_items marked ↔ (item, true) ∈ marked := by
  unfold acknowledged_items
  rw [List.mem_map]
  constructor
  · rintro ⟨⟨found, mark⟩, hfound, rfl⟩
    obtain ⟨hmem, hmark⟩ := List.mem_filter.mp hfound
    obtain rfl : mark = true := hmark
    exact hmem
  · intro hmem
    exact ⟨(item, true), List.mem_filter.mpr ⟨hmem, rfl⟩, rfl⟩

theorem mem_open_items : item ∈ open_items marked ↔ (item, false) ∈ marked := by
  unfold open_items
  rw [List.mem_map]
  constructor
  · rintro ⟨⟨found, mark⟩, hfound, rfl⟩
    obtain ⟨hmem, hmark⟩ := List.mem_filter.mp hfound
    obtain rfl : mark = false := by simpa using hmark
    exact hmem
  · intro hmem
    exact ⟨(item, false), List.mem_filter.mpr ⟨hmem, rfl⟩, rfl⟩

theorem filter_eq_open_items {kept : CompletionItem → Bool} :
    (marked.map Prod.fst).filter kept = open_items marked ↔
      ∀ item ∈ marked, kept item.1 = !item.2 := by
  have hmap : (marked.map Prod.fst).filter kept =
      (marked.filter fun item => kept item.1).map Prod.fst := List.filter_map
  rw [hmap]
  unfold open_items
  constructor
  · intro heq
    have hopen : ∀ item ∈ marked, (!item.2) = true → kept item.1 = true := by
      intro item hitem hmark
      have hmem : item.1 ∈ (marked.filter fun item => !item.2).map Prod.fst :=
        List.mem_map_of_mem (List.mem_filter.mpr ⟨hitem, hmark⟩)
      rw [← heq] at hmem
      obtain ⟨found, hfound, hsame⟩ := List.mem_map.mp hmem
      rw [← hsame]
      exact (List.mem_filter.mp hfound).2
    -- the open items are among the kept ones, and there are as many
    have hsublist : (marked.filter fun item => !item.2).Sublist
        (marked.filter fun item => kept item.1) := by
      have hboth : (marked.filter fun item => !item.2) =
          (marked.filter fun item => kept item.1).filter fun item => !item.2 := by
        rw [List.filter_filter]
        apply List.filter_congr
        intro item hitem
        cases hmark : (!item.2) with
        | false => rfl
        | true => rw [hopen item hitem hmark]; rfl
      rw [hboth]
      exact List.filter_sublist
    have hlength := congrArg List.length heq
    rw [List.length_map, List.length_map] at hlength
    have hsame := hsublist.eq_of_length hlength.symm
    intro item hitem
    cases hmark : (!item.2) with
    | true => exact hopen item hitem hmark
    | false =>
      apply Bool.eq_false_iff.mpr
      intro hkept
      have hmem : item ∈ marked.filter fun item => kept item.1 := List.mem_filter.mpr ⟨hitem, hkept⟩
      rw [← hsame] at hmem
      have hfound := (List.mem_filter.mp hmem).2
      rw [hmark] at hfound
      cases hfound
  · intro hkept
    exact congrArg (List.map Prod.fst) (List.filter_congr hkept)

/-- The replay is what was not acknowledged, in its order, exactly where every acknowledged item
has a number other than 0 and shares it with acknowledged items only. -/
theorem replay_exact_iff (registry : ProviderExecutionRegistry) (s : ExecutionService)
    (job : JobRecord) (result : ProviderPollResult) (adapter : ProviderExecutionAdapter)
    (runtime_context : Option ProviderRuntimeContext) (now : Timestamp)
    (marked : List (CompletionItem × Bool)) (acknowledged : List CompletionItem)
    (hstore : s.state_store.isSome = true) (hadapter : registry job.provider = some adapter)
    (hjob : result.submission.job_id = job.job_id)
    (hprovider : result.submission.provider = job.provider)
    (hitems : result.items = marked.map Prod.fst)
    (hnumbers : ∀ item ∈ result.items, ∀ number, item.event_seq = some number → 0 ≤ number)
    (hacknowledged : acknowledged.Perm (acknowledged_items marked)) :
    (replay_after_restart registry s job result acknowledged runtime_context now =
          open_items marked ∧
        replay_after_restart registry s job result acknowledged runtime_context now =
          result.items.filter fun item => item.event_seq = none ∨
            ∀ other ∈ acknowledged, other.event_seq ≠ item.event_seq) ↔
      (∀ item ∈ acknowledged, ∃ number > 0, item.event_seq = some number) ∧
        ∀ item ∈ acknowledged, ∀ other ∈ open_items marked, item.event_seq ≠ other.event_seq := by
  have hin : ∀ item ∈ acknowledged, item ∈ result.items := by
    intro item hitem
    rw [hitems]
    exact List.mem_map_of_mem (mem_acknowledged_items.mp (hacknowledged.mem_iff.mp hitem))
  rw [replay_after_restart_eq hstore hadapter hjob hprovider hnumbers hin, hitems]
  constructor
  · rintro ⟨hreplay, _⟩
    have hmarks := filter_eq_open_items.mp hreplay
    have hcovered : ∀ item ∈ acknowledged, covered acknowledged item = true := by
      intro item hitem
      have hmark := hmarks _ (mem_acknowledged_items.mp (hacknowledged.mem_iff.mp hitem))
      simpa using hmark
    refine ⟨?_, ?_⟩
    · intro item hitem
      obtain ⟨number, hpos, hseq, _⟩ := covered_iff.mp (hcovered item hitem)
      exact ⟨number, hpos, hseq⟩
    · intro item hitem other hother hsame
      obtain ⟨number, hpos, hseq, _⟩ := covered_iff.mp (hcovered item hitem)
      have hother_covered : covered acknowledged other = true :=
        covered_iff.mpr ⟨number, hpos, hsame.symm.trans hseq, item, hitem, hseq⟩
      have hmark := hmarks _ (mem_open_items.mp hother)
      rw [hother_covered] at hmark
      cases hmark
  · rintro ⟨hpos, hdisjoint⟩
    constructor
    · apply filter_eq_open_items.mpr
      rintro ⟨item, mark⟩ hitem
      cases mark with
      | true =>
        have hmem := hacknowledged.mem_iff.mpr (mem_acknowledged_items.mpr hitem)
        obtain ⟨number, hnumber, hseq⟩ := hpos item hmem
        have hcovered : covered acknowledged item = true :=
          covered_iff.mpr ⟨number, hnumber, hseq, item, hmem, hseq⟩
        rw [hcovered]
      | false =>
        have hopen : covered acknowledged item = false := by
          apply Bool.eq_false_iff.mpr
          intro hcovered
          obtain ⟨number, _, hseq, other, hother, hsame⟩ := covered_iff.mp hcovered
          exact hdisjoint other hother item (mem_open_items.mpr hitem) (hsame.trans hseq.symm)
        rw [hopen]
    · apply List.filter_congr
      intro item _
      rw [Bool.eq_iff_iff, Bool.not_eq_true', Bool.eq_false_iff, decide_eq_true_iff, ne_eq,
        covered_iff]
      constructor
      · intro hopen
        cases hseq : item.event_seq with
        | none => exact Or.inl rfl
        | some number =>
          refine Or.inr ?_
          intro other hother hsame
          obtain ⟨found, hfound, hfound_seq⟩ := hpos other hother
          obtain rfl : found = number := Option.some.inj (hfound_seq.symm.trans hsame)
          exact hopen ⟨found, hfound, hseq, other, hother, hsame⟩
      · rintro (hnone | hother)
        · rintro ⟨number, _, hseq, _⟩
          rw [hnone] at hseq
          cases hseq
        · rintro ⟨number, _, hseq, other, hmem, hsame⟩
          exact hother other hmem (hsame.trans hseq.symm)

def numbered_item (event_seq : Option ℤ) : CompletionItem :=
  { kind := .assistant_chunk, timestamp := 1, event_seq := event_seq }

def polled_job : JobRecord :=
  { job_id := 1, submission_id := none, agent_name := 1, provider := "codex"
    request :=
      { to_agent := some 1, from_actor := .user, body := "", task_id := none
        reply_to := none, message_type := .ask, delivery_scope := .single
        silence_on_success := false, route_options := .empty }
    status := .running, terminal_decision := none, cancel_requested_at := none
    created_at := 1, updated_at := 1, provider_options := .empty }

def poll_of (items : List CompletionItem) : ProviderPollResult :=
  { submission :=
      { job_id := 1, provider := "codex", accepted_at := 1, ready_at := 1
        source_kind := .protocol_event_stream, reply := "", status := .incomplete
        reason := "in_progress", diagnostics := .empty, runtime_state := .empty }
    items := items
    decision := none }

/-- An adapter that has nothing to say. -/
def silent_registry : ProviderExecutionRegistry := fun _ =>
  some
    { poll := fun _ _ => none
      export_runtime_state := none
      resume := none
      restart_resume_supported := false
      completion_reliability_policy := none }

theorem replay_exact_second_item :
    replay_after_restart silent_registry (.init (some .empty)) polled_job
        (poll_of [numbered_item (some 1), numbered_item (some 2)]) [numbered_item (some 1)]
        none 2 = [numbered_item (some 2)] := by
  have hexact := replay_exact_iff silent_registry (.init (some .empty)) polled_job
    (poll_of [numbered_item (some 1), numbered_item (some 2)]) _ none 2
    [(numbered_item (some 1), true), (numbered_item (some 2), false)] [numbered_item (some 1)]
    rfl rfl rfl rfl rfl
    (by
      intro item hitem number hseq
      simp only [poll_of, List.mem_cons, List.not_mem_nil, or_false] at hitem
      rcases hitem with rfl | rfl
      · obtain rfl := Option.some.inj hseq
        decide
      · obtain rfl := Option.some.inj hseq
        decide)
    (List.Perm.refl _)
  apply (hexact.mpr ⟨?_, ?_⟩).1
  · intro item hitem
    obtain rfl := List.mem_singleton.mp hitem
    exact ⟨1, by decide, rfl⟩
  · intro item hitem other hother
    obtain rfl := List.mem_singleton.mp hitem
    obtain rfl := List.mem_singleton.mp hother
    decide

/-- An item with the number 0 is replayed although it has been acknowledged. -/
theorem replay_not_exact :
    ¬ ∀ (registry : ProviderExecutionRegistry) (s : ExecutionService) (job : JobRecord)
        (result : ProviderPollResult) (adapter : ProviderExecutionAdapter)
        (runtime_context : Option ProviderRuntimeContext) (now : Timestamp)
        (marked : List (CompletionItem × Bool)) (acknowledged : List CompletionItem),
      s.state_store.isSome = true → registry job.provider = some adapter →
      result.submission.job_id = job.job_id → result.submission.provider = job.provider →
      result.items = marked.map Prod.fst →
      (∀ item ∈ result.items, ∀ number, item.event_seq = some number → 0 ≤ number) →
      acknowledged.Perm (acknowledged_items marked) →
      replay_after_restart registry s job result acknowledged runtime_context now =
          open_items marked ∧
        replay_after_restart registry s job result acknowledged runtime_context now =
          result.items.filter fun item => item.event_seq = none ∨
            ∀ other ∈ acknowledged, other.event_seq ≠ item.event_seq := by
  intro h
  have hexact := h silent_registry (.init (some .empty)) polled_job
    (poll_of [numbered_item (some 0)]) _ none 2 [(numbered_item (some 0), true)]
    [numbered_item (some 0)] rfl rfl rfl rfl rfl
    (by
      intro item hitem number hseq
      obtain rfl := List.mem_singleton.mp hitem
      obtain rfl := Option.some.inj hseq
      decide)
    (List.Perm.refl _)
  have hreplayed := hexact.1
  revert hreplayed
  decide

end ClaudeCodeBridge.Analysis.ReplayedItems
