import ClaudeCodeBridge.Program.Places
import ClaudeCodeBridge.Model.ReloadDrains

/-!
# Drains within their bounds

The ids of the queue are distinct as long as no reload enqueues an id again (`Sound`).  Every
operation on a sound queue moves records at their places (`Moves`): the intent and the age bound
of a record stay, and a terminal record stays as it is.  Replacing by id is then replacing one
record (`replace_record_of_mem`), and what a tick does to the queue is what it does to each record.
An enqueued id that is on the queue already makes a second active record, which no bound allows
(`bounded_iff`).
-/

set_option autoImplicit false

namespace ClaudeCodeBridge.Analysis.ReloadDrain

open Program
open Model.ReloadDrain

variable {queue : DrainQueue} {record updated : DrainRecord} {now_s : ℚ}

structure Moves (record updated : DrainRecord) : Prop where
  intent : updated.intent = record.intent
  max_age : updated.max_age_deadline_at_s = record.max_age_deadline_at_s
  terminal : record.terminal = true → updated = record

theorem moves_refl (record : DrainRecord) : Moves record record := ⟨rfl, rfl, fun _ => rfl⟩

theorem Moves.trans {a b c : DrainRecord} (h : Moves a b) (h' : Moves b c) : Moves a c := by
  refine ⟨h'.intent.trans h.intent, h'.max_age.trans h.max_age, fun ha => ?_⟩
  have hb := h.terminal ha
  rw [← hb] at ha
  rw [h'.terminal ha, hb]

theorem Moves.terminal_of (h : Moves record updated) (hterminal : record.terminal = true) :
    updated.terminal = true := by
  rw [h.terminal hterminal]
  exact hterminal

theorem moves_plan_drain_transition (is_busy : DrainRecord → Bool) :
    Moves record (plan_drain_transition record now_s is_busy) := by
  unfold plan_drain_transition
  split
  · exact moves_refl record
  · rename_i hactive
    split
    · exact moves_refl record
    split
    · exact ⟨rfl, rfl, fun h => absurd h hactive⟩
    split
    · exact ⟨rfl, rfl, fun h => absurd h hactive⟩
    split
    · exact ⟨rfl, rfl, fun h => absurd h hactive⟩
    · exact ⟨rfl, rfl, fun h => absurd h hactive⟩

theorem moves_retire_record : Moves record (retire_record record now_s) := by
  unfold retire_record
  split
  · exact moves_refl record
  split
  · exact moves_refl record
  · rename_i hready
    rw [ne_eq, not_not] at hready
    refine ⟨rfl, rfl, fun hterminal => ?_⟩
    rw [DrainRecord.terminal, hready] at hterminal
    cases hterminal

variable {is_busy : DrainRecord → Bool}

theorem terminal_plan_drain_transition (hactive : record.terminal = false)
    (hready : record.status ≠ .idle_ready) (hdue : record.max_age_deadline_at_s ≤ now_s) :
    (plan_drain_transition record now_s is_busy).terminal = true := by
  unfold plan_drain_transition
  rw [if_neg (by simp [hactive]), if_neg hready, if_pos hdue]
  rfl

theorem plan_drain_transition_ready (hready : record.status = .idle_ready) :
    plan_drain_transition record now_s is_busy = record := by
  unfold plan_drain_transition
  rw [if_pos hready]
  split <;> rfl

theorem terminal_retire_record (hready : record.status = .idle_ready) :
    (retire_record record now_s).terminal = true := by
  unfold retire_record
  rw [if_neg (by simp [hready]), if_neg (by simp [hready])]
  rfl

theorem terminal_retire_plan (record : DrainRecord) :
    (retire_record (plan_drain_transition record now_s fun _ => false) now_s).terminal = true ∨
      record.terminal = true := by
  by_cases hterminal : record.terminal = true
  · exact Or.inr hterminal
  left
  unfold plan_drain_transition
  rw [if_neg hterminal]
  split
  · rename_i hready
    exact terminal_retire_record hready
  split
  · exact moves_retire_record.terminal_of rfl
  split
  · exact moves_retire_record.terminal_of rfl
  rw [if_neg Bool.false_ne_true]
  exact terminal_retire_record rfl

theorem ready_plan_drain_transition (hactive : record.terminal = false) :
    (plan_drain_transition record now_s is_busy).status = .idle_ready ↔
      record.status = .idle_ready ∨ now_s < record.max_age_deadline_at_s ∧
        now_s < record.deadline_at_s ∧ is_busy record = false := by
  unfold plan_drain_transition
  rw [if_neg (by simp [hactive])]
  split
  · rename_i hready
    simp [hready]
  rename_i hready
  split
  · rename_i hdue
    simp [DrainRecord.with_transition, hready, hdue.not_gt]
  rename_i hdue
  split
  · rename_i hlate
    simp [DrainRecord.with_transition, hready, hlate.not_gt]
  rename_i hlate
  split
  · rename_i hbusy
    simp [DrainRecord.with_transition, hready, hbusy]
  · rename_i hidle
    simp [DrainRecord.with_transition, not_le.mp hdue, not_le.mp hlate, hidle]

/-- The ids are distinct, no two records of an agent are active, and no more than `max_pending`
are. -/
structure Sound (queue : DrainQueue) : Prop where
  ids : (queue.records.map fun record => record.intent.intent_id).Nodup
  agents : queue.records.Pairwise fun older newer =>
    older.intent.agent_name = newer.intent.agent_name → older.terminal = true
  pending : queue.pending_count ≤ queue.bounds.max_pending

theorem sound_empty (bounds : DrainBounds) : Sound (DrainQueue.empty bounds) :=
  ⟨List.nodup_nil, List.Pairwise.nil, Nat.zero_le _⟩

theorem Sound.eq_of_id (hs : Sound queue) {other : DrainRecord} (hrecord : record ∈ queue.records)
    (hother : other ∈ queue.records) (hid : other.intent.intent_id = record.intent.intent_id) :
    other = record :=
  List.inj_on_of_nodup_map hs.ids hother hrecord hid

structure Evolves (queue after : DrainQueue) : Prop where
  bounds : after.bounds = queue.bounds
  records : KeepsPlaces Moves queue.records after.records

theorem evolves_refl (queue : DrainQueue) : Evolves queue queue :=
  ⟨rfl, keepsPlaces_refl moves_refl⟩

theorem Evolves.trans {a b c : DrainQueue} (h : Evolves a b) (h' : Evolves b c) : Evolves a c :=
  ⟨h'.bounds.trans h.bounds, h.records.trans Moves.trans h'.records⟩

def DrainQueue.mapped (queue : DrainQueue) (f : DrainRecord → DrainRecord) : DrainQueue :=
  { queue with records := queue.records.map f }

variable {f : DrainRecord → DrainRecord}

theorem pending_mapped (hf : ∀ record ∈ queue.records, Moves record (f record)) :
    (DrainQueue.mapped queue f).pending_count ≤ queue.pending_count := by
  unfold DrainQueue.pending_count DrainQueue.mapped
  dsimp only
  rw [List.filter_map, List.length_map, ← List.countP_eq_length_filter,
    ← List.countP_eq_length_filter]
  apply List.countP_mono_left
  intro record hrecord hactive
  simp only [Function.comp_apply, Bool.not_eq_true', Bool.eq_false_iff] at hactive ⊢
  exact fun hterminal => hactive ((hf record hrecord).terminal_of hterminal)

theorem sound_mapped (hs : Sound queue) (hf : ∀ record ∈ queue.records, Moves record (f record)) :
    Sound (DrainQueue.mapped queue f) ∧ Evolves queue (DrainQueue.mapped queue f) := by
  refine ⟨{ ids := ?_, agents := ?_, pending := (pending_mapped hf).trans hs.pending },
    { bounds := rfl, records := keepsPlaces_map hf }⟩
  · have hsame : ((queue.records.map f).map fun record => record.intent.intent_id) =
        queue.records.map fun record => record.intent.intent_id := by
      rw [List.map_map]
      apply List.map_congr_left
      intro record hrecord
      simp only [Function.comp_apply, (hf record hrecord).intent]
    change ((queue.records.map f).map fun record => record.intent.intent_id).Nodup
    rw [hsame]
    exact hs.ids
  · change (queue.records.map f).Pairwise _
    rw [List.pairwise_map]
    refine List.Pairwise.imp_of_mem ?_ hs.agents
    intro older newer holder hnewer hold hsame
    rw [(hf older holder).intent, (hf newer hnewer).intent] at hsame
    exact (hf older holder).terminal_of (hold hsame)

theorem replace_record_of_mem (hs : Sound queue) (hrecord : record ∈ queue.records)
    (hintent : updated.intent = record.intent) :
    queue.replace_record updated =
      DrainQueue.mapped queue fun other => if other = record then updated else other := by
  unfold DrainQueue.replace_record DrainQueue.mapped
  congr 1
  apply List.map_congr_left
  intro other hother
  rw [hintent]
  by_cases hsame : other = record
  · rw [hsame, if_pos rfl, if_pos rfl]
  · rw [if_neg hsame, if_neg fun hid => hsame (hs.eq_of_id hrecord hother hid)]

theorem replace_record_self (hs : Sound queue) (hrecord : record ∈ queue.records) :
    queue.replace_record record = queue := by
  rw [replace_record_of_mem hs hrecord rfl]
  unfold DrainQueue.mapped
  have hsame : (queue.records.map fun other => if other = record then record else other) =
      queue.records := by
    refine (List.map_congr_left ?_).trans queue.records.map_id
    intro other _
    rw [id_eq]
    split
    · rename_i heq
      exact heq.symm
    · rfl
  rw [hsame]

/-- What a loop does that replaces each of the records. -/
def replaced (records : List DrainRecord) (f : DrainRecord → DrainRecord) (record : DrainRecord) :
    DrainRecord :=
  if record ∈ records then f record else record

theorem moves_replaced (records : List DrainRecord)
    (hf : ∀ record, Moves record (f record)) (record : DrainRecord) :
    Moves record (replaced records f record) := by
  unfold replaced
  split
  · exact hf record
  · exact moves_refl record

theorem foldl_replace {body : DrainQueue → DrainRecord → DrainQueue}
    (hf : ∀ record, Moves record (f record))
    (hbody : ∀ queue record, Sound queue → record ∈ queue.records →
      body queue record = queue.replace_record (f record))
    {records : List DrainRecord} (hs : Sound queue) (hmem : ∀ record ∈ records,
      record ∈ queue.records) (hnodup : records.Nodup) :
    records.foldl body queue = DrainQueue.mapped queue (replaced records f) := by
  induction records generalizing queue with
  | nil =>
    unfold DrainQueue.mapped replaced
    simp
  | cons first rest ih =>
    have hfirst : first ∈ queue.records := hmem first List.mem_cons_self
    obtain ⟨hnew, hrest⟩ := List.nodup_cons.mp hnodup
    rw [List.foldl_cons, hbody queue first hs hfirst,
      replace_record_of_mem hs hfirst (hf first).intent]
    have hmoves : ∀ record ∈ queue.records,
        Moves record (if record = first then f first else record) := by
      intro record _
      split
      · rename_i heq
        rw [heq]
        exact hf first
      · exact moves_refl record
    rw [ih (sound_mapped hs hmoves).1 ?_ hrest]
    · unfold DrainQueue.mapped
      dsimp only
      rw [List.map_map]
      congr 1
      apply List.map_congr_left
      intro record hrecord
      unfold replaced
      by_cases hsame : record = first
      · subst hsame
        have hout : f record ∉ rest := by
          intro hin
          have hagain := hs.eq_of_id hfirst (hmem _ (List.mem_cons_of_mem _ hin))
            (congrArg DrainIntent.intent_id (hf record).intent)
          rw [hagain] at hin
          exact hnew hin
        simp [hout]
      · simp [hsame]
    · intro record hin
      refine List.mem_map.mpr ⟨record, hmem record (List.mem_cons_of_mem _ hin), ?_⟩
      rw [if_neg]
      rintro rfl
      exact hnew hin

theorem Sound.nodup (hs : Sound queue) : queue.records.Nodup := hs.ids.of_map _

theorem retire_active_eq (hs : Sound queue) (hrecord : record ∈ queue.records) :
    retire_active now_s queue record = queue.replace_record
      (retire_record (plan_drain_transition record now_s fun _ => false) now_s) := by
  unfold retire_active
  dsimp only
  split
  · rename_i hsame
    rw [hsame, replace_record_self hs hrecord]
  · rfl

theorem moves_retired (now_s : ℚ) (record : DrainRecord) :
    Moves record (retire_record (plan_drain_transition record now_s fun _ => false) now_s) :=
  (moves_plan_drain_transition _).trans moves_retire_record

theorem foldl_retire_active (hs : Sound queue) {p : DrainRecord → Bool} :
    (queue.records.filter p).foldl (retire_active now_s) queue =
      DrainQueue.mapped queue (replaced (queue.records.filter p) fun record =>
        retire_record (plan_drain_transition record now_s fun _ => false) now_s) :=
  foldl_replace (moves_retired now_s) (fun _ _ h hmem => retire_active_eq h hmem) hs
    (fun _ h => List.mem_of_mem_filter h) (hs.nodup.filter p)

/-- The loop over agents that retires the active records whose intent `p` chooses. -/
def retire_chosen (p : Text → DrainIntent → Bool) (now_s : ℚ) (agent_names : List Text)
    (queue : DrainQueue) : DrainQueue :=
  agent_names.foldl
    (fun queue agent_name =>
      (queue.records.filter fun record => p agent_name record.intent && !record.terminal).foldl
        (retire_active now_s) queue) queue

theorem apply_unloaded (agent_names : List Text) (queue : DrainQueue) :
    (DrainAction.unloaded agent_names).apply now_s queue =
      retire_chosen (fun agent_name intent => intent.agent_name = agent_name) now_s agent_names
        queue := rfl

theorem apply_replaced (agent_names : List Text) (queue : DrainQueue) :
    (DrainAction.replaced agent_names).apply now_s queue =
      retire_chosen (fun agent_name intent =>
        intent.intent_kind = .replace && intent.agent_name = agent_name) now_s agent_names
        queue := by
  change retire_replace_drain_records agent_names now_s queue = _
  unfold retire_replace_drain_records retire_chosen DrainQueue.active_records_for
  simp only [List.filter_filter, Bool.and_assoc]

/-- What a loop over agents does to a record. -/
structure Retires (p : Text → DrainIntent → Bool) (agent_names : List Text)
    (record updated : DrainRecord) : Prop where
  moves : Moves record updated
  ends : (∃ agent_name ∈ agent_names, p agent_name record.intent = true) → updated.terminal = true
  keeps : (∀ agent_name ∈ agent_names, p agent_name record.intent = false) → updated = record

theorem retires_one (p : Text → DrainIntent → Bool) (agent_name : Text) (record : DrainRecord)
    (hmem : record ∈ queue.records) :
    Retires p [agent_name] record (replaced (queue.records.filter fun record =>
        p agent_name record.intent && !record.terminal) (fun record =>
      retire_record (plan_drain_transition record now_s fun _ => false) now_s) record) := by
  refine { moves := moves_replaced _ (moves_retired now_s) record, ends := ?_, keeps := ?_ }
  · rintro ⟨chosen, hchosen, hp⟩
    rw [List.mem_singleton.mp hchosen] at hp
    unfold replaced
    by_cases hterminal : record.terminal = true
    · rw [if_neg (by simp [hterminal])]
      exact hterminal
    · rw [if_pos (by simp [hmem, hp, hterminal])]
      exact (terminal_retire_plan record).resolve_right hterminal
  · intro hnone
    unfold replaced
    rw [if_neg]
    simp [hnone agent_name (List.mem_singleton_self _)]

theorem Retires.cons {p : Text → DrainIntent → Bool} {agent_name : Text} {rest : List Text}
    {a b c : DrainRecord} (h : Retires p [agent_name] a b) (h' : Retires p rest b c) :
    Retires p (agent_name :: rest) a c := by
  refine { moves := h.moves.trans h'.moves, ends := ?_, keeps := ?_ }
  · rintro ⟨chosen, hchosen, hp⟩
    rcases List.mem_cons.mp hchosen with rfl | hrest
    · exact h'.moves.terminal_of (h.ends ⟨chosen, List.mem_singleton_self _, hp⟩)
    · exact h'.ends ⟨chosen, hrest, by rw [h.moves.intent]; exact hp⟩
  · intro hnone
    have hb : b = a := h.keeps fun chosen hchosen =>
      hnone chosen (List.mem_cons.mpr (Or.inl (List.mem_singleton.mp hchosen)))
    rw [h'.keeps, hb]
    intro chosen hchosen
    rw [hb]
    exact hnone chosen (List.mem_cons_of_mem _ hchosen)

theorem retires_chosen (now_s : ℚ) (p : Text → DrainIntent → Bool) (agent_names : List Text)
    (hs : Sound queue) :
    Sound (retire_chosen p now_s agent_names queue) ∧
      (retire_chosen p now_s agent_names queue).bounds = queue.bounds ∧
      KeepsPlaces (Retires p agent_names) queue.records
        (retire_chosen p now_s agent_names queue).records := by
  unfold retire_chosen
  induction agent_names generalizing queue with
  | nil =>
    refine ⟨hs, rfl, keepsPlaces_refl fun record => ?_⟩
    refine { moves := moves_refl record, ends := ?_, keeps := fun _ => rfl }
    rintro ⟨_, hin, _⟩
    exact absurd hin List.not_mem_nil
  | cons agent_name rest ih =>
    rw [List.foldl_cons, foldl_retire_active hs]
    obtain ⟨hnext, hevolves⟩ := sound_mapped hs fun record _ =>
      moves_replaced (queue.records.filter fun record =>
        p agent_name record.intent && !record.terminal) (moves_retired now_s) record
    obtain ⟨hend, hbounds, hrest⟩ := ih hnext
    refine ⟨hend, hbounds, ?_⟩
    intro i record hrecord
    obtain ⟨final, hfinal, hretires⟩ := hrest i _ (by
      rw [DrainQueue.mapped, List.getElem?_map, hrecord]
      rfl)
    exact ⟨final, hfinal,
      (retires_one p agent_name record (List.mem_of_getElem? hrecord)).cons hretires⟩

variable {intent : DrainIntent} {agent_name : Text}

def enqueued (intent : DrainIntent) (bounds : DrainBounds) (now_s : ℚ) : DrainRecord :=
  plan_drain_transition (DrainRecord.pending intent bounds now_s) now_s fun _ => true

theorem enqueued_spec (bounds : DrainBounds) (hcreated : intent.created_at_s = now_s) :
    (enqueued intent bounds now_s).intent = intent ∧
      (enqueued intent bounds now_s).terminal = false ∧
      now_s < (enqueued intent bounds now_s).max_age_deadline_at_s := by
  have hage : now_s < intent.created_at_s + bounds.max_age_s := by
    rw [hcreated]
    exact lt_add_of_pos_right _ bounds.max_age_pos
  have hdeadline : now_s < now_s + bounds.timeout_s := lt_add_of_pos_right _ bounds.timeout_pos
  have heq : enqueued intent bounds now_s =
      (DrainRecord.pending intent bounds now_s).with_transition .draining .waiting now_s
        (asciiText "agent is busy; drain remains bounded and pending") (some true) := by
    have hpending : (DrainRecord.pending intent bounds now_s).terminal = false := rfl
    have hstatus : (DrainRecord.pending intent bounds now_s).status ≠ .idle_ready := by
      simp [DrainRecord.pending]
    have hyoung : ¬ (DrainRecord.pending intent bounds now_s).max_age_deadline_at_s ≤ now_s :=
      not_le.mpr hage
    have hearly : ¬ (DrainRecord.pending intent bounds now_s).deadline_at_s ≤ now_s :=
      not_le.mpr hdeadline
    simp only [enqueued, plan_drain_transition, hpending, hstatus, hyoung, hearly,
      Bool.false_eq_true, if_false, if_true]
  rw [heq]
  exact ⟨rfl, rfl, hage⟩

def with_enqueued (queue : DrainQueue) (intent : DrainIntent) (now_s : ℚ) : DrainQueue :=
  { queue with
    records := (queue.records ++ [DrainRecord.pending intent queue.bounds now_s]).map fun record =>
      if record.intent.intent_id = intent.intent_id then enqueued intent queue.bounds now_s
      else record }

/-- The three ways of a blocked reload: it looks at the agent's active record again, it enqueues
the drain, or it does nothing. -/
theorem record_drain_cases (hs : Sound queue) (intent : Option DrainIntent) (agent_name : Text)
    (hintent : ∀ wanted, intent = some wanted → wanted.created_at_s = now_s) :
    (∃ record ∈ queue.records, record.intent.agent_name = agent_name ∧ record.terminal = false ∧
      record_drain intent agent_name now_s queue = DrainQueue.mapped queue fun other =>
        if other = record then plan_drain_transition record now_s fun _ => true else other) ∨
    queue.active_records_for agent_name = [] ∧
      (record_drain intent agent_name now_s queue = queue ∧
          (∀ wanted, intent = some wanted → queue.bounds.max_pending ≤ queue.pending_count) ∨
        ∃ wanted, intent = some wanted ∧ queue.pending_count < queue.bounds.max_pending ∧
          record_drain intent agent_name now_s queue = with_enqueued queue wanted now_s) := by
  cases hlast : (queue.active_records_for agent_name).getLast? with
  | some record =>
    left
    have hmem := List.mem_of_getLast? hlast
    unfold DrainQueue.active_records_for at hmem
    rw [List.mem_filter] at hmem
    obtain ⟨hrecord, hactive⟩ := hmem
    simp only [Bool.and_eq_true, decide_eq_true_eq, Bool.not_eq_true'] at hactive
    refine ⟨record, hrecord, hactive.1, hactive.2, ?_⟩
    unfold record_drain
    rw [hlast]
    exact replace_record_of_mem hs hrecord (moves_plan_drain_transition _).intent
  | none =>
    right
    refine ⟨List.getLast?_eq_none_iff.mp hlast, ?_⟩
    unfold record_drain
    rw [hlast]
    cases intent with
    | none => exact Or.inl ⟨rfl, fun _ h => by cases h⟩
    | some wanted =>
      have hcreated := hintent wanted rfl
      have hage : ¬ wanted.created_at_s + queue.bounds.max_age_s < now_s := by
        rw [hcreated, not_lt]
        exact (lt_add_of_pos_right _ queue.bounds.max_age_pos).le
      dsimp only
      unfold DrainQueue.enqueue
      rw [if_neg hage]
      by_cases hfull : queue.bounds.max_pending ≤ queue.pending_count
      · left
        rw [if_pos hfull, if_neg Bool.false_ne_true]
        exact ⟨rfl, fun _ _ => hfull⟩
      · right
        rw [if_neg hfull, if_pos rfl]
        refine ⟨wanted, rfl, not_le.mp hfull, ?_⟩
        unfold DrainQueue.replace_record with_enqueued
        dsimp only
        rw [(moves_plan_drain_transition _).intent]
        rfl

/-- What an action of a reload does to a sound queue. -/
structure Acts (now_s : ℚ) (queue after : DrainQueue) : Prop where
  sound : Sound after
  evolves : Evolves queue after
  young : ∀ (i : ℕ) (record : DrainRecord), after.records[i]? = some record →
    queue.records.length ≤ i → now_s < record.max_age_deadline_at_s

theorem acts_refl (hs : Sound queue) : Acts now_s queue queue := by
  refine { sound := hs, evolves := evolves_refl queue, young := ?_ }
  intro i record hrecord hlength
  rw [List.getElem?_eq_none hlength] at hrecord
  cases hrecord

theorem acts_mapped (hs : Sound queue) (hf : ∀ record ∈ queue.records, Moves record (f record)) :
    Acts now_s queue (DrainQueue.mapped queue f) := by
  obtain ⟨hsound, hevolves⟩ := sound_mapped hs hf
  refine { sound := hsound, evolves := hevolves, young := ?_ }
  intro i record hrecord hlength
  rw [DrainQueue.mapped, List.getElem?_map, List.getElem?_eq_none hlength] at hrecord
  cases hrecord

theorem with_enqueued_fresh (now_s : ℚ) (hfresh : ∀ record ∈ queue.records,
    record.intent.intent_id ≠ intent.intent_id) :
    (with_enqueued queue intent now_s).records =
      queue.records ++ [enqueued intent queue.bounds now_s] := by
  unfold with_enqueued
  dsimp only
  have hlast : (DrainRecord.pending intent queue.bounds now_s).intent = intent := rfl
  rw [List.map_append, List.map_singleton, hlast, if_pos rfl]
  congr 1
  refine (List.map_congr_left ?_).trans queue.records.map_id
  intro record hrecord
  rw [if_neg (hfresh record hrecord), id_eq]

theorem acts_with_enqueued (hs : Sound queue) (hcreated : intent.created_at_s = now_s)
    (hnone : queue.active_records_for intent.agent_name = [])
    (hroom : queue.pending_count < queue.bounds.max_pending)
    (hfresh : ∀ record ∈ queue.records, record.intent.intent_id ≠ intent.intent_id) :
    Acts now_s queue (with_enqueued queue intent now_s) := by
  obtain ⟨hsame, hactive, hyoung⟩ := enqueued_spec queue.bounds hcreated
  have hrecords := with_enqueued_fresh now_s hfresh
  refine { sound := { ids := ?_, agents := ?_, pending := ?_ },
           evolves := { bounds := rfl, records := ?_ }, young := ?_ }
  · rw [hrecords, List.map_append, List.map_singleton, hsame]
    refine List.Nodup.append hs.ids (List.nodup_singleton _) ?_
    intro id hid hnew
    obtain ⟨record, hrecord, rfl⟩ := List.mem_map.mp hid
    exact hfresh record hrecord (List.mem_singleton.mp hnew)
  · rw [hrecords, List.pairwise_append]
    refine ⟨hs.agents, List.pairwise_singleton _ _, ?_⟩
    intro older holder newer hnewer hagent
    rw [List.mem_singleton.mp hnewer, hsame] at hagent
    by_contra holderActive
    have hin : older ∈ queue.active_records_for intent.agent_name :=
      List.mem_filter.mpr ⟨holder, by simp [hagent, holderActive]⟩
    rw [hnone] at hin
    exact List.not_mem_nil hin
  · unfold DrainQueue.pending_count
    rw [hrecords, List.filter_append, List.length_append]
    simp only [List.filter_cons, hactive, Bool.not_false, if_true, List.filter_nil,
      List.length_singleton]
    exact hroom
  · rw [hrecords]
    exact keepsPlaces_append moves_refl _
  · intro i record hrecord hlength
    rw [hrecords, List.getElem?_append_right hlength] at hrecord
    rw [List.mem_singleton.mp (List.mem_of_getElem? hrecord)]
    exact hyoung

theorem two_active_with_enqueued (hcreated : intent.created_at_s = now_s)
    (hrecord : record ∈ queue.records) (hid : record.intent.intent_id = intent.intent_id) :
    2 ≤ ((with_enqueued queue intent now_s).active_records_for intent.agent_name).length := by
  obtain ⟨hsame, hactive, _⟩ := enqueued_spec queue.bounds hcreated
  have hlast : (DrainRecord.pending intent queue.bounds now_s).intent = intent := rfl
  unfold DrainQueue.active_records_for with_enqueued
  dsimp only
  rw [List.map_append, List.map_singleton, hlast, if_pos rfl, List.filter_append,
    List.length_append]
  have hnew : [enqueued intent queue.bounds now_s].filter (fun record =>
      record.intent.agent_name = intent.agent_name && !record.terminal) =
        [enqueued intent queue.bounds now_s] := by
    simp [hsame, hactive]
  have hold : enqueued intent queue.bounds now_s ∈ (queue.records.map fun record =>
      if record.intent.intent_id = intent.intent_id then enqueued intent queue.bounds now_s
      else record).filter fun record =>
        record.intent.agent_name = intent.agent_name && !record.terminal := by
    refine List.mem_filter.mpr ⟨List.mem_map.mpr ⟨record, hrecord, ?_⟩, ?_⟩
    · rw [if_pos hid]
    · simp [hsame, hactive]
  have hpos := List.length_pos_of_mem hold
  rw [hnew, List.length_singleton]
  omega

theorem Sound.eq_of_active (hs : Sound queue) {other : DrainRecord}
    (hrecord : record ∈ queue.records) (hother : other ∈ queue.records)
    (hactive : record.terminal = false) (hotherActive : other.terminal = false)
    (hagent : record.intent.agent_name = other.intent.agent_name) : record = other := by
  by_contra hne
  have hone : queue.records.Pairwise fun a b : DrainRecord =>
      a.intent.agent_name = b.intent.agent_name → a.terminal = true ∨ b.terminal = true :=
    hs.agents.imp fun h heq => Or.inl (h heq)
  have hsymm : Std.Symm fun a b : DrainRecord =>
      a.intent.agent_name = b.intent.agent_name → a.terminal = true ∨ b.terminal = true :=
    ⟨fun a b h heq => (h heq.symm).symm⟩
  rcases hone.forall hrecord hother hne hagent with h | h
  · rw [hactive] at h
    cases h
  · rw [hotherActive] at h
    cases h

theorem not_active_for (hnone : queue.active_records_for agent_name = [])
    (hrecord : record ∈ queue.records) (hagent : record.intent.agent_name = agent_name) :
    record.terminal = true := by
  by_contra hactive
  have hin : record ∈ queue.active_records_for agent_name :=
    List.mem_filter.mpr ⟨hrecord, by simp [hagent, hactive]⟩
  rw [hnone] at hin
  exact List.not_mem_nil hin

section

variable {wanted : Option DrainIntent}

def IntentFor (agent_name : Text) (now_s : ℚ) (wanted : Option DrainIntent) : Prop :=
  ∀ intent, wanted = some intent → intent.agent_name = agent_name ∧ intent.created_at_s = now_s

/-- What the intent enqueues has an id of its own. -/
def FreshIntent (queue : DrainQueue) (agent_name : Text) (wanted : Option DrainIntent) : Prop :=
  ∀ intent, wanted = some intent → queue.active_records_for agent_name = [] →
    queue.pending_count < queue.bounds.max_pending →
      ∀ record ∈ queue.records, record.intent.intent_id ≠ intent.intent_id

theorem acts_record_drain (hs : Sound queue) (hintent : IntentFor agent_name now_s wanted)
    (hfresh : FreshIntent queue agent_name wanted) :
    Acts now_s queue (record_drain wanted agent_name now_s queue) := by
  rcases record_drain_cases hs wanted agent_name fun intent h => (hintent intent h).2 with
    ⟨record, _, _, _, heq⟩ | ⟨hnone, ⟨heq, _⟩ | ⟨intent, hwanted, hroom, heq⟩⟩
  · rw [heq]
    apply acts_mapped hs
    intro other _
    split
    · rename_i hsame
      rw [hsame]
      exact moves_plan_drain_transition _
    · exact moves_refl other
  · rw [heq]
    exact acts_refl hs
  · obtain ⟨hagent, hcreated⟩ := hintent intent hwanted
    rw [heq]
    apply acts_with_enqueued hs hcreated _ hroom (hfresh intent hwanted hnone hroom)
    rw [hagent]
    exact hnone

theorem two_active_record_drain (hs : Sound queue) (hintent : IntentFor agent_name now_s wanted)
    (hfresh : ¬ FreshIntent queue agent_name wanted) :
    2 ≤ ((record_drain wanted agent_name now_s queue).active_records_for agent_name).length := by
  unfold FreshIntent at hfresh
  push Not at hfresh
  obtain ⟨intent, hwanted, hnone, hroom, record, hrecord, hid⟩ := hfresh
  rcases record_drain_cases hs wanted agent_name fun intent h => (hintent intent h).2 with
    ⟨other, hother, hagent, hactive, _⟩ | ⟨_, ⟨_, hfull⟩ | ⟨intent', hwanted', _, heq⟩⟩
  · have hterminal := not_active_for hnone hother hagent
    rw [hactive] at hterminal
    cases hterminal
  · have hcount := hfull intent hwanted
    omega
  · obtain rfl := Option.some.inj (hwanted.symm.trans hwanted')
    obtain ⟨hagent, hcreated⟩ := hintent intent hwanted
    have htwo := two_active_with_enqueued hcreated hrecord hid
    rw [hagent] at htwo
    rwa [heq]

theorem ends_record_drain (hs : Sound queue) (hintent : IntentFor agent_name now_s wanted) {i : ℕ}
    (hrecord : queue.records[i]? = some record) (hactive : record.terminal = false)
    (hdue : record.max_age_deadline_at_s ≤ now_s) (hagent : record.intent.agent_name = agent_name)
    (hready : record.status ≠ .idle_ready) :
    ∃ after, (record_drain wanted agent_name now_s queue).records[i]? = some after ∧
      after.terminal = true := by
  have hmem := List.mem_of_getElem? hrecord
  rcases record_drain_cases hs wanted agent_name fun intent h => (hintent intent h).2 with
    ⟨other, hother, hotherAgent, hotherActive, heq⟩ | ⟨hnone, _⟩
  · have hsame := hs.eq_of_active hmem hother hactive hotherActive (hagent.trans hotherAgent.symm)
    subst hsame
    refine ⟨plan_drain_transition record now_s fun _ => true, ?_,
      terminal_plan_drain_transition hactive hready hdue⟩
    rw [heq, DrainQueue.mapped, List.getElem?_map, hrecord, Option.map_some, if_pos rfl]
  · have hterminal := not_active_for hnone hmem hagent
    rw [hactive] at hterminal
    cases hterminal

theorem spares_record_drain (hs : Sound queue) (hintent : IntentFor agent_name now_s wanted)
    (hfresh : FreshIntent queue agent_name wanted) {i : ℕ}
    (hrecord : queue.records[i]? = some record)
    (hspared : record.intent.agent_name = agent_name → record.status = .idle_ready) :
    (record_drain wanted agent_name now_s queue).records[i]? = some record := by
  rcases record_drain_cases hs wanted agent_name fun intent h => (hintent intent h).2 with
    ⟨other, _, hagent, _, heq⟩ | ⟨hnone, ⟨heq, _⟩ | ⟨intent, hwanted, hroom, heq⟩⟩
  · rw [heq, DrainQueue.mapped, List.getElem?_map, hrecord, Option.map_some]
    by_cases hsame : record = other
    · subst hsame
      rw [if_pos rfl, plan_drain_transition_ready (hspared hagent)]
    · rw [if_neg hsame]
  · rw [heq]
    exact hrecord
  · have hi := (List.getElem?_eq_some_iff.mp hrecord).1
    rw [heq, with_enqueued_fresh now_s (hfresh intent hwanted hnone hroom),
      List.getElem?_append_left hi]
    exact hrecord

end

theorem intentFor_intent_from_plan (kind : IntentKind) (label : Text) (plan : Option ReloadPlan)
    (agent_name reason : Text) :
    IntentFor agent_name now_s (intent_from_plan kind label plan agent_name now_s reason) := by
  intro intent hintent
  unfold intent_from_plan at hintent
  dsimp only at hintent
  rw [Option.dite_none_right_eq_some] at hintent
  obtain ⟨_, heq⟩ := hintent
  rw [← Option.some.inj heq]
  exact ⟨rfl, rfl⟩

theorem freshIntent_of {plan : Option ReloadPlan} {reason : Text}
    (h : (DrainAction.unload_blocked plan agent_name reason).Fresh now_s queue) :
    FreshIntent queue agent_name (unload_intent_from_plan plan agent_name now_s reason) := by
  intro intent hintent
  exact h agent_name intent (by rw [DrainAction.intent, hintent]; rfl)

theorem freshIntent_of_replace {plan : ReloadPlan} {reason : Text}
    (h : (DrainAction.replace_blocked plan agent_name reason).Fresh now_s queue) :
    FreshIntent queue agent_name
      (replace_intent_from_plan (some plan) agent_name now_s reason) := by
  intro intent hintent
  exact h agent_name intent (by rw [DrainAction.intent, hintent]; rfl)

theorem acts_retire_chosen (p : Text → DrainIntent → Bool) (agent_names : List Text)
    (hs : Sound queue) : Acts now_s queue (retire_chosen p now_s agent_names queue) := by
  obtain ⟨hsound, hbounds, hrecords⟩ := retires_chosen now_s p agent_names hs
  have hlength : (retire_chosen p now_s agent_names queue).records.length =
      queue.records.length := by
    unfold retire_chosen
    clear hsound hbounds hrecords
    induction agent_names generalizing queue with
    | nil => rfl
    | cons agent_name rest ih =>
      rw [List.foldl_cons, foldl_retire_active hs]
      have hnext := (sound_mapped hs fun record _ =>
        moves_replaced (queue.records.filter fun record =>
          p agent_name record.intent && !record.terminal) (moves_retired now_s) record).1
      rw [ih hnext]
      exact List.length_map _
  refine { sound := hsound, evolves := { bounds := hbounds, records := ?_ }, young := ?_ }
  · intro i record hrecord
    obtain ⟨after, hafter, hretires⟩ := hrecords i record hrecord
    exact ⟨after, hafter, hretires.moves⟩
  · intro i record hrecord hi
    rw [List.getElem?_eq_none (by omega)] at hrecord
    cases hrecord

variable {action : DrainAction}

theorem acts_action (hs : Sound queue) (hfresh : action.Fresh now_s queue) :
    Acts now_s queue (action.apply now_s queue) := by
  cases action with
  | keep => exact acts_refl hs
  | unload_blocked plan agent_name reason =>
    exact acts_record_drain hs (intentFor_intent_from_plan _ _ _ _ _) (freshIntent_of hfresh)
  | replace_blocked plan agent_name reason =>
    exact acts_record_drain hs (intentFor_intent_from_plan _ _ _ _ _)
      (freshIntent_of_replace hfresh)
  | unloaded agent_names =>
    rw [apply_unloaded]
    exact acts_retire_chosen _ agent_names hs
  | replaced agent_names =>
    rw [apply_replaced]
    exact acts_retire_chosen _ agent_names hs

theorem two_active_action (hs : Sound queue) (hfresh : ¬ action.Fresh now_s queue) :
    ∃ agent_name, 2 ≤ ((action.apply now_s queue).active_records_for agent_name).length := by
  unfold DrainAction.Fresh at hfresh
  push Not at hfresh
  obtain ⟨agent_name, intent, haction, hnone, hroom, record, hrecord, hid⟩ := hfresh
  cases action with
  | keep => cases haction
  | unloaded agent_names => cases haction
  | replaced agent_names => cases haction
  | unload_blocked plan blocked reason | replace_blocked plan blocked reason =>
    obtain ⟨wanted, hwanted, hsame⟩ := Option.map_eq_some_iff.mp haction
    obtain ⟨rfl, rfl⟩ := Prod.mk.inj hsame
    refine ⟨blocked, two_active_record_drain hs (intentFor_intent_from_plan _ _ _ _ _) ?_⟩
    exact fun h => h wanted hwanted hnone hroom record hrecord hid

variable {i : ℕ}

theorem ends_action (hs : Sound queue) (hrecord : queue.records[i]? = some record)
    (hactive : record.terminal = false) (hdue : record.max_age_deadline_at_s ≤ now_s)
    (hends : action.Ends record) :
    ∃ after, (action.apply now_s queue).records[i]? = some after ∧ after.terminal = true := by
  cases action with
  | keep => exact hends.elim
  | unload_blocked plan agent_name reason | replace_blocked plan agent_name reason =>
    exact ends_record_drain hs (intentFor_intent_from_plan _ _ _ _ _) hrecord hactive hdue hends.1
      hends.2
  | unloaded agent_names =>
    rw [apply_unloaded]
    obtain ⟨after, hafter, hretires⟩ := (retires_chosen _ _ agent_names hs).2.2 i record hrecord
    exact ⟨after, hafter, hretires.ends ⟨_, hends, by simp⟩⟩
  | replaced agent_names =>
    rw [apply_replaced]
    obtain ⟨after, hafter, hretires⟩ := (retires_chosen _ _ agent_names hs).2.2 i record hrecord
    exact ⟨after, hafter, hretires.ends ⟨_, hends.1, by simp [hends.2]⟩⟩

theorem spares_action (hs : Sound queue) (hfresh : action.Fresh now_s queue)
    (hrecord : queue.records[i]? = some record) (hends : ¬ action.Ends record) :
    (action.apply now_s queue).records[i]? = some record := by
  cases action with
  | keep => exact hrecord
  | unload_blocked plan agent_name reason =>
    apply spares_record_drain hs (intentFor_intent_from_plan _ _ _ _ _) (freshIntent_of hfresh)
      hrecord
    intro hagent
    by_contra hready
    exact hends ⟨hagent, hready⟩
  | replace_blocked plan agent_name reason =>
    apply spares_record_drain hs (intentFor_intent_from_plan _ _ _ _ _)
      (freshIntent_of_replace hfresh) hrecord
    intro hagent
    by_contra hready
    exact hends ⟨hagent, hready⟩
  | unloaded agent_names =>
    rw [apply_unloaded]
    obtain ⟨after, hafter, hretires⟩ := (retires_chosen _ _ agent_names hs).2.2 i record hrecord
    rw [hafter, hretires.keeps]
    intro agent_name hin
    rw [decide_eq_false_iff_not]
    rintro rfl
    exact hends hin
  | replaced agent_names =>
    rw [apply_replaced]
    obtain ⟨after, hafter, hretires⟩ := (retires_chosen _ _ agent_names hs).2.2 i record hrecord
    rw [hafter, hretires.keeps]
    intro agent_name hin
    rw [Bool.eq_false_iff]
    intro hchosen
    simp only [Bool.and_eq_true, decide_eq_true_eq] at hchosen
    obtain ⟨hkind, rfl⟩ := hchosen
    exact hends ⟨hin, hkind⟩

variable {answers : RetryAnswers}

/-- What a tick makes of a removal before it reloads. -/
def transition (answers : RetryAnswers) (record : DrainRecord) : DrainRecord :=
  plan_drain_transition record answers.now_s (agent_busy answers.work)

theorem moves_transition (answers : RetryAnswers) (record : DrainRecord) :
    Moves record (transition answers record) :=
  moves_plan_drain_transition _

def ready_records (answers : RetryAnswers) (queue : DrainQueue) : List DrainRecord :=
  ((active_unload_records queue).map (transition answers)).filter fun record =>
    record.status = .idle_ready

theorem foldl_transitions (records ready : List DrainRecord) (queue : DrainQueue) :
    records.foldl
      (fun (state : DrainQueue × List DrainRecord) record =>
        (if transition answers record = record then state.1
          else state.1.replace_record (transition answers record),
        if (transition answers record).status = .idle_ready then
          state.2 ++ [transition answers record] else state.2)) (queue, ready) =
      (records.foldl (fun queue record =>
          if transition answers record = record then queue
          else queue.replace_record (transition answers record)) queue,
        ready ++ (records.map (transition answers)).filter fun record =>
          record.status = .idle_ready) := by
  induction records generalizing queue ready with
  | nil => simp
  | cons record rest ih =>
    rw [List.foldl_cons, ih, List.foldl_cons, List.map_cons, List.filter_cons]
    by_cases hready : (transition answers record).status = .idle_ready
    · simp [hready]
    · simp [hready]

theorem mem_active_unload : record ∈ active_unload_records queue ↔
    record ∈ queue.records ∧ record.terminal = false ∧ record.intent.intent_kind = .unload := by
  simp [active_unload_records]

theorem transition_records_eq (hs : Sound queue) :
    transition_records answers.work answers.now_s queue (active_unload_records queue) =
      (DrainQueue.mapped queue (replaced (active_unload_records queue) (transition answers)),
        ready_records answers queue) := by
  refine (foldl_transitions (active_unload_records queue) [] queue).trans ?_
  rw [List.nil_append]
  refine Prod.ext ?_ rfl
  refine foldl_replace (moves_transition answers) ?_ hs
    (fun record h => (mem_active_unload.mp h).1) (hs.nodup.filter _)
  intro queue record hs hrecord
  split
  · rename_i hsame
    rw [hsame, replace_record_self hs hrecord]
  · rfl

theorem mem_ready_records : record ∈ ready_records answers queue ↔
    (∃ old ∈ active_unload_records queue, transition answers old = record) ∧
      record.status = .idle_ready := by
  simp [ready_records]

/-- What a tick does to a record before it reloads. -/
structure Ticks (answers : RetryAnswers) (record after : DrainRecord) : Prop where
  moves : Moves record after
  times_out : record.terminal = false → record.intent.intent_kind = .unload →
    record.status ≠ .idle_ready → record.max_age_deadline_at_s ≤ answers.now_s →
      after.terminal = true
  retires : ∀ plan, answers.plan = some plan → record.intent.intent_kind = .unload →
    record.status = .idle_ready → record.intent.agent_name ∉ remove_agents plan →
      after.terminal = true
  keeps : record.intent.intent_kind = .replace ∨ record.status = .idle_ready ∧
    (∀ plan, answers.plan = some plan → record.intent.agent_name ∈ remove_agents plan) →
      after = record

def stale_records (answers : RetryAnswers) (queue : DrainQueue) : List DrainRecord :=
  (answers.plan.map fun plan => (ready_records answers queue).filter fun record =>
    record.intent.agent_name ∉ remove_agents plan).getD []

theorem mem_stale_records : record ∈ stale_records answers queue ↔
    ∃ plan, answers.plan = some plan ∧ record ∈ ready_records answers queue ∧
      record.intent.agent_name ∉ remove_agents plan := by
  unfold stale_records
  cases answers.plan <;> simp

/-- What a tick makes of a record before it reloads. -/
def ticked (answers : RetryAnswers) (queue : DrainQueue) (record : DrainRecord) : DrainRecord :=
  replaced (stale_records answers queue) (fun record => retire_record record answers.now_s)
    (replaced (active_unload_records queue) (transition answers) record)

theorem moves_ticked (record : DrainRecord) : Moves record (ticked answers queue record) :=
  (moves_replaced _ (moves_transition answers) record).trans
    (moves_replaced _ (fun _ => moves_retire_record) _)

theorem ticks_ticked (hrecord : record ∈ queue.records) :
    Ticks answers record (ticked answers queue record) := by
  refine { moves := moves_ticked record, times_out := ?_, retires := ?_, keeps := ?_ }
  · intro hactive hkind hready hdue
    have hin : record ∈ active_unload_records queue :=
      mem_active_unload.mpr ⟨hrecord, hactive, hkind⟩
    refine (moves_replaced _ (fun _ => moves_retire_record) _).terminal_of ?_
    rw [replaced, if_pos hin]
    exact terminal_plan_drain_transition hactive hready hdue
  · intro plan hplan hkind hready hgone
    have hactive : record.terminal = false := by
      rw [DrainRecord.terminal, hready]
      rfl
    have hin : record ∈ active_unload_records queue :=
      mem_active_unload.mpr ⟨hrecord, hactive, hkind⟩
    have hsame : transition answers record = record := plan_drain_transition_ready hready
    have hstale : record ∈ stale_records answers queue :=
      mem_stale_records.mpr ⟨plan, hplan, mem_ready_records.mpr ⟨⟨record, hin, hsame⟩, hready⟩,
        hgone⟩
    unfold ticked
    rw [replaced, replaced, if_pos hin, hsame, if_pos hstale]
    exact terminal_retire_record hready
  · intro hkept
    have hfirst : replaced (active_unload_records queue) (transition answers) record = record := by
      unfold replaced
      split
      · rename_i hin
        rcases hkept with hkind | ⟨hready, _⟩
        · rw [(mem_active_unload.mp hin).2.2] at hkind
          cases hkind
        · exact plan_drain_transition_ready hready
      · rfl
    unfold ticked
    rw [hfirst, replaced, if_neg]
    intro hstale
    obtain ⟨plan, hplan, hready, hgone⟩ := mem_stale_records.mp hstale
    obtain ⟨⟨old, hold, hsame⟩, _⟩ := mem_ready_records.mp hready
    have hkind : record.intent.intent_kind = .unload := by
      rw [← hsame, transition, (moves_plan_drain_transition _).intent]
      exact (mem_active_unload.mp hold).2.2
    rcases hkept with hreplace | ⟨_, hasked⟩
    · rw [hkind] at hreplace
      cases hreplace
    · exact hgone (hasked plan hplan)

theorem reloads_iff : answers.Reloads queue ↔ ∃ plan, answers.plan = some plan ∧
    ∃ record ∈ ready_records answers queue, record.intent.agent_name ∈ remove_agents plan := by
  constructor
  · rintro ⟨plan, hplan, record, hrecord, hactive, hkind, hasked, hready⟩
    refine ⟨plan, hplan, transition answers record,
      mem_ready_records.mpr ⟨⟨record, ?_, rfl⟩, ?_⟩, ?_⟩
    · exact mem_active_unload.mpr ⟨hrecord, hactive, hkind⟩
    · exact (ready_plan_drain_transition hactive).mpr hready
    · rw [transition, (moves_plan_drain_transition _).intent]
      exact hasked
  · rintro ⟨plan, hplan, record, hin, hasked⟩
    obtain ⟨⟨old, hold, rfl⟩, hready⟩ := mem_ready_records.mp hin
    obtain ⟨hrecord, hactive, hkind⟩ := mem_active_unload.mp hold
    rw [transition, (moves_plan_drain_transition _).intent] at hasked
    exact ⟨plan, hplan, old, hrecord, hactive, hkind, hasked,
      (ready_plan_drain_transition hactive).mp hready⟩

theorem nodup_stale_records (hs : Sound queue) : (stale_records answers queue).Nodup := by
  have hready : (ready_records answers queue).Nodup := by
    refine List.Nodup.filter _ (List.Nodup.of_map (fun record => record.intent.intent_id) ?_)
    rw [List.map_map]
    have hids : ((active_unload_records queue).map
        ((fun record => record.intent.intent_id) ∘ transition answers)) =
          (active_unload_records queue).map fun record => record.intent.intent_id := by
      apply List.map_congr_left
      intro record _
      rw [Function.comp_apply, transition, (moves_plan_drain_transition _).intent]
    rw [hids]
    exact hs.ids.sublist (List.filter_sublist.map _)
  unfold stale_records
  cases answers.plan with
  | none => exact List.nodup_nil
  | some plan => exact hready.filter _

/-- Before it reloads, a tick does what `Ticks` says to each record, and it reloads if a removal
is ready that the configuration still asks for. -/
theorem auto_retry_ready_eq (answers : RetryAnswers) (hs : Sound queue) :
    (auto_retry_ready answers queue).1 = DrainQueue.mapped queue (ticked answers queue) ∧
      ((auto_retry_ready answers queue).2 = true ↔ answers.Reloads queue) := by
  obtain ⟨hmiddle, _⟩ := sound_mapped hs fun record _ =>
    moves_replaced (active_unload_records queue) (moves_transition answers) record
  have hstale : ∀ record ∈ stale_records answers queue, record ∈ (DrainQueue.mapped queue
      (replaced (active_unload_records queue) (transition answers))).records := by
    intro record hrecord
    obtain ⟨_, _, hready, _⟩ := mem_stale_records.mp hrecord
    obtain ⟨⟨old, hold, hsame⟩, _⟩ := mem_ready_records.mp hready
    refine List.mem_map.mpr ⟨old, (mem_active_unload.mp hold).1, ?_⟩
    rw [replaced, if_pos hold]
    exact hsame
  have hretired : retire_records answers.now_s (DrainQueue.mapped queue
      (replaced (active_unload_records queue) (transition answers)))
        (stale_records answers queue) = _ :=
    foldl_replace (fun record => moves_retire_record) (fun _ _ _ _ => rfl) hmiddle hstale
      (nodup_stale_records hs)
  have htwice : DrainQueue.mapped (DrainQueue.mapped queue
      (replaced (active_unload_records queue) (transition answers)))
        (replaced (stale_records answers queue) fun record =>
          retire_record record answers.now_s) =
      DrainQueue.mapped queue (ticked answers queue) := by
    unfold DrainQueue.mapped
    dsimp only
    rw [List.map_map]
    rfl
  rw [reloads_iff]
  unfold auto_retry_ready
  dsimp only
  rw [transition_records_eq hs]
  cases hplan : answers.plan with
  | none =>
    refine ⟨?_, by simp⟩
    rw [← htwice, ← hretired]
    have hnone : stale_records answers queue = [] := by
      rw [stale_records, hplan]
      rfl
    rw [hnone]
    rfl
  | some plan =>
    refine ⟨?_, ?_⟩
    · rw [← htwice, ← hretired]
      have hsome : stale_records answers queue = (ready_records answers queue).filter fun record =>
          record.intent.agent_name ∉ remove_agents plan := by
        rw [stale_records, hplan]
        rfl
      rw [hsome]
    · simp

theorem step_auto_retry (hs : Sound queue) (henabled : answers.enabled = true) :
    ∃ ready, (auto_retry_ready answers queue).1 = ready ∧ Acts answers.now_s queue ready ∧
      (∀ (i : ℕ) (record : DrainRecord), queue.records[i]? = some record →
        ∃ after, ready.records[i]? = some after ∧ Ticks answers record after) ∧
      (answers.Reloads queue → queue.step (.auto_retry answers) =
        (reload_action answers.reload).apply answers.reload.now_s ready) ∧
      (¬ answers.Reloads queue → queue.step (.auto_retry answers) = ready) := by
  obtain ⟨hready, hreloads⟩ := auto_retry_ready_eq answers hs
  have hstep : queue.step (.auto_retry answers) =
      if (auto_retry_ready answers queue).2 = true then
        run_additive_reload_apply answers.reload (auto_retry_ready answers queue).1
      else (auto_retry_ready answers queue).1 := by
    change tick_reload_drain_auto_retry answers queue = _
    unfold tick_reload_drain_auto_retry
    rw [if_pos henabled]
  refine ⟨_, hready, acts_mapped hs fun record _ => moves_ticked record, ?_, ?_, ?_⟩
  · intro i record hrecord
    refine ⟨ticked answers queue record, ?_, ticks_ticked (List.mem_of_getElem? hrecord)⟩
    rw [DrainQueue.mapped, List.getElem?_map, hrecord]
    rfl
  · intro h
    rw [hstep, if_pos (hreloads.mpr h), hready]
    rfl
  · intro h
    rw [hstep, if_neg fun h2 => h (hreloads.mp h2), hready]

theorem Sound.one_active (hs : Sound queue) (agent_name : Text) :
    (queue.active_records_for agent_name).length ≤ 1 := by
  have hnone : (queue.active_records_for agent_name).Pairwise fun _ _ => False := by
    refine List.Pairwise.imp_of_mem ?_ (hs.agents.sublist List.filter_sublist)
    intro older newer holder hnewer hold
    have hactive := List.of_mem_filter holder
    have hother := List.of_mem_filter hnewer
    simp only [Bool.and_eq_true, decide_eq_true_eq, Bool.not_eq_true'] at hactive hother
    rw [hold (hactive.1.trans hother.1.symm)] at hactive
    exact Bool.noConfusion hactive.2
  cases hlist : queue.active_records_for agent_name with
  | nil => exact Nat.zero_le _
  | cons first rest =>
    cases rest with
    | nil => exact le_refl _
    | cons second rest =>
      rw [hlist] at hnone
      exact ((List.pairwise_cons.mp hnone).1 second List.mem_cons_self).elim

theorem Sound.newer_active (hs : Sound queue) (hrecord : queue.records[i]? = some record)
    (hterminal : record.terminal = true)
    (hblocks : queue.blocks_new_work_for record.intent.agent_name = true) :
    ∃ (j : ℕ) (newer : DrainRecord), i < j ∧ queue.records[j]? = some newer ∧
      newer.intent.agent_name = record.intent.agent_name ∧ newer.terminal = false := by
  have hsome : queue.active_records_for record.intent.agent_name ≠ [] := by
    intro hnone
    rw [DrainQueue.blocks_new_work_for, hnone] at hblocks
    cases hblocks
  obtain ⟨newer, hin⟩ := List.exists_mem_of_ne_nil _ hsome
  have hnewer := List.of_mem_filter hin
  simp only [Bool.and_eq_true, decide_eq_true_eq, Bool.not_eq_true'] at hnewer
  obtain ⟨j, hj⟩ := List.getElem?_of_mem (List.mem_of_mem_filter hin)
  refine ⟨j, newer, ?_, hj, hnewer.1, hnewer.2⟩
  by_contra hle
  rcases Nat.lt_or_eq_of_le (not_lt.mp hle) with hlt | heq
  · obtain ⟨hjlen, hjeq⟩ := List.getElem?_eq_some_iff.mp hj
    obtain ⟨hilen, hieq⟩ := List.getElem?_eq_some_iff.mp hrecord
    have holder := List.pairwise_iff_getElem.mp hs.agents j i hjlen hilen hlt
    rw [hjeq, hieq] at holder
    rw [holder hnewer.1] at hnewer
    exact Bool.noConfusion hnewer.2
  · rw [heq, hrecord] at hj
    rw [Option.some.inj hj, hnewer.2] at hterminal
    cases hterminal

theorem Evolves.terminal {after : DrainQueue} (h : Evolves queue after)
    (hrecord : queue.records[i]? = some record) (hterminal : record.terminal = true) :
    after.records[i]? = some record := by
  obtain ⟨moved, hmoved, hmoves⟩ := h.records i record hrecord
  rw [hmoved, hmoves.terminal hterminal]

section

variable (hs : Sound queue)

include hs

theorem sound_step {step : Step} (hsafe : queue.Safe step) :
    Sound (queue.step step) ∧ Evolves queue (queue.step step) := by
  cases step with
  | reload answers =>
    have hacts := acts_action hs hsafe
    exact ⟨hacts.sound, hacts.evolves⟩
  | auto_retry answers =>
    by_cases henabled : answers.enabled = true
    · obtain ⟨ready, hready, hacts, _, hreload, hstay⟩ := step_auto_retry hs henabled
      by_cases hreloads : answers.Reloads queue
      · have hfresh := (hsafe henabled).2 hreloads
        rw [hready] at hfresh
        have hlater := acts_action hacts.sound hfresh
        rw [hreload hreloads]
        exact ⟨hlater.sound, hacts.evolves.trans hlater.evolves⟩
      · rw [hstay hreloads]
        exact ⟨hacts.sound, hacts.evolves⟩
    · have hstep : queue.step (.auto_retry answers) = queue := if_neg henabled
      rw [hstep]
      exact ⟨hs, evolves_refl queue⟩

theorem ends_step (henabled : answers.enabled = true)
    (hclock : answers.now_s ≤ answers.reload.now_s) (hsafe : queue.Safe (.auto_retry answers))
    (hrecord : (queue.step (.auto_retry answers)).records[i]? = some record)
    (hdue : record.max_age_deadline_at_s ≤ answers.now_s) : record.terminal = true := by
  obtain ⟨htimely, hfresh⟩ := hsafe henabled
  obtain ⟨ready, hready, hacts, hticks, hreload, hstay⟩ := step_auto_retry hs henabled
  rw [hready] at hfresh
  -- What stands at the place before the reload is as old as what stands there after it.
  have hmoved : ∃ middle, ready.records[i]? = some middle ∧ Moves middle record := by
    by_cases hreloads : answers.Reloads queue
    · have hlater := acts_action hacts.sound (hfresh hreloads)
      rw [hreload hreloads] at hrecord
      cases hmiddle : ready.records[i]? with
      | some middle =>
        obtain ⟨after, hafter, hmoves⟩ := hlater.evolves.records i middle hmiddle
        rw [hrecord] at hafter
        cases hafter
        exact ⟨middle, rfl, hmoves⟩
      | none =>
        have hyoung := hlater.young i record hrecord (List.getElem?_eq_none_iff.mp hmiddle)
        exact absurd (hdue.trans hclock) (not_le.mpr hyoung)
    · rw [hstay hreloads] at hrecord
      exact ⟨record, hrecord, moves_refl record⟩
  obtain ⟨middle, hmiddle, hmoves⟩ := hmoved
  rw [hmoves.max_age] at hdue
  by_cases hend : middle.terminal = true
  · exact hmoves.terminal_of hend
  cases hold : queue.records[i]? with
  | none =>
    have hyoung := hacts.young i middle hmiddle (List.getElem?_eq_none_iff.mp hold)
    exact absurd hdue (not_le.mpr hyoung)
  | some old =>
    obtain ⟨after, hafter, hticked⟩ := hticks i old hold
    rw [hmiddle] at hafter
    cases hafter
    rw [hticked.moves.max_age] at hdue
    have hactive : old.terminal = false := by
      rw [Bool.eq_false_iff]
      exact fun h => hend (hticked.moves.terminal_of h)
    rcases htimely old (List.mem_of_getElem? hold) hactive hdue with
      ⟨hkind, hready | ⟨plan, hplan, hgone⟩⟩ | ⟨hreloads, hends⟩
    · exact absurd (hticked.times_out hactive hkind hready hdue) hend
    · by_cases hidle : old.status = .idle_ready
      · exact absurd (hticked.retires plan hplan hkind hidle hgone) hend
      · exact absurd (hticked.times_out hactive hkind hidle hdue) hend
    · have hsame : middle = old := by
        apply hticked.keeps
        cases hkind : old.intent.intent_kind with
        | replace => exact Or.inl rfl
        | unload =>
          right
          refine ⟨?_, ?_⟩
          · by_contra hidle
            exact hend (hticked.times_out hactive hkind hidle hdue)
          · intro plan hplan
            by_contra hgone
            by_cases hidle : old.status = .idle_ready
            · exact hend (hticked.retires plan hplan hkind hidle hgone)
            · exact hend (hticked.times_out hactive hkind hidle hdue)
      rw [hsame] at hmiddle
      obtain ⟨after, hafter, hterminal⟩ := ends_action hacts.sound hmiddle hactive
        (hdue.trans hclock) hends
      rw [hreload hreloads, hafter] at hrecord
      rw [← Option.some.inj hrecord]
      exact hterminal

theorem bounded_of_safe {step : Step} (hclock : step.times.Pairwise (· ≤ ·))
    (hsafe : queue.Safe step) : queue.Bounded step := by
  obtain ⟨hsound, hevolves⟩ := sound_step hs hsafe
  refine { terminal := fun i record => hevolves.terminal, one_active := hsound.one_active,
           pending := hsound.pending, ends := ?_ }
  rintro answers rfl henabled i record hrecord hdue
  have hlater : answers.now_s ≤ answers.reload.now_s := by
    simpa [Step.times] using hclock
  have hterminal := ends_step hs henabled hlater hsafe hrecord hdue
  exact ⟨hterminal, hsound.newer_active hrecord hterminal⟩

theorem fresh_of_one_active {action : DrainAction}
    (hone : ∀ agent_name, ((action.apply now_s queue).active_records_for agent_name).length ≤ 1) :
    action.Fresh now_s queue := by
  by_contra hfresh
  obtain ⟨agent_name, htwo⟩ := two_active_action hs hfresh
  have hle := hone agent_name
  omega

theorem timely_of_ends (henabled : answers.enabled = true)
    (hfresh : answers.Reloads queue → (reload_action answers.reload).Fresh answers.reload.now_s
      (auto_retry_ready answers queue).1) (hends : ∀ (i : ℕ) (record : DrainRecord),
      (queue.step (.auto_retry answers)).records[i]? = some record →
        record.max_age_deadline_at_s ≤ answers.now_s → record.terminal = true) :
    answers.Timely queue := by
  obtain ⟨ready, hready, hacts, hticks, hreload, hstay⟩ := step_auto_retry hs henabled
  rw [hready] at hfresh
  intro record hrecord hactive hdue
  by_contra hnot
  rw [not_or, not_and, not_or, not_exists, not_and] at hnot
  obtain ⟨hunload, hreloaded⟩ := hnot
  obtain ⟨i, hi⟩ := List.getElem?_of_mem hrecord
  obtain ⟨after, hafter, hticked⟩ := hticks i record hi
  have hkept : after = record := by
    apply hticked.keeps
    cases hkind : record.intent.intent_kind with
    | replace => exact Or.inl rfl
    | unload =>
      obtain ⟨hidle, hasked⟩ := hunload hkind
      refine Or.inr ⟨not_not.mp hidle, fun plan hplan => ?_⟩
      by_contra hgone
      exact hasked plan ⟨hplan, hgone⟩
  rw [hkept] at hafter
  have hstill : (queue.step (.auto_retry answers)).records[i]? = some record := by
    by_cases hreloads : answers.Reloads queue
    · rw [hreload hreloads]
      exact spares_action hacts.sound (hfresh hreloads) hafter (hreloaded hreloads)
    · rw [hstay hreloads]
      exact hafter
  have hterminal := hends i record hstill hdue
  rw [hactive] at hterminal
  cases hterminal

theorem safe_of_bounded {step : Step} (hbounded : queue.Bounded step) : queue.Safe step := by
  cases step with
  | reload answers => exact fresh_of_one_active hs hbounded.one_active
  | auto_retry answers =>
    intro henabled
    obtain ⟨ready, hready, hacts, _, hreload, _⟩ := step_auto_retry hs henabled
    have hfresh : answers.Reloads queue → (reload_action answers.reload).Fresh
        answers.reload.now_s (auto_retry_ready answers queue).1 := by
      intro hreloads
      rw [hready]
      apply fresh_of_one_active hacts.sound
      rw [← hreload hreloads]
      exact hbounded.one_active
    refine ⟨timely_of_ends hs henabled hfresh ?_, hfresh⟩
    intro i record hrecord hdue
    exact (hbounded.ends answers rfl henabled i record hrecord hdue).1

theorem bounded_iff {step : Step} (hclock : step.times.Pairwise (· ≤ ·)) :
    queue.Bounded step ↔ queue.Safe step :=
  ⟨safe_of_bounded hs, bounded_of_safe hs hclock⟩

end

theorem times_of_chronological {steps : List Step} (h : Chronological steps) {step : Step}
    (hstep : step ∈ steps) : step.times.Pairwise (· ≤ ·) := by
  unfold Chronological at h
  rw [List.pairwise_flatMap] at h
  exact h.1 step hstep

/-- **The drains of a run stay within their bounds exactly if every step is safe where it is
taken.** -/
theorem drains_bounded_iff (bounds : DrainBounds) (steps : List Step)
    (hclock : Chronological steps) :
    Throughout DrainQueue.step DrainQueue.Bounded (DrainQueue.empty bounds) steps ↔
      Throughout DrainQueue.step DrainQueue.Safe (DrainQueue.empty bounds) steps := by
  refine throughout_iff ?_ ?_ (sound_empty bounds)
  · intro queue hs step hstep
    exact bounded_iff hs (times_of_chronological hclock hstep)
  · intro queue hs step _ hsafe
    exact (sound_step hs hsafe).1

/-! An agent stays busy while it is to be removed.  Its drain times out, and the same change is
tried again. -/

def exampleBounds : DrainBounds :=
  { max_pending := 16
    timeout_s := 300
    max_age_s := 900
    max_pending_pos := by decide
    timeout_pos := by decide
    max_age_pos := by decide }

def exampleWork (busy : Bool) : AgentWork :=
  { has_outstanding_work := fun _ => busy
    runtime_busy := fun _ => false }

/-- The agent `a` is taken away, or replaced. -/
def examplePlan (op : ReloadOp) (kind : IntentKind) : ReloadPlan :=
  { operations := [{ op := op, agent := [97] }]
    drain_intents := [{ intent_id := [100], intent_kind := kind, agent := [97] }]
    old_config_signature := [111]
    new_config_signature := [110]
    blocked := false
    no_change := false }

/-- A reload that finds the agent busy. -/
def exampleReload (op : ReloadOp) (kind : IntentKind) (now_s : ℚ) : ReloadAnswers :=
  { plan := examplePlan op kind
    work := exampleWork true
    patch := none
    work_at_unload := exampleWork true
    mounts := false
    now_s := now_s }

/-- A tick; a reload that it runs finds the agent busy again. -/
def exampleTick (busy : Bool) (now_s : ℚ) : RetryAnswers :=
  { enabled := true
    work := exampleWork busy
    plan := some (examplePlan .remove_agent .unload)
    reload := exampleReload .remove_agent .unload now_s
    now_s := now_s }

def exampleTimedOut : List Step :=
  [.reload (exampleReload .remove_agent .unload 0), .auto_retry (exampleTick true 300)]

/-- The agent stays busy until the drain is too old. -/
def exampleEnded : List Step := exampleTimedOut ++ [.auto_retry (exampleTick true 900)]

theorem safe_exampleTick {queue : DrainQueue} {now_s : ℚ}
    (h : ∀ record ∈ queue.records, record.intent.intent_kind = .unload ∧
      record.status ≠ .idle_ready ∧ record.deadline_at_s ≤ now_s) :
    queue.Safe (.auto_retry (exampleTick true now_s)) := by
  intro _
  constructor
  · intro record hrecord _ _
    exact .inl ⟨(h record hrecord).1, .inl (h record hrecord).2.1⟩
  · rintro ⟨_, _, record, hrecord, _, _, _, hidle | ⟨_, hearly, _⟩⟩
    · exact absurd hidle (h record hrecord).2.1
    · exact absurd (h record hrecord).2.2 (not_le.mpr hearly)

theorem exampleEnded_safe :
    Throughout DrainQueue.step DrainQueue.Safe (DrainQueue.empty exampleBounds) exampleEnded := by
  refine ⟨?_, safe_exampleTick (by decide +kernel), safe_exampleTick (by decide +kernel), trivial⟩
  intro agent_name intent _ _ _ record hrecord
  exact absurd hrecord List.not_mem_nil

theorem drains_bounded_ended :
    Throughout DrainQueue.step DrainQueue.Bounded (DrainQueue.empty exampleBounds) exampleEnded :=
  (drains_bounded_iff exampleBounds exampleEnded (by decide)).mpr exampleEnded_safe

/-- The drain gets ready, and its agent is busy again when the reload comes. -/
def exampleReady : List Step :=
  [.reload (exampleReload .remove_agent .unload 0), .auto_retry (exampleTick false 10)]

def exampleReplacement : List Step := [.reload (exampleReload .replace_agent .replace 0)]

theorem not_bounded_of_overdue {steps : List Step} {busy : Bool} {now_s : ℚ}
    (hoverdue : ∃ record ∈ ((DrainQueue.empty exampleBounds).run
      (steps ++ [.auto_retry (exampleTick busy now_s)])).records,
        record.max_age_deadline_at_s ≤ now_s ∧ record.terminal = false) :
    ¬ Throughout DrainQueue.step DrainQueue.Bounded (DrainQueue.empty exampleBounds)
      (steps ++ [.auto_retry (exampleTick busy now_s)]) := by
  intro h
  obtain ⟨record, hrecord, hdue, hactive⟩ := hoverdue
  rw [DrainQueue.run, List.foldl_append] at hrecord
  obtain ⟨i, hi⟩ := List.getElem?_of_mem hrecord
  have hends := (h.last.ends _ rfl rfl i record hi hdue).1
  rw [hactive] at hends
  cases hends

/-- The drain of a change that is tried again stands twice on the queue; a drain that was ready
once, and a drain of a replacement, outlive their age. -/
theorem drains_unbounded :
    ¬ Throughout DrainQueue.step DrainQueue.Bounded (DrainQueue.empty exampleBounds)
        (exampleTimedOut ++ [.reload (exampleReload .remove_agent .unload 400)]) ∧
      ¬ Throughout DrainQueue.step DrainQueue.Bounded (DrainQueue.empty exampleBounds)
        (exampleReady ++ [.auto_retry (exampleTick true 900)]) ∧
      ¬ Throughout DrainQueue.step DrainQueue.Bounded (DrainQueue.empty exampleBounds)
        (exampleReplacement ++ [.auto_retry (exampleTick true 900)]) := by
  refine ⟨fun h => ?_, not_bounded_of_overdue ?_, not_bounded_of_overdue ?_⟩
  · have hone := h.last.one_active [97]
    exact absurd hone (by decide +kernel)
  · decide +kernel
  · decide +kernel

end ClaudeCodeBridge.Analysis.ReloadDrain
