import ClaudeCodeBridge.Model.PlanIndex
import ClaudeCodeBridge.Analysis.PlanBinding
import ClaudeCodeBridge.Program.Moves
import ClaudeCodeBridge.Program.Table

/-!
# Updates of a plan's index

Every command writes the whole index back, from the one that it has read: an update under
the lock of its own task, `_task_create` under none.  What is shown is that nothing is lost
in a run in which each index is written back onto the one it was read from.

The ladder: what the directories (`RootsMade`), the locks (`LocksHeld`) and the pending
writes (`WritesReady`) say of a state, and the accounts of the records (`VersionsCounted`);
the steps (`kept_turn`, by where a command is); the runs (`plan_updates_kept`).
-/

set_option autoImplicit false

namespace ClaudeCodeBridge.Analysis.PlanTask

open Program
open Model.PlanTask
open Model.PlanTask.PlanIndex

variable {library : PlanLibrary} {s s' : PlanIndex}

def updateOf (task_id : Segment) : Returned → Bool
  | .created _ => false
  | .updated record => record.task_id = task_id

/-- How many updates of the task have returned. -/
def updatesOf (task_id : Segment) (returned : List Returned) : ℕ :=
  returned.countP (updateOf task_id)

def lastOf (task_id : Segment) (returned : List Returned) : Option TaskRecord :=
  (returned.filter fun r => r.record.task_id = task_id).getLast?.map Returned.record

def LockedAt (task_id : Segment) : CommandPoint → Prop
  | .rereading id _ => id = task_id
  | .replacing id _ _ => id = task_id
  | .releasing id _ => id = task_id
  | _ => False

/-- A task's directory is there before its record, and only one command makes it. -/
structure RootsMade (s : PlanIndex) : Prop where
  roots : ∀ x ∈ s.tasks, x.task_id ∈ s.task_roots
  creating : ∀ p command index, s.process p = .creating command index →
    command.task_id ∈ s.task_roots ∧ command.task_id ∉ s.tasks.map fun x => x.task_id
  alone : ∀ p command index q command' index', s.process p = .creating command index →
    s.process q = .creating command' index' → command.task_id = command'.task_id → p = q

def LocksHeld (s : PlanIndex) : Prop :=
  ∀ p task_id, LockedAt task_id (s.process p) → s.locks task_id = some p

/-- The record to be written is a change of the one that was read. -/
def WritesReady (s : PlanIndex) : Prop :=
  ∀ p task_id index record, s.process p = .replacing task_id index record →
    ∃ x ∈ index, x.task_id = task_id ∧ record.task_id = task_id ∧
      record.state_version = x.state_version

/-- Every version counts the updates, of those that have written but not returned the last
one besides. -/
structure VersionsCounted (s : PlanIndex) : Prop where
  ids : (s.tasks.map fun x => x.task_id).Nodup
  known : ∀ r ∈ s.returned, r.record.task_id ∈ s.tasks.map fun x => x.task_id
  written : ∀ p task_id record, s.process p = .releasing task_id (some record) →
    record ∈ s.tasks ∧ record.task_id = task_id ∧
      record.state_version = 2 + updatesOf task_id s.returned
  returned : ∀ x ∈ s.tasks, (∀ p record, s.process p ≠ .releasing x.task_id (some record)) →
    x.state_version = 1 + updatesOf x.task_id s.returned ∧ lastOf x.task_id s.returned = some x

structure IndexKept (s : PlanIndex) : Prop where
  roots : RootsMade s
  locks : LocksHeld s
  ready : WritesReady s
  versions : VersionsCounted s

theorem kept_empty : IndexKept .empty := by
  refine ⟨⟨?_, ?_, ?_⟩, ?_, ?_, ⟨?_, ?_, ?_, ?_⟩⟩ <;> simp [empty, LocksHeld, WritesReady, LockedAt]

variable {p : ProcessId} {point : CommandPoint}

theorem moved_goto {s₁ : PlanIndex} (h : s₁.process = s.process) :
    Moved s.process (s₁.goto p point).process p point := by
  rw [← h]
  exact moved_update ..

theorem roots_moved (hs : RootsMade s) (hm : Moved s.process s'.process p point)
    (htasks : s'.tasks.map (fun x => x.task_id) = s.tasks.map fun x => x.task_id)
    (hroots : s'.task_roots = s.task_roots)
    (hafter : ∀ command index, point ≠ .creating command index) : RootsMade s' := by
  have hcreating : ∀ q command index, s'.process q = .creating command index →
      s.process q = .creating command index := fun q command index hq =>
    (hm.said (fun x => x = .creating command index) (hafter command index) hq).2
  refine ⟨?_, ?_, ?_⟩
  · intro x hx
    have hmem : x.task_id ∈ s.tasks.map fun x => x.task_id := by
      rw [← htasks]
      exact List.mem_map.mpr ⟨x, hx, rfl⟩
    obtain ⟨old, hold, hid⟩ := List.mem_map.mp hmem
    rw [hroots, ← hid]
    exact hs.roots old hold
  · intro q command index hq
    rw [hroots, htasks]
    exact hs.creating q command index (hcreating q command index hq)
  · intro q₁ command₁ index₁ q₂ command₂ index₂ hq₁ hq₂
    exact hs.alone _ _ _ _ _ _ (hcreating _ _ _ hq₁) (hcreating _ _ _ hq₂)

theorem locks_moved (hs : LocksHeld s) (hm : Moved s.process s'.process p point)
    (hlocks : s'.locks = s.locks)
    (hlocked : ∀ task_id, LockedAt task_id point → LockedAt task_id (s.process p)) :
    LocksHeld s' := by
  intro q task_id hq
  rw [hlocks]
  by_cases hqp : q = p
  · subst hqp
    rw [hm.self] at hq
    exact hs q task_id (hlocked task_id hq)
  · rw [hm.other q hqp] at hq
    exact hs q task_id hq

theorem ready_moved (hs : WritesReady s) (hm : Moved s.process s'.process p point)
    (hafter : ∀ task_id index record, point ≠ .replacing task_id index record) :
    WritesReady s' := by
  intro q task_id index record hq
  obtain ⟨_, hold⟩ := hm.said (fun x => x = .replacing task_id index record) (hafter _ _ _) hq
  exact hs q task_id index record hold

theorem versions_moved (hs : VersionsCounted s) (hm : Moved s.process s'.process p point)
    (htasks : s'.tasks = s.tasks) (hreturned : s'.returned = s.returned)
    (hbefore : ∀ task_id record, s.process p ≠ .releasing task_id (some record))
    (hafter : ∀ task_id record, point ≠ .releasing task_id (some record)) :
    VersionsCounted s' := by
  refine ⟨?_, ?_, ?_, ?_⟩
  · rw [htasks]
    exact hs.ids
  · rw [htasks, hreturned]
    exact hs.known
  · intro q task_id record hq
    rw [htasks, hreturned]
    obtain ⟨_, hold⟩ := hm.said (fun x => x = .releasing task_id (some record)) (hafter _ _) hq
    exact hs.written q task_id record hold
  · intro x hx hnone
    rw [htasks] at hx
    rw [hreturned]
    refine hs.returned x hx fun q record hq => hnone q record ?_
    exact (hm.stays (fun y => y = .releasing x.task_id (some record)) (hbefore _ _) hq).2

/-- A point at which a command has neither a directory nor a lock. -/
def Light : CommandPoint → Prop
  | .idle => True
  | .finding _ _ => True
  | .making _ _ => True
  | .locking _ _ => True
  | _ => False

theorem not_locked_of_light (h : Light point) (task_id : Segment) : ¬ LockedAt task_id point := by
  cases point <;> simp_all [Light, LockedAt]

theorem kept_light (hs : IndexKept s) (hbefore : Light (s.process p)) (hafter : Light point) :
    IndexKept (s.goto p point) := by
  have hm : Moved s.process (s.goto p point).process p point := moved_goto rfl
  refine ⟨roots_moved hs.roots hm rfl rfl ?_, locks_moved hs.locks hm rfl ?_,
    ready_moved hs.ready hm ?_, versions_moved hs.versions hm rfl rfl ?_ ?_⟩
  · rintro command index rfl
    exact hafter
  · intro task_id hlocked
    exact absurd hlocked (not_locked_of_light hafter task_id)
  · rintro task_id index record rfl
    exact hafter
  · intro task_id record h
    rw [h] at hbefore
    exact hbefore
  · rintro task_id record rfl
    exact hafter

theorem updatesOf_append (task_id : Segment) (returned : List Returned) (r : Returned) :
    updatesOf task_id (returned ++ [r]) =
      updatesOf task_id returned + if updateOf task_id r then 1 else 0 := by
  unfold updatesOf
  rw [List.countP_append, List.countP_singleton]

theorem lastOf_append_self (returned : List Returned) (r : Returned) :
    lastOf r.record.task_id (returned ++ [r]) = some r.record := by
  unfold lastOf
  rw [List.filter_append, List.filter_singleton]
  simp

variable {task_id : Segment}

theorem lastOf_append_other (returned : List Returned) {r : Returned}
    (h : r.record.task_id ≠ task_id) :
    lastOf task_id (returned ++ [r]) = lastOf task_id returned := by
  unfold lastOf
  rw [List.filter_append, List.filter_singleton]
  simp [h]

theorem updateOf_other {r : Returned} (h : r.record.task_id ≠ task_id) :
    updateOf task_id r = false := by
  cases r with
  | created record => rfl
  | updated record => exact decide_eq_false h

theorem updatesOf_unknown {returned : List Returned}
    (h : ∀ r ∈ returned, r.record.task_id ≠ task_id) : updatesOf task_id returned = 0 := by
  unfold updatesOf
  rw [List.countP_eq_zero]
  intro r hr hupdate
  rw [updateOf_other (h r hr)] at hupdate
  simp at hupdate

variable {index : List TaskRecord}

theorem kept_making (hs : IndexKept s) {command : CreateCommand}
    (hp : s.process p = .making command index) (hfresh : command.task_id ∉ s.task_roots) :
    IndexKept ({ s with task_roots := s.task_roots ++ [command.task_id] }.goto p
      (.creating command index)) := by
  generalize hs' : ({ s with task_roots := s.task_roots ++ [command.task_id] }.goto p
    (.creating command index)) = s'
  have hm : Moved s.process s'.process p (.creating command index) := by
    rw [← hs']
    exact moved_goto rfl
  have htasks : s'.tasks = s.tasks := by rw [← hs']; rfl
  have hroots : s'.task_roots = s.task_roots ++ [command.task_id] := by rw [← hs']; rfl
  have hunknown : command.task_id ∉ s.tasks.map fun x => x.task_id := by
    intro hmem
    obtain ⟨x, hx, hid⟩ := List.mem_map.mp hmem
    exact hfresh (hid ▸ hs.roots.roots x hx)
  -- a command that makes a directory is this one, or had made it before
  have hcreating : ∀ q command' index', s'.process q = .creating command' index' →
      (q = p ∧ command' = command) ∨ (q ≠ p ∧ s.process q = .creating command' index' ∧
        command'.task_id ≠ command.task_id) := by
    intro q command' index' hq
    by_cases hqp : q = p
    · rw [hqp, hm.self] at hq
      simp only [CommandPoint.creating.injEq] at hq
      exact .inl ⟨hqp, hq.1.symm⟩
    · rw [hm.other q hqp] at hq
      refine .inr ⟨hqp, hq, fun hsame => hfresh ?_⟩
      rw [← hsame]
      exact (hs.roots.creating q command' index' hq).1
  refine ⟨⟨?_, ?_, ?_⟩, locks_moved hs.locks hm (by rw [← hs']; rfl) ?_,
    ready_moved hs.ready hm (by simp),
    versions_moved hs.versions hm htasks (by rw [← hs']; rfl) (by simp [hp]) (by simp)⟩
  · rw [htasks, hroots]
    exact fun x hx => List.mem_append_left _ (hs.roots.roots x hx)
  · intro q command' index' hq
    rw [htasks, hroots]
    rcases hcreating q command' index' hq with ⟨_, rfl⟩ | ⟨_, hq, _⟩
    · exact ⟨List.mem_append_right _ List.mem_cons_self, hunknown⟩
    · obtain ⟨hroot, hnew⟩ := hs.roots.creating q command' index' hq
      exact ⟨List.mem_append_left _ hroot, hnew⟩
  · intro q₁ command₁ index₁ q₂ command₂ index₂ hq₁ hq₂ hsame
    rcases hcreating q₁ command₁ index₁ hq₁ with ⟨rfl, rfl⟩ | ⟨_, hq₁, hne₁⟩
    · rcases hcreating q₂ command₂ index₂ hq₂ with ⟨rfl, _⟩ | ⟨_, _, hne₂⟩
      · rfl
      · exact absurd hsame.symm hne₂
    · rcases hcreating q₂ command₂ index₂ hq₂ with ⟨rfl, rfl⟩ | ⟨_, hq₂, _⟩
      · exact absurd hsame hne₁
      · exact hs.roots.alone q₁ command₁ index₁ q₂ command₂ index₂ hq₁ hq₂ hsame
  · exact fun task_id hlocked => hlocked.elim

theorem kept_creating (hs : IndexKept s) {command : CreateCommand}
    (hp : s.process p = .creating command index) (hfresh : index = s.tasks) :
    IndexKept ({ s with
      tasks := index ++ [created_record command]
      returned := s.returned ++ [Returned.created (created_record command)] }.goto p .idle) := by
  subst hfresh
  generalize hs' : (PlanIndex.goto { s with
    tasks := s.tasks ++ [created_record command]
    returned := s.returned ++ [Returned.created (created_record command)] } p .idle) = s'
  have hm : Moved s.process s'.process p .idle := by
    rw [← hs']
    exact moved_goto rfl
  have htasks : s'.tasks = s.tasks ++ [created_record command] := by rw [← hs']; rfl
  have hroots : s'.task_roots = s.task_roots := by rw [← hs']; rfl
  have hreturned : s'.returned = s.returned ++ [Returned.created (created_record command)] := by
    rw [← hs']; rfl
  obtain ⟨hroot, hnew⟩ := hs.roots.creating p command s.tasks hp
  have hcount : ∀ task_id, updatesOf task_id s'.returned = updatesOf task_id s.returned := by
    intro task_id
    rw [hreturned, updatesOf_append]
    rfl
  have hcreating : ∀ q command' index', s'.process q = .creating command' index' →
      q ≠ p ∧ s.process q = .creating command' index' := fun q command' index' hq =>
    hm.said (fun x => x = .creating command' index') (by simp) hq
  refine ⟨⟨?_, ?_, ?_⟩, locks_moved hs.locks hm (by rw [← hs']; rfl) ?_,
    ready_moved hs.ready hm (by simp), ⟨?_, ?_, ?_, ?_⟩⟩
  · rw [htasks, hroots]
    exact Table.forall_append hs.roots.roots hroot
  · intro q command' index' hq
    obtain ⟨hqp, hq⟩ := hcreating q command' index' hq
    obtain ⟨hroot', hnew'⟩ := hs.roots.creating q command' index' hq
    rw [htasks, hroots, List.map_append]
    refine ⟨hroot', fun hmem => ?_⟩
    rcases List.mem_append.mp hmem with hmem | hmem
    · exact hnew' hmem
    · have hsame : command'.task_id = command.task_id := List.mem_singleton.mp hmem
      exact hqp (hs.roots.alone q command' index' p command s.tasks hq hp hsame)
  · intro q₁ command₁ index₁ q₂ command₂ index₂ hq₁ hq₂
    exact hs.roots.alone _ _ _ _ _ _ (hcreating _ _ _ hq₁).2 (hcreating _ _ _ hq₂).2
  · exact fun task_id hlocked => hlocked.elim
  · rw [htasks]
    exact Table.nodup_append hs.versions.ids hnew
  · rw [htasks, hreturned, List.map_append]
    refine Table.forall_append (fun r hr => List.mem_append_left _ (hs.versions.known r hr)) ?_
    exact List.mem_append_right _ List.mem_cons_self
  · intro q task_id record hq
    obtain ⟨_, hq⟩ := hm.said (fun x => x = .releasing task_id (some record)) (by simp) hq
    obtain ⟨hmem, hid, hversion⟩ := hs.versions.written q task_id record hq
    rw [htasks, hcount]
    exact ⟨List.mem_append_left _ hmem, hid, hversion⟩
  · rw [htasks]
    intro x hx hnone
    rw [hcount, hreturned]
    rcases List.mem_append.mp hx with hx | hx
    · obtain ⟨hversion, hlast⟩ := hs.versions.returned x hx fun q record hq => hnone q record
        (hm.stays (fun y => y = .releasing x.task_id (some record)) (by simp [hp]) hq).2
      refine ⟨hversion, ?_⟩
      rw [lastOf_append_other]
      · exact hlast
      · exact fun hsame => hnew (List.mem_map.mpr ⟨x, hx, hsame.symm⟩)
    · rw [List.mem_singleton.mp hx]
      refine ⟨?_, lastOf_append_self s.returned (.created (created_record command))⟩
      rw [updatesOf_unknown]
      · rfl
      · intro r hr hsame
        have hknown := hs.versions.known r hr
        rw [hsame] at hknown
        exact hnew hknown

theorem kept_locking (hs : IndexKept s) {command : UpdateCommand}
    (hp : s.process p = .locking task_id command) (hfree : s.locks task_id = none) :
    IndexKept ({ s with locks := Function.update s.locks task_id (some p) }.goto p
      (.rereading task_id command)) := by
  generalize hs' : (PlanIndex.goto { s with
    locks := Function.update s.locks task_id (some p) } p (.rereading task_id command)) = s'
  have hm : Moved s.process s'.process p (.rereading task_id command) := by
    rw [← hs']
    exact moved_goto rfl
  have hlocks : s'.locks = Function.update s.locks task_id (some p) := by rw [← hs']; rfl
  refine ⟨roots_moved hs.roots hm (by rw [← hs']; rfl) (by rw [← hs']; rfl) (by simp), ?_,
    ready_moved hs.ready hm (by simp),
    versions_moved hs.versions hm (by rw [← hs']; rfl) (by rw [← hs']; rfl) (by simp [hp])
      (by simp)⟩
  intro q id hq
  rw [hlocks]
  by_cases hqp : q = p
  · rw [hqp, hm.self] at hq
    have hid : task_id = id := hq
    rw [← hid, hqp]
    exact Function.update_self ..
  · rw [hm.other q hqp] at hq
    have hheld := hs.locks q id hq
    have hne : id ≠ task_id := by
      rintro rfl
      rw [hfree] at hheld
      simp at hheld
    rw [Function.update_of_ne hne]
    exact hheld

theorem kept_locked (hs : IndexKept s) {command : UpdateCommand}
    (hp : s.process p = .rereading task_id command)
    (hpoint : ∀ id, LockedAt id point → id = task_id)
    (hcreating : ∀ command index, point ≠ .creating command index)
    (hwritten : ∀ id record, point ≠ .releasing id (some record))
    (hready : ∀ id index record, point = .replacing id index record →
      ∃ x ∈ index, x.task_id = id ∧ record.task_id = id ∧
        record.state_version = x.state_version) : IndexKept (s.goto p point) := by
  have hm : Moved s.process (s.goto p point).process p point := moved_goto rfl
  refine ⟨roots_moved hs.roots hm rfl rfl hcreating, locks_moved hs.locks hm rfl ?_, ?_,
    versions_moved hs.versions hm rfl rfl (by simp [hp]) hwritten⟩
  · intro id hid
    rw [hp, hpoint id hid]
    exact rfl
  · intro q id index record hq
    by_cases hqp : q = p
    · rw [hqp, hm.self] at hq
      exact hready id index record hq
    · rw [hm.other q hqp] at hq
      exact hs.ready q id index record hq

theorem one_locked (hs : LocksHeld s) {q : ProcessId}
    (hp : LockedAt task_id (s.process p)) (hq : LockedAt task_id (s.process q)) : q = p := by
  have hheld := hs q task_id hq
  rw [hs p task_id hp] at hheld
  exact (Option.some.inj hheld).symm

theorem replace_ids (index : List TaskRecord) (record : TaskRecord) :
    (replace_record index record).map (fun x => x.task_id) = index.map fun x => x.task_id := by
  unfold replace_record
  rw [List.map_map]
  refine List.map_congr_left fun x _ => ?_
  rw [Function.comp_apply]
  split
  · rename_i hsame
    exact hsame.symm
  · rfl

theorem kept_replacing (hs : IndexKept s) {record : TaskRecord}
    (hp : s.process p = .replacing task_id index record) (hfresh : index = s.tasks) :
    IndexKept ({ s with tasks := replace_record index record }.goto p
      (.releasing task_id (some record.bumped))) := by
  subst hfresh
  generalize hs' : (PlanIndex.goto { s with tasks := replace_record s.tasks record } p
    (.releasing task_id (some record.bumped))) = s'
  have hm : Moved s.process s'.process p (.releasing task_id (some record.bumped)) := by
    rw [← hs']
    exact moved_goto rfl
  have htasks : s'.tasks = replace_record s.tasks record := by rw [← hs']; rfl
  have hreturned : s'.returned = s.returned := by rw [← hs']; rfl
  have hids := replace_ids s.tasks record
  have hpheld : LockedAt task_id (s.process p) := by
    rw [hp]
    exact rfl
  obtain ⟨x, hx, hxid, hid, hversion⟩ := hs.ready p task_id s.tasks record hp
  have hmem : ∀ y ∈ s.tasks, y.task_id ≠ task_id → y ∈ replace_record s.tasks record := by
    intro y hy hne
    refine List.mem_map.mpr ⟨y, hy, if_neg ?_⟩
    rw [hid]
    exact hne
  have hnew : record.bumped ∈ replace_record s.tasks record :=
    List.mem_map.mpr ⟨x, hx, if_pos (hxid.trans hid.symm)⟩
  -- no other command has written the task and not returned
  have hsole : ∀ q r, s.process q = .releasing task_id (some r) → False := by
    intro q r hq
    have hsame := one_locked hs.locks hpheld (q := q) (by rw [hq]; exact rfl)
    rw [hsame, hp] at hq
    simp at hq
  refine ⟨roots_moved hs.roots hm (by rw [htasks]; exact hids) (by rw [← hs']; rfl) (by simp),
    locks_moved hs.locks hm (by rw [← hs']; rfl) ?_, ready_moved hs.ready hm (by simp),
    ⟨?_, ?_, ?_, ?_⟩⟩
  · intro id hlocked
    rw [hp]
    exact hlocked
  · rw [htasks, hids]
    exact hs.versions.ids
  · rw [htasks, hreturned, hids]
    exact hs.versions.known
  · intro q id r hq
    rw [htasks, hreturned]
    by_cases hqp : q = p
    · rw [hqp, hm.self] at hq
      simp only [CommandPoint.releasing.injEq, Option.some.injEq] at hq
      obtain ⟨rfl, rfl⟩ := hq
      obtain ⟨hcount, _⟩ := hs.versions.returned x hx fun q r hq => hsole q r (by rw [← hxid]; exact hq)
      refine ⟨hnew, hid, ?_⟩
      show record.state_version + 1 = _
      rw [hversion, hcount, hxid]
      omega
    · rw [hm.other q hqp] at hq
      obtain ⟨hr, hrid, hcount⟩ := hs.versions.written q id r hq
      have hne : id ≠ task_id := by
        rintro rfl
        exact hsole q r hq
      exact ⟨hmem r hr (by rw [hrid]; exact hne), hrid, hcount⟩
  · rw [htasks, hreturned]
    intro y hy hnone
    obtain ⟨old, hold, hyold⟩ := List.mem_map.mp hy
    split at hyold
    · subst hyold
      exact absurd hm.self (by
        have hne := hnone p record.bumped
        have hbid : record.bumped.task_id = task_id := hid
        rw [hbid] at hne
        exact hne)
    · rename_i hne
      subst hyold
      refine hs.versions.returned old hold fun q r hq => hnone q r ?_
      exact (hm.stays (fun z => z = .releasing old.task_id (some r)) (by simp [hp]) hq).2

theorem locks_released (hs : LocksHeld s) (hm : Moved s.process s'.process p point)
    (hp : LockedAt task_id (s.process p)) (hlocks : s'.locks = Function.update s.locks task_id none)
    (hafter : ∀ id, ¬ LockedAt id point) : LocksHeld s' := by
  intro q id hq
  obtain ⟨hqp, hq⟩ := hm.said (LockedAt id) (hafter id) hq
  have hne : id ≠ task_id := by
    rintro rfl
    exact hqp (one_locked hs hp hq)
  rw [hlocks, Function.update_of_ne hne]
  exact hs q id hq

theorem kept_answered (hs : IndexKept s) (hp : s.process p = .releasing task_id none) :
    IndexKept ({ s with locks := Function.update s.locks task_id none }.goto p .idle) := by
  have hm : Moved s.process ({ s with
      locks := Function.update s.locks task_id none }.goto p .idle).process p .idle :=
    moved_goto rfl
  refine ⟨roots_moved hs.roots hm rfl rfl (by simp),
    locks_released hs.locks hm (by rw [hp]; exact rfl) rfl (fun _ h => h),
    ready_moved hs.ready hm (by simp), versions_moved hs.versions hm rfl rfl (by simp [hp]) (by simp)⟩

theorem kept_returned (hs : IndexKept s) {record : TaskRecord}
    (hp : s.process p = .releasing task_id (some record)) :
    IndexKept ({ s with
      locks := Function.update s.locks task_id none
      returned := s.returned ++ [Returned.updated record] }.goto p .idle) := by
  generalize hs' : (PlanIndex.goto { s with
    locks := Function.update s.locks task_id none
    returned := s.returned ++ [Returned.updated record] } p .idle) = s'
  have hm : Moved s.process s'.process p .idle := by
    rw [← hs']
    exact moved_goto rfl
  have htasks : s'.tasks = s.tasks := by rw [← hs']; rfl
  have hreturned : s'.returned = s.returned ++ [Returned.updated record] := by rw [← hs']; rfl
  have hpheld : LockedAt task_id (s.process p) := by
    rw [hp]
    exact rfl
  obtain ⟨hmem, hid, hversion⟩ := hs.versions.written p task_id record hp
  refine ⟨roots_moved hs.roots hm (by rw [htasks]) (by rw [← hs']; rfl) (by simp),
    locks_released hs.locks hm hpheld (by rw [← hs']; rfl) (fun _ h => h),
    ready_moved hs.ready hm (by simp), ⟨?_, ?_, ?_, ?_⟩⟩
  · rw [htasks]
    exact hs.versions.ids
  · rw [htasks, hreturned]
    exact Table.forall_append hs.versions.known (List.mem_map.mpr ⟨record, hmem, rfl⟩)
  · intro q id r hq
    obtain ⟨hqp, hq⟩ := hm.said (fun x => x = .releasing id (some r)) (by simp) hq
    have hne : record.task_id ≠ id := by
      rw [hid]
      rintro rfl
      exact hqp (one_locked hs.locks hpheld (by rw [hq]; exact rfl))
    obtain ⟨hr, hrid, hcount⟩ := hs.versions.written q id r hq
    rw [htasks, hreturned, updatesOf_append, updateOf_other (r := .updated record) hne]
    exact ⟨hr, hrid, hcount⟩
  · rw [htasks, hreturned]
    intro x hx hnone
    by_cases hxid : record.task_id = x.task_id
    · have hsame : record = x := Table.eq_of_key hs.versions.ids hmem hx hxid
      subst hsame
      refine ⟨?_, lastOf_append_self s.returned (.updated record)⟩
      have hupdate : updateOf record.task_id (.updated record) = true := decide_eq_true rfl
      rw [updatesOf_append, hupdate, hversion, hid, if_pos rfl]
      omega
    · rw [updatesOf_append, updateOf_other (r := .updated record) hxid,
        lastOf_append_other s.returned (r := .updated record) hxid]
      refine hs.versions.returned x hx fun q r hq => hnone q r ?_
      refine (hm.stays (fun y => y = .releasing x.task_id (some r)) ?_ hq).2
      rw [hp]
      simp only [CommandPoint.releasing.injEq, not_and]
      intro hsame
      exact absurd (hid.trans hsame) hxid

/-- A command writes the index back onto the one that it was read from. -/
def Fresh (s : PlanIndex) (p : ProcessId) : Prop :=
  match s.process p with
  | .creating _ index => index = s.tasks
  | .replacing _ index _ => index = s.tasks
  | _ => True

theorem require_ok {record : TaskRecord}
    (h : require_task index task_id = .ok record) : record ∈ index ∧ record.task_id = task_id := by
  simp only [require_task, bind_ok, valueOr_ok, find_task] at h
  obtain ⟨found, hfound, rfl⟩ := h
  have hmem : record ∈ index.filter fun record => record.task_id = task_id := by
    split at hfound
    · simp at hfound
    · rename_i only hfilter
      rw [hfilter, ← Option.some.inj (Except.ok.inj hfound)]
      exact List.mem_cons_self
    · simp at hfound
  simpa using List.mem_filter.mp hmem

theorem kept_turn (hs : IndexKept s) (hfresh : Fresh s p) : IndexKept (s.turn library p) := by
  unfold PlanIndex.turn
  unfold Fresh at hfresh
  cases hp : s.process p with
  | idle => exact hs
  | finding command index =>
    have hlight : Light (s.process p) := by
      rw [hp]
      trivial
    dsimp only
    split
    · exact kept_light hs hlight trivial
    · exact kept_light hs hlight trivial
  | making command index =>
    have hlight : Light (s.process p) := by
      rw [hp]
      trivial
    dsimp only
    split
    · exact kept_light hs hlight trivial
    · rename_i hnew
      exact kept_making hs hp hnew
  | creating command index =>
    rw [hp] at hfresh
    exact kept_creating hs hp hfresh
  | locking task_id command =>
    dsimp only
    cases hfree : s.locks task_id with
    | some q => exact hs
    | none => exact kept_locking hs hp hfree
  | rereading task_id command =>
    have hanswer : IndexKept (s.goto p (.releasing task_id none)) :=
      kept_locked hs hp (fun id hid => (hid : task_id = id).symm) (by simp) (by simp) (by simp)
    dsimp only
    cases hrequire : require_task s.tasks task_id with
    | error e => exact hanswer
    | ok found =>
      obtain ⟨hmem, hid⟩ := require_ok hrequire
      dsimp only
      split
      · rename_i record happly
        refine kept_locked hs hp (fun id hid => (hid : task_id = id).symm) (by simp) (by simp) ?_
        intro id index written h
        simp only [CommandPoint.replacing.injEq] at h
        obtain ⟨rfl, rfl, rfl⟩ := h
        have hsame := change_same (task_change happly)
        exact ⟨found, hmem, hid, hsame.task_id.trans hid, hsame.state_version⟩
      · exact hanswer
  | replacing task_id index record =>
    rw [hp] at hfresh
    exact kept_replacing hs hp hfresh
  | releasing task_id written =>
    cases written with
    | none => exact kept_answered hs hp
    | some record => exact kept_returned hs hp

theorem kept_step (hs : IndexKept s) (c : PlanStep)
    (hfresh : ∀ p, c = .turn p → Fresh s p) : IndexKept (s.step library c) := by
  cases c with
  | create p command =>
    unfold PlanIndex.step
    dsimp only
    split
    · rename_i hp
      exact kept_light hs (by rw [hp]; exact trivial) trivial
    · exact hs
  | update p task_id command =>
    unfold PlanIndex.step
    dsimp only
    split
    · rename_i hp
      unfold start_update
      split
      · exact hs
      · exact kept_light hs (by rw [hp]; exact trivial) trivial
    · exact hs
  | turn p => exact kept_turn hs (hfresh p rfl)

/-- Every index of the run is written back onto the one that it was read from. -/
def FreshRun (library : PlanLibrary) : List PlanStep → PlanIndex → Prop
  | [], _ => True
  | c :: steps, s => (∀ p, c = .turn p → Fresh s p) ∧ FreshRun library steps (s.step library c)

theorem kept_run (steps : List PlanStep) (hs : IndexKept s) (hfresh : FreshRun library steps s) :
    IndexKept (s.run library steps) := by
  unfold PlanIndex.run
  induction steps generalizing s with
  | nil => exact hs
  | cons c steps ih => exact ih (kept_step hs c hfresh.1) hfresh.2

/-- **No plan-task update is lost** in a run whose commands write each index back onto the
one that they have read: when no command is under way, every task that was created is
there, once, at the version that counts the updates that have returned, and as the last of
them has returned it. -/
theorem plan_updates_kept (library : PlanLibrary) (steps : List PlanStep)
    (hfresh : FreshRun library steps .empty)
    (hidle : ∀ p, (PlanIndex.empty.run library steps).process p = .idle) :
    let s := PlanIndex.empty.run library steps
    (∀ r ∈ s.returned, ∃ x ∈ s.tasks, x.task_id = r.record.task_id) ∧
    (s.tasks.map fun x => x.task_id).Nodup ∧
    ∀ x ∈ s.tasks, x.state_version = 1 + updatesOf x.task_id s.returned ∧
      lastOf x.task_id s.returned = some x := by
  have hkept := kept_run steps kept_empty hfresh
  refine ⟨fun r hr => ?_, hkept.versions.ids, fun x hx => ?_⟩
  · obtain ⟨x, hx, hid⟩ := List.mem_map.mp (hkept.versions.known r hr)
    exact ⟨x, hx, hid⟩
  · refine hkept.versions.returned x hx fun p record hp => ?_
    rw [hidle p] at hp
    simp at hp

def processOf : PlanStep → ProcessId
  | .create p _ => p
  | .update p _ _ => p
  | .turn p => p

theorem step_other (c : PlanStep) (h : processOf c ≠ p) :
    (s.step library c).process p = s.process p := by
  have hgoto : ∀ (s₁ : PlanIndex) point, s₁.process = s.process →
      (s₁.goto (processOf c) point).process p = s.process p := by
    intro s₁ point hs₁
    rw [← hs₁]
    exact Function.update_of_ne h.symm ..
  cases c with
  | create q command =>
    unfold PlanIndex.step
    dsimp only
    split
    · exact hgoto s _ rfl
    · rfl
  | update q task_id command =>
    unfold PlanIndex.step
    dsimp only
    split
    · unfold start_update
      split
      · rfl
      · exact hgoto s _ rfl
    · rfl
  | turn q =>
    unfold PlanIndex.step PlanIndex.turn
    dsimp only
    split
    · rfl
    · split
      · exact hgoto s _ rfl
      · exact hgoto s _ rfl
    · split
      · exact hgoto s _ rfl
      · exact hgoto _ _ rfl
    · exact hgoto _ _ rfl
    · split
      · rfl
      · exact hgoto _ _ rfl
    · split
      · exact hgoto s _ rfl
      · split
        · exact hgoto s _ rfl
        · exact hgoto s _ rfl
    · exact hgoto _ _ rfl
    · split
      · exact hgoto _ _ rfl
      · exact hgoto _ _ rfl

theorem run_other (steps : List PlanStep) (h : ∀ c ∈ steps, processOf c ≠ p) :
    (s.run library steps).process p = s.process p := by
  unfold PlanIndex.run
  induction steps generalizing s with
  | nil => rfl
  | cons c steps ih =>
    have hrest := ih (s := s.step library c) fun c' hc' => h c' (List.mem_cons_of_mem _ hc')
    have hfirst : (s.step library c).process p = s.process p := step_other c (h c List.mem_cons_self)
    exact hrest.trans hfirst

def otherTask : CreateCommand :=
  { task_id := ⟨asciiText "u", by decide⟩, title := asciiText "title", now := 1 }

/-- The other task is created while the update has its lock and has not read the index. -/
def besideUpdate : List PlanStep :=
  [.create 0 exampleTask, .turn 0, .turn 0, .turn 0,
    .update 0 exampleTask.task_id (statusTo .draft), .turn 0,
    .create 1 otherTask, .turn 1, .turn 1, .turn 1, .turn 0, .turn 0, .turn 0]

/-- The other process reads the index before the update and writes it back after it. -/
def overtaken : List PlanStep :=
  [.create 0 exampleTask, .turn 0, .turn 0, .turn 0,
    .create 1 otherTask,
    .update 0 exampleTask.task_id (statusTo .draft), .turn 0, .turn 0, .turn 0, .turn 0,
    .turn 1, .turn 1, .turn 1]

theorem idle_of_two {steps : List PlanStep}
    (hsteps : ∀ c ∈ steps, processOf c = 0 ∨ processOf c = 1)
    (h0 : (PlanIndex.empty.run library steps).process 0 = .idle)
    (h1 : (PlanIndex.empty.run library steps).process 1 = .idle) (p : ProcessId) :
    (PlanIndex.empty.run library steps).process p = .idle := by
  by_cases hp : p = 0
  · rw [hp]
    exact h0
  · by_cases hp' : p = 1
    · rw [hp']
      exact h1
    · refine run_other steps fun c hc => ?_
      rcases hsteps c hc with h | h
      · rw [h]
        exact Ne.symm hp
      · rw [h]
        exact Ne.symm hp'

/-- Nothing is under way, and the update that has returned is not in the index. -/
theorem update_lost :
    let s := PlanIndex.empty.run plainLibrary overtaken
    (∀ p, s.process p = .idle) ∧ updatesOf exampleTask.task_id s.returned = 1 ∧
    ∃ x ∈ s.tasks, x.task_id = exampleTask.task_id ∧ x.state_version = 1 := by
  refine ⟨idle_of_two (by decide) rfl rfl, by decide, ?_⟩
  have htasks : (PlanIndex.empty.run plainLibrary overtaken).tasks.map
      (fun x => (x.task_id, x.state_version)) =
        [(exampleTask.task_id, 1), (otherTask.task_id, 1)] := by
    decide
  have hmem : (exampleTask.task_id, 1) ∈ (PlanIndex.empty.run plainLibrary overtaken).tasks.map
      fun x => (x.task_id, x.state_version) := by
    rw [htasks]
    exact List.mem_cons_self
  obtain ⟨x, hx, h⟩ := List.mem_map.mp hmem
  exact ⟨x, hx, congrArg Prod.fst h, congrArg Prod.snd h⟩

theorem fresh_besideUpdate : FreshRun plainLibrary besideUpdate .empty := by
  refine ⟨?_, ?_, ?_, ?_, ?_, ?_, ?_, ?_, ?_, ?_, ?_, ?_, ?_, trivial⟩
  all_goals
    intro p hp
    cases hp <;> first | exact trivial | exact rfl

/-- The index is fresh where a task is created beside the update of another. -/
theorem plan_updates_kept_besideUpdate :
    let s := PlanIndex.empty.run plainLibrary besideUpdate
    (∀ r ∈ s.returned, ∃ x ∈ s.tasks, x.task_id = r.record.task_id) ∧
    (s.tasks.map fun x => x.task_id).Nodup ∧
    ∀ x ∈ s.tasks, x.state_version = 1 + updatesOf x.task_id s.returned ∧
      lastOf x.task_id s.returned = some x :=
  plan_updates_kept plainLibrary besideUpdate fresh_besideUpdate (idle_of_two (by decide) rfl rfl)

end ClaudeCodeBridge.Analysis.PlanTask
