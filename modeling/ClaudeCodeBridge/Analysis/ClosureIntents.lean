import ClaudeCodeBridge.Model.TaskSets

/-!
# The intent of a pending closure

Record, closure and intents of a task set are written one after another, and a call may stop
between two of them.  What they say of each other at every stop is `FilesAgree`; each write
of a call keeps it (`FilesAgree.closed` and its neighbours), each call therefore leaves it
(`consistent_create` to `consistent_revise`) and so does a run (`consistent_run`).

An intent is found again by the digest of its evidence, while a closure that is written in
place of a failed one has a digest of its own.  `usable_after_evaluation` therefore asks that
no evaluation is made where that would happen (`Reopens`); `reopened_closure_unusable` is a
run in which it does.
-/

set_option autoImplicit false

namespace ClaudeCodeBridge.Analysis.TaskSet

open Program Program.Prog
open Model.PlanTask
open Model.TaskSet

variable (library : TaskSetLibrary) (plans : PlanLibrary)

def closure_intents (w : TaskSetFiles) : List ClosureIntent := w.intents.getD []

/-- What holds of record, closure and intents after every write. -/
structure FilesAgree (record : TaskSetRecord) (closure : Option Closure)
    (intents : List ClosureIntent) : Prop where
  positive : 0 < record.task_set_revision
  closure_revision : ∀ c, closure = some c → c.content.task_set_revision = record.task_set_revision
  closure_standing : closure.isSome → record.state.is_revising = false
  intent_revision : ∀ intent ∈ intents, intent.task_set_revision ≤ record.task_set_revision
  pending_revision : ∀ intent ∈ intents, intent.status = .pending_planner_backfill →
    intent.task_set_revision = record.task_set_revision
  unique : (intents.map ClosureIntent.task_set_revision).Nodup
  current_open : record.state.is_revising = false → ∀ intent ∈ intents,
    intent.task_set_revision = record.task_set_revision → intent.status = .pending_planner_backfill
  digests : ∀ c, closure = some c → c.content.status = .closure_pending → ∀ intent ∈ intents,
    intent.task_set_revision = record.task_set_revision →
      intent.ordered_terminal_evidence_digest = c.content.ordered_terminal_evidence_digest →
        intent.closure_digest = c.closure_digest

structure Consistent (w : TaskSetFiles) : Prop where
  untouched : w.task_set = none → w.closure = none ∧ closure_intents w = []
  agree : ∀ record, w.task_set = some record → FilesAgree record w.closure (closure_intents w)

structure InFiles (record : TaskSetRecord) (closure : Option Closure)
    (intents : List ClosureIntent) (w : TaskSetFiles) : Prop where
  has_task_set : w.task_set = some record
  has_closure : w.closure = closure
  has_intents : closure_intents w = intents
  agree : FilesAgree record closure intents

theorem InFiles.consistent {record : TaskSetRecord} {closure : Option Closure}
    {intents : List ClosureIntent} {w : TaskSetFiles} (h : InFiles record closure intents w) :
    Consistent w := by
  constructor
  · intro hnone
    rw [h.has_task_set] at hnone
    cases hnone
  · intro other hother
    rw [h.has_task_set, Option.some.injEq] at hother
    rw [h.has_closure, h.has_intents]
    exact hother ▸ h.agree

theorem Consistent.in_files {record : TaskSetRecord} {w : TaskSetFiles} (h : Consistent w)
    (hrecord : w.task_set = some record) : InFiles record w.closure (closure_intents w) w :=
  ⟨hrecord, rfl, rfl, h.agree record hrecord⟩

namespace FilesAgree

variable {record next : TaskSetRecord} {closure : Option Closure} {intents : List ClosureIntent}

theorem restated (h : FilesAgree record closure intents)
    (hrevision : next.task_set_revision = record.task_set_revision)
    (hstate : next.state.is_revising = record.state.is_revising) :
    FilesAgree next closure intents := by
  constructor
  · rw [hrevision]
    exact h.positive
  · intro c hc
    rw [hrevision]
    exact h.closure_revision c hc
  · intro hsome
    rw [hstate]
    exact h.closure_standing hsome
  · rw [hrevision]
    exact h.intent_revision
  · rw [hrevision]
    exact h.pending_revision
  · exact h.unique
  · rw [hrevision, hstate]
    exact h.current_open
  · rw [hrevision]
    exact h.digests

theorem archived (h : FilesAgree record closure intents) : FilesAgree record none intents := by
  constructor
  · exact h.positive
  · intro c hc
    cases hc
  · intro hsome
    cases hsome
  · exact h.intent_revision
  · exact h.pending_revision
  · exact h.unique
  · exact h.current_open
  · intro c hc
    cases hc

theorem revising (h : FilesAgree record none intents)
    (hrevision : next.task_set_revision = record.task_set_revision)
    (hstate : next.state.is_revising = true) : FilesAgree next none intents := by
  constructor
  · rw [hrevision]
    exact h.positive
  · intro c hc
    cases hc
  · intro hsome
    cases hsome
  · rw [hrevision]
    exact h.intent_revision
  · rw [hrevision]
    exact h.pending_revision
  · exact h.unique
  · intro hfalse
    rw [hstate] at hfalse
    cases hfalse
  · intro c hc
    cases hc

theorem staled (h : FilesAgree record none intents) (hstate : record.state.is_revising = true)
    (now : ℕ) :
    FilesAgree record none (intents.map (ClosureIntent.staled record.task_set_revision now)) ∧
      ∀ intent ∈ intents.map (ClosureIntent.staled record.task_set_revision now),
        intent.status ≠ .pending_planner_backfill := by
  have hkept : ∀ intent : ClosureIntent,
      (intent.staled record.task_set_revision now).task_set_revision
        = intent.task_set_revision := by
    intro intent
    unfold ClosureIntent.staled
    split <;> rfl
  have hclosed : ∀ intent ∈ intents,
      (intent.staled record.task_set_revision now).status ≠ .pending_planner_backfill := by
    intro intent hintent
    unfold ClosureIntent.staled
    split
    · simp
    · rename_i hopen
      intro hpending
      exact hopen ⟨h.pending_revision intent hintent hpending, hpending⟩
  have hnone : ∀ intent ∈ intents.map (ClosureIntent.staled record.task_set_revision now),
      intent.status ≠ .pending_planner_backfill := by
    intro intent hintent
    obtain ⟨before, hbefore, rfl⟩ := List.mem_map.mp hintent
    exact hclosed before hbefore
  refine ⟨?_, hnone⟩
  constructor
  · exact h.positive
  · intro c hc
    cases hc
  · intro hsome
    cases hsome
  · intro intent hintent
    obtain ⟨before, hbefore, rfl⟩ := List.mem_map.mp hintent
    rw [hkept]
    exact h.intent_revision before hbefore
  · intro intent hintent hpending
    exact absurd hpending (hnone intent hintent)
  · rw [List.map_map]
    have hsame : ClosureIntent.task_set_revision ∘ ClosureIntent.staled record.task_set_revision now
        = ClosureIntent.task_set_revision := funext hkept
    rw [hsame]
    exact h.unique
  · intro hfalse
    rw [hstate] at hfalse
    cases hfalse
  · intro c hc
    cases hc

theorem revised (h : FilesAgree record none intents)
    (hnone : ∀ intent ∈ intents, intent.status ≠ .pending_planner_backfill)
    (hrevision : next.task_set_revision = record.task_set_revision + 1) :
    FilesAgree next none intents := by
  have hlt : ∀ intent ∈ intents, intent.task_set_revision < next.task_set_revision := by
    intro intent hintent
    have hle := h.intent_revision intent hintent
    omega
  constructor
  · omega
  · intro c hc
    cases hc
  · intro hsome
    cases hsome
  · intro intent hintent
    have hless := hlt intent hintent
    omega
  · intro intent hintent hpending
    exact absurd hpending (hnone intent hintent)
  · exact h.unique
  · intro _ intent hintent hsame
    have hless := hlt intent hintent
    omega
  · intro c hc
    cases hc

theorem closed (h : FilesAgree record closure intents) (hstate : record.state.is_revising = false)
    {written : Closure} (hrevision : written.content.task_set_revision = record.task_set_revision)
    (hfresh : written.content.status = .closure_pending → ∀ intent ∈ intents,
      intent.task_set_revision = record.task_set_revision →
        intent.ordered_terminal_evidence_digest
          ≠ written.content.ordered_terminal_evidence_digest) :
    FilesAgree record (some written) intents := by
  constructor
  · exact h.positive
  · intro c hc
    rw [Option.some.injEq] at hc
    exact hc ▸ hrevision
  · exact fun _ => hstate
  · exact h.intent_revision
  · exact h.pending_revision
  · exact h.unique
  · exact h.current_open
  · intro c hc hpending intent hintent hsame hdigest
    cases hc
    exact absurd hdigest (hfresh hpending intent hintent hsame)

theorem appended {c : Closure} (h : FilesAgree record (some c) intents)
    (hnone : ∀ intent ∈ intents, intent.task_set_revision ≠ record.task_set_revision) {now : ℕ} :
    FilesAgree record (some c) (intents ++ [closure_intent library record c now]) := by
  constructor
  · exact h.positive
  · exact h.closure_revision
  · exact h.closure_standing
  · intro intent hintent
    rw [List.mem_append, List.mem_singleton] at hintent
    rcases hintent with hintent | rfl
    · exact h.intent_revision intent hintent
    · exact le_refl record.task_set_revision
  · intro intent hintent hpending
    rw [List.mem_append, List.mem_singleton] at hintent
    rcases hintent with hintent | rfl
    · exact h.pending_revision intent hintent hpending
    · rfl
  · rw [List.map_append, List.map_singleton]
    apply List.Nodup.append h.unique (List.nodup_singleton _)
    rw [List.disjoint_singleton]
    intro hmem
    obtain ⟨intent, hintent, hsame⟩ := List.mem_map.mp hmem
    exact hnone intent hintent hsame
  · intro hstate intent hintent hsame
    rw [List.mem_append, List.mem_singleton] at hintent
    rcases hintent with hintent | rfl
    · exact h.current_open hstate intent hintent hsame
    · rfl
  · intro other hother hpending intent hintent hsame hdigest
    rw [List.mem_append, List.mem_singleton] at hintent
    rcases hintent with hintent | rfl
    · exact h.digests other hother hpending intent hintent hsame hdigest
    · rw [Option.some.injEq] at hother
      exact hother ▸ rfl

end FilesAgree

/-- Every stop of a call leaves files that agree, and its end those of `Q`. -/
abbrev Keeps {α : Type} (call : SetCall α) (Q : α → TaskSetFiles → Prop) (w : TaskSetFiles) :
    Prop :=
  Along (fun _ _ => True) Consistent call Q w

section Steps

variable {record next : TaskSetRecord} {closure : Option Closure} {intents : List ClosureIntent}
  {w : TaskSetFiles}

section

variable (h : InFiles record closure intents w)

include h

theorem keeps_now : Keeps now (fun _ => InFiles record closure intents) w := by
  have hnext : InFiles record closure intents { w with clock := w.clock + 1 } :=
    ⟨h.has_task_set, h.has_closure, h.has_intents, h.agree⟩
  exact fun _ => ⟨hnext.consistent, hnext⟩

theorem keeps_write_task_set (hnext : FilesAgree next closure intents) :
    Keeps (write_task_set next) (fun _ => InFiles next closure intents) w := by
  have hwritten : InFiles next closure intents { w with task_set := some next } :=
    ⟨rfl, h.has_closure, h.has_intents, hnext⟩
  exact fun _ => ⟨hwritten.consistent, hwritten⟩

theorem keeps_write_closure {written : Closure} (hnext : FilesAgree record (some written) intents) :
    Keeps (write_closure written) (fun _ => InFiles record (some written) intents) w := by
  have hwritten : InFiles record (some written) intents { w with closure := some written } :=
    ⟨h.has_task_set, rfl, h.has_intents, hnext⟩
  exact fun _ => ⟨hwritten.consistent, hwritten⟩

theorem keeps_write_intents {written : List ClosureIntent}
    (hnext : FilesAgree record closure written) :
    Keeps (write_intents written) (fun _ => InFiles record closure written) w := by
  have hwritten : InFiles record closure written { w with intents := some written } :=
    ⟨h.has_task_set, h.has_closure, rfl, hnext⟩
  exact fun _ => ⟨hwritten.consistent, hwritten⟩

theorem keeps_plan_task_fn {task_id : Segment}
    {command : MemberRecord → Except ValueError MemberOutcome} :
    Keeps (plan_task_fn task_id command) (fun _ => InFiles record closure intents) w := by
  apply along_attempt h.consistent
  intro w' hw'
  cases htasks : plan_task task_id command w.tasks with
  | error e =>
    rw [htasks] at hw'
    cases hw'
  | ok tasks =>
    rw [htasks] at hw'
    have hsame : w' = { w with tasks := tasks } := (Except.ok.inj hw').symm
    have hnext : InFiles record closure intents w' := by
      rw [hsame]
      exact ⟨h.has_task_set, h.has_closure, h.has_intents, h.agree⟩
    exact ⟨hnext.consistent, hnext⟩

theorem keeps_plan_task_at {task_id : Segment}
    {command : ℕ → MemberRecord → Except ValueError MemberOutcome} :
    Keeps (do plan_task_fn task_id (command (← now))) (fun _ => InFiles record closure intents)
      w := by
  apply Along.bind
  exact (keeps_now h).mono fun _ _ h => keeps_plan_task_fn h

theorem keeps_bind_children {task_set_id : Segment} {revision : ℕ} {children : List TaskSetChild} :
    Keeps (bind_children task_set_id revision children)
      (fun _ => InFiles record closure intents) w :=
  Along.forEach h fun _ _ _ h => keeps_plan_task_at h

end

theorem keeps_find_task_set {Q : TaskSetRecord → TaskSetFiles → Prop} (h : Consistent w)
    (hQ : ∀ record, w.task_set = some record → Q record w) : Keeps find_task_set Q w := by
  apply along_inspect h
  intro found hfound
  simp only [bind_ok, valueOr_ok, pure_ok] at hfound
  obtain ⟨record, hrecord, _, -, rfl⟩ := hfound
  exact hQ record hrecord

end Steps

theorem keeps_open_task_set {command : CreateTaskSet} {plan_revision : Digest}
    {children : Children} {w : TaskSetFiles} (h : Consistent w) :
    Keeps (open_task_set command plan_revision children)
      (fun record w' => InFiles record w'.closure (closure_intents w') w') w := by
  apply Along.bind
  apply along_read h
  cases hrecord : w.task_set with
  | some existing =>
    apply Along.bind
    refine along_ofExcept fun _ _ => ?_
    apply Along.bind
    refine along_ofExcept fun _ _ => ?_
    exact h.in_files hrecord
  | none =>
    obtain ⟨hclosure, hintents⟩ := h.untouched hrecord
    apply Along.bind
    refine fun _ => ⟨⟨h.untouched, h.agree⟩, ?_⟩
    have hnew : ∀ record : TaskSetRecord, 0 < record.task_set_revision →
        InFiles record none [] { w with clock := w.clock + 1, task_set := some record } := by
      intro record hpositive
      refine ⟨rfl, hclosure, hintents, ?_⟩
      exact ⟨hpositive, by simp, by simp, by simp, by simp, by simp, by simp, by simp⟩
    have hcreated := hnew (created_task_set command plan_revision children w.clock) Nat.one_pos
    exact fun _ => ⟨hcreated.consistent, hcreated.consistent.in_files rfl⟩

theorem consistent_create {command : CreateTaskSet} {w : TaskSetFiles} (h : Consistent w) :
    Keeps (create_task_set_authority command) (fun _ => Consistent) w := by
  apply Along.bind
  refine along_inspect h fun children _ => ?_
  apply Along.bind
  refine along_inspect h fun source_task _ => ?_
  apply Along.bind
  refine along_ofExcept fun _ _ => ?_
  apply Along.bind
  refine along_inspect h fun plan_revision _ => ?_
  apply Along.within h
  apply Along.bind
  refine (keeps_open_task_set h).mono fun record w hin => ?_
  apply Along.bind
  refine (keeps_plan_task_at hin).mono fun _ _ hin => ?_
  apply Along.bind
  refine (keeps_bind_children hin).mono fun _ _ hin => ?_
  apply Along.bind
  refine (keeps_now hin).mono fun _ _ hin => ?_
  apply Along.bind
  have hstate : (target_state record.state).is_revising = record.state.is_revising := by
    cases record.state <;> rfl
  refine Along.mono (keeps_write_task_set hin ?_) fun _ _ hin => hin.consistent
  exact hin.agree.restated rfl hstate

theorem keeps_archive_closure {current_revision : ℕ} {record : TaskSetRecord}
    {closure : Option Closure} {intents : List ClosureIntent} {w : TaskSetFiles}
    (h : InFiles record closure intents w) :
    Keeps (archive_closure current_revision) (fun _ => InFiles record none intents) w := by
  apply Along.bind
  apply along_read h.consistent
  cases hclosure : w.closure with
  | none =>
    have hnone : closure = none := h.has_closure.symm.trans hclosure
    have hin : InFiles record none intents w := hnone ▸ h
    exact hin
  | some present =>
    apply Along.bind
    apply along_read h.consistent
    cases harchived : w.archives current_revision with
    | some archived =>
      apply Along.bind
      refine along_ofExcept fun _ _ => ?_
      have hnext : InFiles record none intents { w with closure := none } :=
        ⟨h.has_task_set, rfl, h.has_intents, h.agree.archived⟩
      exact fun _ => ⟨hnext.consistent, hnext⟩
    | none =>
      have hnext : InFiles record none intents { w with
          closure := none
          archives := Function.update w.archives current_revision w.closure } :=
        ⟨h.has_task_set, rfl, h.has_intents, h.agree.archived⟩
      exact fun _ => ⟨hnext.consistent, hnext⟩

theorem keeps_stale_open_intents {record : TaskSetRecord} {intents : List ClosureIntent}
    {w : TaskSetFiles} {current_revision : ℕ} (h : InFiles record none intents w)
    (hrevision : record.task_set_revision = current_revision)
    (hstate : record.state.is_revising = true) :
    Keeps (stale_open_intents current_revision) (fun _ w' =>
      ∃ staled, InFiles record none staled w' ∧
        ∀ intent ∈ staled, intent.status ≠ .pending_planner_backfill) w := by
  subst hrevision
  apply Along.bind
  apply along_read h.consistent
  cases hintents : w.intents with
  | none =>
    refine ⟨intents, h, ?_⟩
    have hnil : intents = [] := by
      rw [← h.has_intents]
      unfold closure_intents
      rw [hintents]
      rfl
    simp [hnil]
  | some present =>
    have hpresent : present = intents := by
      rw [← h.has_intents]
      unfold closure_intents
      rw [hintents]
      rfl
    rw [hpresent]
    apply Along.bind
    refine (keeps_now h).mono fun time w h => ?_
    have hstaled := h.agree.staled hstate time
    dsimp only
    split
    · refine Along.mono (keeps_write_intents h hstaled.1) fun _ _ h => ?_
      exact ⟨_, h, hstaled.2⟩
    · rename_i hsame
      rw [ne_eq, not_not] at hsame
      rw [hsame] at hstaled
      exact ⟨intents, h, hstaled.2⟩

theorem keeps_rebind_tasks {record of : TaskSetRecord} {closure : Option Closure}
    {intents : List ClosureIntent} {w : TaskSetFiles} {new_revision : ℕ} {new_children : Children}
    (h : InFiles record closure intents w) :
    Keeps (rebind_tasks of new_revision new_children) (fun _ => InFiles record closure intents)
      w := by
  apply Along.bind
  refine (Along.forEach h fun _ _ _ h => keeps_plan_task_at h).mono fun _ _ h => ?_
  apply Along.bind
  refine along_inspect h.consistent fun source_task _ => ?_
  apply Along.bind
  refine (keeps_plan_task_at h).mono fun _ _ h => ?_
  exact keeps_bind_children h

theorem consistent_revise {expected_revision : ℕ} {requests : List ChildRequest}
    {w : TaskSetFiles} (h : Consistent w) :
    Keeps (revise_task_set_authority expected_revision requests) (fun _ => Consistent) w := by
  apply Along.bind
  refine keeps_find_task_set h fun _ _ => ?_
  apply Along.within h
  apply Along.bind
  refine keeps_find_task_set h fun record hrecord => ?_
  have hin := h.in_files hrecord
  apply Along.bind
  refine along_ofExcept fun _ _ => ?_
  apply Along.bind
  refine along_inspect h fun new_children _ => ?_
  apply Along.bind
  refine (keeps_archive_closure hin).mono fun _ _ hin => ?_
  apply Along.bind
  refine (keeps_now hin).mono fun _ _ hin => ?_
  apply Along.bind
  refine Along.mono (keeps_write_task_set hin (hin.agree.revising ?_ ?_)) fun _ _ hin => ?_
  · rfl
  · rfl
  apply Along.bind
  refine Along.mono (keeps_stale_open_intents hin rfl rfl) fun _ _ hstaled => ?_
  obtain ⟨staled, hin, hnone⟩ := hstaled
  apply Along.bind
  refine (keeps_rebind_tasks hin).mono fun _ _ hin => ?_
  apply Along.bind
  refine (keeps_now hin).mono fun _ _ hin => ?_
  apply Along.bind
  refine Along.mono (keeps_write_task_set hin (hin.agree.revised hnone ?_)) fun _ _ hin => ?_
  · rfl
  · exact hin.consistent

/-- Every required child shows terminal evidence, of which a new closure is to be written,
while the store holds an intent of the revision for this evidence. -/
def Reopens (w : TaskSetFiles) : Prop :=
  ∃ record evidence, w.task_set = some record ∧ record.state.is_revising = false ∧
    required_evidence library w.tasks w.terminal record.plan_slug record.children.val
      = .ok evidence ∧
    evidence.any ChildEvidence.is_pending = false ∧
    evidence.any ChildEvidence.is_system_failure = false ∧
    (∀ closure, w.closure = some closure → closure.content.status = .system_failure) ∧
    ∃ intent ∈ closure_intents w, intent.task_set_revision = record.task_set_revision ∧
      intent.ordered_terminal_evidence_digest
        = library.evidence_digest record.task_set_revision evidence

/-- The intent that the planner can settle the closure with. -/
structure UsableIntent (record : TaskSetRecord) (closure : Closure) (intent : ClosureIntent)
    (w : TaskSetFiles) : Prop where
  has_task_set : w.task_set = some record
  has_closure : w.closure = some closure
  current : (closure_intents w).filter (fun item =>
    item.task_set_revision = record.task_set_revision ∧ item.status = .pending_planner_backfill)
      = [intent]
  closure_digest : intent.closure_digest = closure.closure_digest
  evidence_digest : intent.ordered_terminal_evidence_digest
    = closure.content.ordered_terminal_evidence_digest
  none_older : ∀ item ∈ closure_intents w,
    item.task_set_revision < record.task_set_revision → item.status ≠ .pending_planner_backfill
  found : ∃ stale, (find_pending_task_set_closures.run w).1
    = .ok { pending := [intent], stale := stale }

def Usable (w : TaskSetFiles) : Prop :=
  ∃ record closure intent, UsableIntent record closure intent w

theorem filter_eq_singleton {α : Type} [DecidableEq α] {xs : List α} {x : α} {p : α → Bool}
    (hnodup : xs.Nodup) (hx : x ∈ xs) (hp : ∀ y ∈ xs, p y = true ↔ y = x) :
    xs.filter p = [x] := by
  have hsame : xs.filter p = xs.filter (· == x) := by
    apply List.filter_congr
    intro y hy
    rw [Bool.eq_iff_iff, hp y hy, beq_iff_eq]
  rw [hsame, List.filter_beq, List.count_eq_one_of_mem hnodup hx, List.replicate_one]

theorem run_find_task_set {record : TaskSetRecord} {w : TaskSetFiles}
    (hrecord : w.task_set = some record) (hpositive : 0 < record.task_set_revision) :
    find_task_set.run w = (.ok record, w) := by
  have hvalid : validate_task_set record = .ok () := by
    rw [validate_task_set, refuseIf_ok]
    omega
  unfold find_task_set
  rw [run_inspect, hrecord]
  exact Prod.ext (bind_ok.mpr ⟨record, rfl, bind_ok.mpr ⟨(), hvalid, rfl⟩⟩) rfl

theorem InFiles.usable {record : TaskSetRecord} {closure : Closure} {intent : ClosureIntent}
    {intents : List ClosureIntent} {w : TaskSetFiles}
    (h : InFiles record (some closure) intents w) (hstate : record.state = .closure_pending)
    (hstatus : closure.content.status = .closure_pending) (hintent : intent ∈ intents)
    (hrevision : intent.task_set_revision = record.task_set_revision)
    (hdigest : intent.ordered_terminal_evidence_digest
      = closure.content.ordered_terminal_evidence_digest) :
    UsableIntent record closure intent w := by
  have hstanding : record.state.is_revising = false := h.agree.closure_standing rfl
  have hopen := h.agree.current_open hstanding intent hintent hrevision
  have hnodup : intents.Nodup := List.Nodup.of_map _ h.agree.unique
  have hthe : ∀ item ∈ intents, item.task_set_revision = record.task_set_revision →
      item = intent := by
    intro item hitem hitemrev
    apply List.inj_on_of_nodup_map h.agree.unique hitem hintent
    rw [hitemrev, hrevision]
  have hcurrent : intents.filter (fun item =>
      item.task_set_revision = record.task_set_revision
        ∧ item.status = .pending_planner_backfill) = [intent] := by
    apply filter_eq_singleton hnodup hintent
    intro item hitem
    rw [decide_eq_true_eq]
    constructor
    · exact fun hcond => hthe item hitem hcond.1
    · rintro rfl
      exact ⟨hrevision, hopen⟩
  have hfound : intents.filter (ClosureIntent.is_open record) = [intent] := by
    apply filter_eq_singleton hnodup hintent
    intro item hitem
    unfold ClosureIntent.is_open
    rw [decide_eq_true_eq]
    constructor
    · exact fun hcond => hthe item hitem hcond.2.1
    · rintro rfl
      exact ⟨hopen, hrevision, hstate⟩
  constructor
  · exact h.has_task_set
  · exact h.has_closure
  · rw [h.has_intents]
    exact hcurrent
  · exact h.agree.digests closure rfl hstatus intent hintent hrevision hdigest
  · exact hdigest
  · rw [h.has_intents]
    intro item hitem hless hpending
    have hsame := h.agree.pending_revision item hitem hpending
    omega
  · cases hfile : w.intents with
    | none =>
      have hnil : intents = [] := by
        rw [← h.has_intents]
        unfold closure_intents
        rw [hfile]
        rfl
      rw [hnil] at hintent
      cases hintent
    | some present =>
      have hpresent : present = intents := by
        rw [← h.has_intents]
        unfold closure_intents
        rw [hfile]
        rfl
      refine ⟨intents.filter (ClosureIntent.is_stale record), ?_⟩
      unfold find_pending_task_set_closures
      simp only [bind_eq, read_bind, run_access, id_eq, hfile, hpresent]
      rw [run_bind_ok (run_find_task_set h.has_task_set h.agree.positive), ← hfound]
      rfl

section Evaluating

variable {record : TaskSetRecord} {closure : Option Closure} {intents : List ClosureIntent}
  {w : TaskSetFiles}

theorem keeps_evaluate_failures {evidence : List ChildEvidence}
    (h : InFiles record closure intents w) (hstate : record.state.is_revising = false) :
    Keeps (evaluate_failures library record evidence)
      (fun result w' => Consistent w' ∧ result.is_closure_pending = false) w := by
  apply Along.bind
  refine (keeps_now h).mono fun _ _ h => ?_
  apply Along.bind
  refine Along.mono (keeps_write_closure h (h.agree.closed hstate ?_ ?_)) fun _ _ h => ?_
  · rfl
  · intro hpending
    cases hpending
  apply Along.bind
  refine (keeps_now h).mono fun _ _ h => ?_
  apply Along.bind
  refine Along.mono (keeps_write_task_set h (h.agree.restated ?_ ?_)) fun _ _ h => ?_
  · rfl
  · exact hstate.symm
  · exact ⟨h.consistent, rfl⟩

/-- Where a closure is to be derived anew, no intent has been made from this evidence. -/
def Unclosed (record : TaskSetRecord) (closure : Option Closure) (intents : List ClosureIntent)
    (evidence : List ChildEvidence) : Prop :=
  (∀ c, closure = some c → c.content.status = .system_failure) →
    ∀ intent ∈ intents, intent.task_set_revision = record.task_set_revision →
      intent.ordered_terminal_evidence_digest
        ≠ library.evidence_digest record.task_set_revision evidence

theorem keeps_ensure_closure {evidence : List ChildEvidence} {aggregate_result : RoundResult}
    {reason : String} (h : InFiles record closure intents w)
    (hstate : record.state.is_revising = false)
    (hfresh : Unclosed library record closure intents evidence) :
    Keeps (ensure_closure library record evidence aggregate_result reason) (fun result w' =>
      InFiles record (some result.1) intents w' ∧
        result.1.content.status = .closure_pending) w := by
  apply Along.bind
  apply along_read h.consistent
  apply Along.bind
  refine along_ofExcept fun _ _ => ?_
  cases hfilter : w.closure.filter fun c => c.content.status ≠ .system_failure with
  | some present =>
    obtain ⟨hpresent, hstatus⟩ := Option.filter_eq_some_iff.mp hfilter
    apply Along.bind
    refine along_ofExcept fun _ _ => ?_
    refine ⟨⟨h.has_task_set, hpresent, h.has_intents, ?_⟩, ?_⟩
    · rw [← hpresent, h.has_closure]
      exact h.agree
    · rw [decide_eq_true_eq] at hstatus
      cases hcase : present.content.status with
      | closure_pending => rfl
      | system_failure => exact absurd hcase hstatus
  | none =>
    have hnone : ∀ c, closure = some c → c.content.status = .system_failure := by
      intro c hc
      have hnot := Option.filter_eq_none_iff.mp hfilter c (h.has_closure.trans hc)
      simpa using hnot
    apply Along.bind
    refine (keeps_now h).mono fun _ _ h => ?_
    apply Along.bind
    refine Along.mono (keeps_write_closure h (h.agree.closed hstate ?_ ?_)) fun _ _ h => ?_
    · rfl
    · exact fun _ => hfresh hnone
    · exact ⟨h, rfl⟩

theorem find_intent_some {revision : ℕ} {evidence_digest : Digest} {intent : ClosureIntent}
    (h : find_intent revision evidence_digest intents = .ok (some intent)) :
    intent ∈ intents ∧ intent.task_set_revision = revision ∧
      intent.ordered_terminal_evidence_digest = evidence_digest := by
  unfold find_intent at h
  cases hfind : intents.find? fun intent => intent.task_set_revision = revision with
  | none =>
    rw [hfind] at h
    cases h
  | some found =>
    rw [hfind] at h
    simp only [bind_ok, refuseIf_ok, pure_ok, Option.some.injEq, ne_eq, not_not] at h
    obtain ⟨_, hdigest, rfl⟩ := h
    have hrevision := List.find?_some hfind
    rw [decide_eq_true_eq] at hrevision
    exact ⟨List.mem_of_find?_eq_some hfind, hrevision, hdigest⟩

theorem find_intent_none {revision : ℕ} {evidence_digest : Digest}
    (h : find_intent revision evidence_digest intents = .ok none) :
    ∀ intent ∈ intents, intent.task_set_revision ≠ revision := by
  unfold find_intent at h
  cases hfind : intents.find? fun intent => intent.task_set_revision = revision with
  | none =>
    intro intent hintent
    have hnot := List.find?_eq_none.mp hfind intent hintent
    simpa using hnot
  | some found =>
    rw [hfind] at h
    simp only [bind_ok, pure_ok] at h
    obtain ⟨_, _, hcontra⟩ := h
    cases hcontra

theorem keeps_ensure_closure_intent {c : Closure} (h : InFiles record (some c) intents w) :
    Keeps (ensure_closure_intent library record c) (fun result w' =>
      ∃ intents', InFiles record (some c) intents' w' ∧ result.1 ∈ intents' ∧
        result.1.task_set_revision = record.task_set_revision ∧
        result.1.ordered_terminal_evidence_digest
          = c.content.ordered_terminal_evidence_digest) w := by
  apply Along.bind
  apply along_read h.consistent
  apply Along.bind
  refine along_ofExcept fun found hfound => ?_
  have hintents : w.intents.getD [] = intents := h.has_intents
  rw [hintents] at hfound ⊢
  cases found with
  | some intent =>
    obtain ⟨hmem, hrevision, hdigest⟩ := find_intent_some hfound
    exact ⟨intents, h, hmem, hrevision, hdigest⟩
  | none =>
    have hnone := find_intent_none hfound
    apply Along.bind
    refine (keeps_now h).mono fun time w h => ?_
    apply Along.bind
    refine Along.mono (keeps_write_intents h (h.agree.appended library hnone)) fun _ _ h => ?_
    refine ⟨_, h, ?_, rfl, rfl⟩
    exact List.mem_append_right _ List.mem_cons_self

theorem keeps_evaluate_terminal {evidence : List ChildEvidence}
    (h : InFiles record closure intents w) (hstate : record.state.is_revising = false)
    (hfresh : Unclosed library record closure intents evidence) :
    Keeps (evaluate_terminal library record evidence)
      (fun _ w' => Consistent w' ∧ Usable w') w := by
  apply Along.bind
  refine along_ofExcept fun result _ => ?_
  apply Along.bind
  refine (keeps_ensure_closure library h hstate hfresh).mono fun ensured _ hensured => ?_
  obtain ⟨h, hstatus⟩ := hensured
  apply Along.bind
  refine (keeps_ensure_closure_intent library h).mono fun found _ hfound => ?_
  obtain ⟨intents', h, hmem, hrevision, hdigest⟩ := hfound
  apply Along.bind
  refine (keeps_now h).mono fun _ _ h => ?_
  apply Along.bind
  refine Along.mono (keeps_write_task_set h (h.agree.restated ?_ ?_)) fun _ _ h => ?_
  · rfl
  · exact hstate.symm
  · refine ⟨h.consistent, _, _, _, h.usable ?_ hstatus hmem ?_ hdigest⟩
    · rfl
    · exact hrevision

end Evaluating

/-- An evaluation that does not reopen a closure leaves a usable intent where it returns a
pending closure. -/
theorem keeps_evaluate {expected_revision : Option ℕ} {w : TaskSetFiles} (h : Consistent w)
    (hfresh : ¬ Reopens library w) :
    Keeps (evaluate_task_set_closure library expected_revision)
      (fun result w' => Consistent w' ∧ (result.is_closure_pending = true → Usable w')) w := by
  apply Along.bind
  refine keeps_find_task_set h fun _ _ => ?_
  apply Along.within h
  apply Along.bind
  refine keeps_find_task_set h fun record hrecord => ?_
  have hin := h.in_files hrecord
  apply Along.bind
  refine along_ofExcept fun _ _ => ?_
  split
  · exact ⟨h, fun hpending => by cases hpending⟩
  · rename_i hstate
    rw [Bool.not_eq_true] at hstate
    apply Along.bind
    refine along_inspect h fun evidence hevidence => ?_
    unfold evaluate_evidence
    split
    · exact ⟨h, fun hpending => by cases hpending⟩
    · rename_i hnopending
      rw [Bool.not_eq_true] at hnopending
      split
      · refine (keeps_evaluate_failures library hin hstate).mono fun result _ hresult => ?_
        refine ⟨hresult.1, fun hpending => ?_⟩
        rw [hresult.2] at hpending
        cases hpending
      · rename_i hnofailure
        rw [Bool.not_eq_true] at hnofailure
        refine (keeps_evaluate_terminal library hin hstate ?_).mono fun _ _ hresult => ?_
        · intro hfailed intent hintent hrevision hdigest
          exact hfresh ⟨record, evidence, hrecord, hstate, hevidence, hnopending, hnofailure,
            hfailed, intent, hintent, hrevision, hdigest⟩
        · exact ⟨hresult.1, fun _ => hresult.2⟩

theorem consistent_find_pending {w : TaskSetFiles} (h : Consistent w) :
    Keeps find_pending_task_set_closures (fun _ => Consistent) w := by
  apply Along.bind
  apply along_read h
  cases w.intents with
  | none => exact h
  | some intents =>
    apply Along.bind
    exact keeps_find_task_set h fun _ _ => h

/-- What an evaluation may not do: reopen a closure. -/
def CallFresh (call : TaskSetCall) (w : TaskSetFiles) : Prop :=
  match call with
  | .evaluate _ => ¬ Reopens library w
  | _ => True

def closes : Answer → Bool
  | .evaluation evaluation => evaluation.is_closure_pending
  | _ => false

theorem keeps_call {call : TaskSetCall} {w : TaskSetFiles} (h : Consistent w)
    (hfresh : CallFresh library call w) :
    Keeps (call.call library)
      (fun answer w' => Consistent w' ∧ (closes answer = true → Usable w')) w := by
  cases call with
  | create command =>
    apply Along.bind
    exact (consistent_create h).mono fun _ _ h => ⟨h, fun hcloses => by cases hcloses⟩
  | evaluate expected_revision =>
    apply Along.bind
    exact (keeps_evaluate library h hfresh).mono fun _ _ h => h
  | find_pending =>
    apply Along.bind
    exact (consistent_find_pending h).mono fun _ _ h => ⟨h, fun hcloses => by cases hcloses⟩
  | revise expected_revision children =>
    apply Along.bind
    exact (consistent_revise h).mono fun _ _ h => ⟨h, fun hcloses => by cases hcloses⟩

def EventFresh (event : Event) (w : TaskSetFiles) : Prop :=
  match event with
  | .called call => CallFresh library call w
  | .stopped call _ => CallFresh library call w
  | _ => True

/-- Every event of the run meets the condition where it happens. -/
def FreshRun (events : List Event) (w : TaskSetFiles) : Prop :=
  match events with
  | [] => True
  | event :: events => EventFresh library event w ∧ FreshRun events (event.step library plans w)

theorem consistent_step {event : Event} {w : TaskSetFiles} (h : Consistent w)
    (hfresh : EventFresh library event w) : Consistent (event.step library plans w) := by
  cases event with
  | called call => exact (Along.run h (keeps_call library h hfresh)).1
  | stopped call steps =>
    exact (keeps_call library h hfresh).stopAfter h steps fun _ _ => trivial
  | task_created plan_slug command => exact ⟨h.untouched, h.agree⟩
  | task_changed task_id command => exact ⟨h.untouched, h.agree⟩
  | project_changed terminal plan_revision transport | elapsed time => exact ⟨h.untouched, h.agree⟩

theorem consistent_run {events : List Event} {w : TaskSetFiles} (h : Consistent w)
    (hfresh : FreshRun library plans events w) :
    Consistent (run_events library plans events w) := by
  induction events generalizing w with
  | nil => exact h
  | cons event events ih => exact ih (consistent_step library plans h hfresh.1) hfresh.2

theorem consistent_untouched {w : TaskSetFiles} (h : Untouched w) : Consistent w := by
  constructor
  · intro _
    unfold closure_intents
    rw [h.intents]
    exact ⟨h.closure, rfl⟩
  · intro record hrecord
    rw [h.task_set] at hrecord
    cases hrecord

theorem fresh_last {events : List Event} {event : Event} {w : TaskSetFiles}
    (h : FreshRun library plans (events ++ [event]) w) :
    FreshRun library plans events w ∧
      EventFresh library event (run_events library plans events w) := by
  induction events generalizing w with
  | nil => exact ⟨trivial, h.1⟩
  | cons first events ih => exact ⟨⟨h.1, (ih h.2).1⟩, (ih h.2).2⟩

/-- **A pending closure has a usable intent, in every run in which no evaluation reopens one.** -/
theorem usable_after_evaluation {events : List Event} {expected_revision : Option ℕ}
    {w : TaskSetFiles} (hstart : Untouched w)
    (hfresh : FreshRun library plans (events ++ [.called (.evaluate expected_revision)]) w)
    {evaluation : Evaluation}
    (hreturned : ((evaluate_task_set_closure library expected_revision).run
      (run_events library plans events w)).1 = .ok evaluation)
    (hpending : evaluation.is_closure_pending = true) :
    Usable (run_events library plans (events ++ [.called (.evaluate expected_revision)]) w) := by
  obtain ⟨hbefore, hlast⟩ := fresh_last library plans hfresh
  have h := consistent_run library plans (consistent_untouched hstart) hbefore
  have hevaluated := (Along.run h (keeps_evaluate library h hlast)).2 evaluation hreturned
  have hrun : ((TaskSetCall.evaluate expected_revision).call library).run
      (run_events library plans events w) =
        (.ok (.evaluation evaluation), ((evaluate_task_set_closure library expected_revision).run
          (run_events library plans events w)).2) :=
    run_bind_ok (Prod.ext hreturned rfl)
  have hstep : run_events library plans (events ++ [.called (.evaluate expected_revision)]) w
      = ((evaluate_task_set_closure library expected_revision).run
          (run_events library plans events w)).2 := by
    rw [run_events, List.foldl_append]
    exact congrArg Prod.snd hrun
  rw [hstep]
  exact hevaluated.2 hpending

def exampleSet : Segment := ⟨asciiText "set", by decide⟩

def examplePlan : Segment := ⟨asciiText "plan", by decide⟩

def exampleParent : Segment := ⟨asciiText "parent", by decide⟩

def exampleChild : Segment := ⟨asciiText "child", by decide⟩

/-- Closures are told apart by the time they are made. -/
def exampleLibrary : TaskSetLibrary :=
  { authority_digest := fun _ _ => []
    child_digest := fun _ _ _ => []
    evidence_digest := fun _ _ => []
    closure_digest := fun content => List.replicate content.created_at 0
    intent_id := fun task_set_id _ _ => task_set_id }

def examplePlans : PlanLibrary :=
  { sha256 := id
    authority_digest := fun _ digest => digest
    post_state_digest := fun _ digest => digest }

def exampleEvidence : TaskArtifact :=
  { kind := .blocker_evidence
    sha256 := []
    imported_at := 0
    actor := { source := [], actor := [], job_id := [] }
    orchestrator_route := none
    task_revision := none
    loop_id := none
    round_result := none
    bundle_revision := none
    bundle_digest := none
    superseded := none }

def exampleTask (task_id : Segment) : PlannedTask :=
  { plan_slug := examplePlan
    member := created_member { task_id := task_id, title := [], now := 0 } }

def blockedTask (task_id : Segment) : PlannedTask :=
  let task := exampleTask task_id
  { task with member := { task.member with record := { task.member.record with
      status := .blocked
      artifacts := fun kind => if kind = .blocker_evidence then some exampleEvidence else none } } }

/-- The files of tasks whose artifacts are as they should be. -/
def intactFiles : TerminalFiles :=
  { detail_ready_basis := fun _ => none
    artifact_digest := fun artifact => .ok artifact.sha256
    round := fun _ => .ok none }

def damagedFiles : TerminalFiles :=
  { intactFiles with
    artifact_digest := fun _ => .error ⟨"terminal_child_artifact_digest_mismatch"⟩ }

/-- A parent, and a child that is blocked. -/
def exampleFiles : TaskSetFiles :=
  { task_set := none
    closure := none
    archives := fun _ => none
    settlements := fun _ => none
    intents := none
    tasks := fun task_id =>
      if task_id = exampleParent then some (exampleTask exampleParent)
      else if task_id = exampleChild then some (blockedTask exampleChild)
      else none
    terminal := intactFiles
    plan_revision := .ok []
    transport := fun _ _ _ transport_ref => .ok transport_ref
    clock := 0 }

def exampleCreation : CreateTaskSet :=
  { task_set_id := exampleSet
    plan_slug := examplePlan
    source_task_id := exampleParent
    source_request := { source_job_id := exampleSet, sha256 := [], bytes := 0, body_artifact := none }
    planner_job := { job_id := exampleSet, reply_sha256 := [] }
    children := [{ task_id := exampleChild, required := true }] }

theorem untouched_exampleFiles : Untouched exampleFiles :=
  { task_set := rfl
    closure := rfl
    archives := fun _ => rfl
    intents := rfl }

def evaluationOf (files : TaskSetFiles) : Except ValueError Evaluation :=
  ((evaluate_task_set_closure exampleLibrary none).run files).1

theorem not_reopens_of_none {w : TaskSetFiles} (h : closure_intents w = []) :
    ¬ Reopens exampleLibrary w := by
  rintro ⟨_, _, _, _, _, _, _, _, intent, hintent, _⟩
  rw [h] at hintent
  cases hintent

/-- The evidence is damaged before the first evaluation, and repaired; the next evaluation stops
after it has written the closure. -/
def repairedRun : List Event :=
  [.called (.create exampleCreation),
    .project_changed damagedFiles (.ok []) exampleFiles.transport, .called (.evaluate none),
    .project_changed intactFiles (.ok []) exampleFiles.transport, .stopped (.evaluate none) 8]

theorem usable_after_evaluation_repaired :
    Usable (run_events exampleLibrary examplePlans
      (repairedRun ++ [.called (.evaluate none)]) exampleFiles) := by
  have hpending : ((evaluationOf (run_events exampleLibrary examplePlans repairedRun
      exampleFiles)).toOption.map Evaluation.is_closure_pending) = some true := by decide
  cases hok : evaluationOf (run_events exampleLibrary examplePlans repairedRun exampleFiles) with
  | error e =>
    rw [hok] at hpending
    cases hpending
  | ok evaluation =>
    rw [hok] at hpending
    refine usable_after_evaluation exampleLibrary examplePlans untouched_exampleFiles
      ⟨trivial, trivial, ?_, trivial, ?_, ?_, trivial⟩ hok (Option.some.inj hpending)
    all_goals exact not_reopens_of_none (by decide)

/-- The evidence is damaged after the closure, and repaired after the evaluation that has seen
the damage. -/
def reopeningRun : List Event :=
  [.called (.create exampleCreation), .called (.evaluate none),
    .project_changed damagedFiles (.ok []) exampleFiles.transport, .called (.evaluate none),
    .project_changed intactFiles (.ok []) exampleFiles.transport]

/-- The closure that is written after the repair is not the one that the intent names. -/
theorem reopened_closure_unusable :
    Untouched exampleFiles ∧
    (evaluationOf (run_events exampleLibrary examplePlans reopeningRun
      exampleFiles)).toOption.map Evaluation.is_closure_pending = some true ∧
    ¬ Usable (run_events exampleLibrary examplePlans
      (reopeningRun ++ [.called (.evaluate none)]) exampleFiles) := by
  refine ⟨untouched_exampleFiles, by decide, ?_⟩
  rintro ⟨record, closure, intent, h⟩
  have hclosure : (run_events exampleLibrary examplePlans
      (reopeningRun ++ [.called (.evaluate none)]) exampleFiles).closure.map
        Closure.closure_digest ≠
      ((closure_intents (run_events exampleLibrary examplePlans
        (reopeningRun ++ [.called (.evaluate none)]) exampleFiles)).map
          ClosureIntent.closure_digest).head? := by decide
  have hone : (closure_intents (run_events exampleLibrary examplePlans
      (reopeningRun ++ [.called (.evaluate none)]) exampleFiles)).length = 1 := by decide
  obtain ⟨only, honly⟩ := List.length_eq_one_iff.mp hone
  have hmem : intent ∈ [only] := by
    rw [← honly]
    apply List.mem_of_mem_filter (p := fun item => item.task_set_revision
      = record.task_set_revision ∧ item.status = .pending_planner_backfill)
    rw [h.current]
    exact List.mem_cons_self
  rw [List.mem_singleton] at hmem
  rw [h.has_closure, honly, ← hmem] at hclosure
  exact hclosure (congrArg some h.closure_digest.symm)

end ClaudeCodeBridge.Analysis.TaskSet
