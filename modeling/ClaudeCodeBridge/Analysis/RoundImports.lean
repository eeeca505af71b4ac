import ClaudeCodeBridge.Analysis.PlanBinding
import ClaudeCodeBridge.Model.TaskBindings

/-!
# Importing the round of a bound loop

`task-import-round` looks at the round summary that the task already holds before it looks at
the loop that is bound, so a second round of a task is taken for a conflict, or for a replay
of the first.

The ladder: which artifacts a command puts (`artifact_puts`); what a run has put is what the
record holds (`holdsRound_run`); the import succeeds exactly on a record that holds neither a
round summary nor an artifact under the old name of the result (`imported_iff`); the runs
(`bound_round_imported_iff`).
-/

set_option autoImplicit false

namespace ClaudeCodeBridge.Analysis.PlanTask

open Program
open Model.PlanTask

variable {library : PlanLibrary} {record record' : TaskRecord} {member member' : MemberRecord}

def Puts (command : UpdateCommand) (kind : ArtifactKind) : Prop :=
  match command with
  | .artifact c => c.artifact_kind = .given kind
  | .import_round c => kind = .round_summary ∨ kind = c.result.legacy_artifact_kind
  | _ => False

def loopOf (record : TaskRecord) (kind : ArtifactKind) : Option Segment :=
  (record.artifacts kind).bind fun artifact => artifact.loop_id

/-- The artifacts of before are still there, with one of each kind that is put, and none of
them has become the round of a loop. -/
structure PutsOnly (puts : ArtifactKind → Prop) (record record' : TaskRecord) : Prop where
  isSome : ∀ k, (record'.artifacts k).isSome ↔ (record.artifacts k).isSome ∨ puts k
  loop : ∀ k loop_id, loopOf record' k = some loop_id → loopOf record k = some loop_id

theorem isSome_put (kind k : ArtifactKind) (artifact : TaskArtifact) :
    ((record.put_artifact kind artifact).artifacts k).isSome ↔
      (record.artifacts k).isSome ∨ kind = k := by
  unfold TaskRecord.put_artifact
  by_cases hk : k = kind
  · subst hk
    simp
  · have hne : ¬ kind = k := fun h => hk h.symm
    simp [Function.update_of_ne hk, hne]

theorem putsOnly_nothing (hsome : ∀ k, (record'.artifacts k).isSome = (record.artifacts k).isSome)
    (hloop : ∀ k, loopOf record' k = loopOf record k) :
    PutsOnly (fun _ => False) record record' := by
  refine ⟨?_, ?_⟩
  · intro k
    rw [hsome k, or_false]
  · intro k loop_id h
    rw [← hloop k]
    exact h

theorem putsOnly_put {kind : ArtifactKind} {artifact : TaskArtifact}
    (hartifact : artifact.loop_id = none)
    (hsome : ∀ k, (record'.artifacts k).isSome =
      ((record.put_artifact kind artifact).artifacts k).isSome)
    (hloop : ∀ k, loopOf record' k = loopOf (record.put_artifact kind artifact) k) :
    PutsOnly (fun k => kind = k) record record' := by
  refine ⟨?_, ?_⟩
  · intro k
    rw [hsome k]
    exact isSome_put kind k artifact
  · intro k loop_id h
    rw [hloop k] at h
    unfold loopOf TaskRecord.put_artifact at h
    dsimp only at h
    by_cases hk : k = kind
    · subst hk
      simp [hartifact] at h
    · rw [Function.update_of_ne hk] at h
      exact h

theorem isSome_synchronize (k : ArtifactKind) :
    ((synchronize_stop_contract_revisions record).artifacts k).isSome =
      (record.artifacts k).isSome := by
  unfold synchronize_stop_contract_revisions
  dsimp only
  split
  · exact Option.isSome_map
  · rfl

theorem loopOf_synchronize (k : ArtifactKind) :
    loopOf (synchronize_stop_contract_revisions record) k = loopOf record k := by
  unfold loopOf synchronize_stop_contract_revisions
  dsimp only
  split
  · rw [Option.bind_map]
    rfl
  · rfl

theorem isSome_superseded (identity : Digest) (revision : ℕ) (k : ArtifactKind) :
    (superseded_artifacts record identity revision k).isSome = (record.artifacts k).isSome := by
  unfold superseded_artifacts
  split
  · exact Option.isSome_map
  · rfl

theorem loopOf_superseded (identity : Digest) (revision : ℕ) (k : ArtifactKind) :
    (superseded_artifacts record identity revision k).bind (fun artifact => artifact.loop_id) =
      loopOf record k := by
  unfold loopOf superseded_artifacts
  split
  · rw [Option.bind_map]
    rfl
  · rfl

variable {c : ArtifactCommand}

theorem artifact_puts (h : task_artifact library c record = .ok (.replaced record')) :
    PutsOnly (fun k => c.artifact_kind = .given k) record record' := by
  obtain ⟨kind, artifact, revision, hkind, hloop, hrecord⟩ := artifact_replaced h
  have hgiven : (fun k => c.artifact_kind = .given k) = fun k => kind = k := by
    funext k
    rw [hkind]
    simp
  rw [hgiven]
  obtain rfl | rfl := hrecord
  · exact putsOnly_put hloop (fun k => rfl) (fun k => rfl)
  · exact putsOnly_put hloop isSome_synchronize loopOf_synchronize

variable {command : UpdateCommand}

theorem update_puts (hnot : ∀ c, command ≠ .import_round c)
    (h : command.apply library record = .ok (.replaced record')) :
    PutsOnly (Puts command) record record' := by
  cases command with
  | artifact c => exact artifact_puts h
  | import_round c => exact absurd rfl (hnot c)
  | status c =>
    simp only [UpdateCommand.apply, task_status, bind_ok] at h
    obtain ⟨_, _, h⟩ := h
    split at h
    · simp at h
    · simp at h
    · simp only [bind_ok, refuseIf_ok, pure_ok, Outcome.replaced.injEq] at h
      obtain ⟨_, _, _, _, _, _, _, _, rfl⟩ := h
      exact putsOnly_nothing (fun k => rfl) (fun k => rfl)
  | reconcile_detail_ready c =>
    simp only [UpdateCommand.apply, task_reconcile_detail_ready, bind_ok] at h
    obtain ⟨basis, _, h⟩ := h
    split at h
    · simp only [pure_ok, reduceCtorEq] at h
    · simp only [bind_ok, refuseIf_ok, pure_ok, Outcome.replaced.injEq] at h
      obtain ⟨_, _, _, _, _, _, rfl⟩ := h
      exact putsOnly_nothing (fun k => rfl) (fun k => rfl)
  | accept_detailer_replan c =>
    simp only [UpdateCommand.apply, task_accept_detailer_replan] at h
    cases hexisting : record.replan_feedback with
    | some existing =>
      simp only [hexisting, bind_ok, refuseIf_ok] at h
      obtain ⟨_, _, _, _, h⟩ := h
      split at h
      · simp only [pure_ok, Outcome.replaced.injEq] at h
        subst h
        exact putsOnly_nothing (fun k => rfl) (fun k => rfl)
      · simp only [pure_ok, reduceCtorEq] at h
    | none =>
      simp only [hexisting, bind_ok, refuseIf_ok, pure_ok, Outcome.replaced.injEq] at h
      obtain ⟨_, _, _, _, _, _, rfl⟩ := h
      exact putsOnly_nothing (isSome_superseded _ _) (loopOf_superseded _ _)
  | complete_detailer_replan c =>
    simp only [UpdateCommand.apply, task_complete_detailer_replan, bind_ok, refuseIf_ok] at h
    obtain ⟨_, _, _, _, _, _, h⟩ := h
    split at h
    · simp only [bind_ok, pure_ok, reduceCtorEq, and_false, exists_false] at h
    · simp only [bind_ok, refuseIf_ok, pure_ok, Outcome.replaced.injEq] at h
      obtain ⟨_, _, rfl⟩ := h
      exact putsOnly_nothing (fun k => rfl) (fun k => rfl)
  | bind_loop c =>
    simp only [UpdateCommand.apply, task_bind_loop, bind_ok, refuseIf_ok] at h
    obtain ⟨_, _, _, _, h⟩ := h
    split at h
    · simp only [bind_ok, pure_ok, reduceCtorEq, and_false, exists_false] at h
    · simp only [bind_ok, refuseIf_ok, pure_ok, Outcome.replaced.injEq] at h
      obtain ⟨_, _, _, _, _, _, rfl⟩ := h
      exact putsOnly_nothing (fun k => rfl) (fun k => rfl)

def HoldsRound (result : RoundResult) (record : TaskRecord) : Prop :=
  (record.artifacts .round_summary).isSome ∨ (record.artifacts result.legacy_artifact_kind).isSome

def PutsRound (result : RoundResult) : TaskCommand → Prop
  | .update (.import_round _) => True
  | .update (.artifact c) => c.artifact_kind = .given result.legacy_artifact_kind
  | _ => False

def Summarized (record : TaskRecord) : Prop :=
  ∀ k loop_id, loopOf record k = some loop_id → (record.artifacts .round_summary).isSome

theorem no_direct_summary (h : c.artifact_kind = .given .round_summary)
    (outcome : Outcome) : task_artifact library c record ≠ .ok outcome := by
  unfold task_artifact
  rw [h]
  simp

theorem text_artifact_unchanged {kind : ArtifactKind}
    (h : task_text_artifact library c kind record = .ok .unchanged) :
    kind ∈ semantic_task_artifacts := by
  simp only [task_text_artifact, bind_ok, refuseIf_ok, valueOr_ok] at h
  obtain ⟨route, _, _, _, text, _, h⟩ := h
  split at h
  · rename_i hsame
    simp only [Bool.and_eq_true, decide_eq_true_eq] at hsame
    exact hsame.1
  · simp only [bind_ok, pure_ok, reduceCtorEq, and_false, exists_false] at h

theorem legacy_artifact_written {result : RoundResult}
    (hkind : c.artifact_kind = .given result.legacy_artifact_kind) :
    task_artifact library c record ≠ .ok .unchanged := by
  intro h
  unfold task_artifact at h
  split at h
  · simp at h
  · simp at h
  · simp at h
  · rename_i kind _ hgiven
    rw [hgiven, Argument.given.injEq] at hkind
    subst hkind
    simp only [bind_ok] at h
    obtain ⟨_, _, h⟩ := h
    have hbundle : result.legacy_artifact_kind ≠ .orchestration_bundle := by
      cases result <;> decide
    have hsemantic : result.legacy_artifact_kind ∉ semantic_task_artifacts := by
      cases result <;> decide
    rw [if_neg hbundle] at h
    exact hsemantic (text_artifact_unchanged h)

theorem loopOf_of_existing {loop_id : Segment} {result : RoundResult} {sha256 : Digest}
    (h : existing_round_import record loop_id result sha256 = .ok true) :
    ∃ k, loopOf record k = some loop_id := by
  unfold existing_round_import at h
  cases hround : record.artifacts .round_summary with
  | some artifact =>
    simp only [hround, Option.some_or, bind_ok, refuseIf_ok, not_not] at h
    obtain ⟨_, ⟨hloop, _⟩, _⟩ := h
    exact ⟨.round_summary, by simp [loopOf, hround, hloop]⟩
  | none =>
    cases hlegacy : record.artifacts result.legacy_artifact_kind with
    | some artifact =>
      simp only [hround, hlegacy, Option.none_or, bind_ok, refuseIf_ok, not_not] at h
      obtain ⟨_, ⟨hloop, _⟩, _⟩ := h
      exact ⟨result.legacy_artifact_kind, by simp [loopOf, hlegacy, hloop]⟩
    | none => simp [hround, hlegacy] at h

theorem existing_none_iff {loop_id : Segment} {result : RoundResult} {sha256 : Digest} :
    existing_round_import record loop_id result sha256 = .ok false ↔ ¬ HoldsRound result record := by
  unfold existing_round_import HoldsRound
  cases hheld : (record.artifacts .round_summary).or
      (record.artifacts result.legacy_artifact_kind) with
  | none =>
    obtain ⟨hround, hlegacy⟩ := Option.or_eq_none_iff.mp hheld
    simp [hround, hlegacy]
  | some artifact =>
    refine iff_of_false ?_ ?_
    · intro h
      simp only [bind_ok, pure_ok, Bool.true_eq_false, and_false, exists_false] at h
    · rw [not_not, ← Bool.or_eq_true, ← Option.isSome_or, hheld]
      rfl

theorem import_holds {c : ImportRoundCommand}
    (h : task_import_round library c record = .ok (.replaced record')) :
    (record'.artifacts .round_summary).isSome := by
  simp only [task_import_round, bind_ok] at h
  obtain ⟨_, _, existing, _, h⟩ := h
  split at h
  · simp only [pure_ok, reduceCtorEq] at h
  · simp only [bind_ok, refuseIf_ok, pure_ok, Outcome.replaced.injEq] at h
    obtain ⟨_, _, _, _, rfl⟩ := h
    refine (isSome_put _ _ _).mpr (Or.inl ((isSome_put _ _ _).mpr (Or.inr rfl)))

theorem holdsRound_replaced (hsummarized : Summarized record)
    (h : command.apply library record = .ok (.replaced record')) :
    Summarized record' ∧ ∀ result, HoldsRound result record' ↔
      HoldsRound result record ∨ PutsRound result (.update command) := by
  by_cases hnot : ∀ c, command ≠ .import_round c
  · have hputs := update_puts hnot h
    refine ⟨?_, ?_⟩
    · intro k loop_id hloop
      exact (hputs.isSome _).mpr (Or.inl (hsummarized k loop_id (hputs.loop k loop_id hloop)))
    · intro result
      unfold HoldsRound
      rw [hputs.isSome, hputs.isSome, or_or_or_comm]
      refine or_congr_right ?_
      cases command with
      | artifact c => exact or_iff_right fun hdirect => no_direct_summary hdirect _ h
      | import_round c => exact absurd rfl (hnot c)
      | _ => exact or_self_iff
  · obtain ⟨c, hc⟩ := not_forall_not.mp hnot
    subst hc
    have hholds := import_holds h
    exact ⟨fun _ _ _ => hholds, fun _ => iff_of_true (Or.inl hholds) (Or.inr trivial)⟩

theorem holdsRound_unchanged (hsummarized : Summarized record)
    (h : command.apply library record = .ok .unchanged) (result : RoundResult)
    (hputs : PutsRound result (.update command)) : HoldsRound result record := by
  cases command with
  | artifact c => exact absurd h (legacy_artifact_written hputs)
  | import_round c =>
    simp only [UpdateCommand.apply, task_import_round, bind_ok] at h
    obtain ⟨_, _, existing, hexisting, h⟩ := h
    cases existing with
    | true =>
      obtain ⟨k, hk⟩ := loopOf_of_existing hexisting
      exact Or.inl (hsummarized k _ hk)
    | false =>
      simp only [Bool.false_eq_true, if_false, bind_ok, pure_ok, reduceCtorEq, and_false,
        exists_false] at h
  | _ => exact hputs.elim

theorem bind_child_artifacts {c : BindChildCommand}
    (h : task_bind_child c member = .ok (.replaced member')) :
    member'.record.artifacts = member.record.artifacts := by
  simp only [task_bind_child, bind_ok] at h
  obtain ⟨_, _, _, _, same, _, h⟩ := h
  split at h
  · simp only [pure_ok, reduceCtorEq] at h
  · simp only [pure_ok, MemberOutcome.replaced.injEq] at h
    rw [← h]

theorem bind_parent_artifacts {c : BindParentCommand}
    (h : task_bind_parent c member = .ok (.replaced member')) :
    member'.record.artifacts = member.record.artifacts := by
  simp only [task_bind_parent, bind_ok] at h
  obtain ⟨_, _, _, _, same, _, h⟩ := h
  split at h
  · simp only [pure_ok, reduceCtorEq] at h
  · simp only [bind_ok, pure_ok, MemberOutcome.replaced.injEq] at h
    obtain ⟨_, _, h⟩ := h
    rw [← h]

theorem unbind_artifacts {c : UnbindCommand}
    (h : task_unbind_task_set c member = .ok (.replaced member')) :
    member'.record.artifacts = member.record.artifacts := by
  simp only [task_unbind_task_set, bind_ok] at h
  obtain ⟨_, _, h⟩ := h
  split at h
  · simp only [pure_ok, reduceCtorEq] at h
  · simp only [bind_ok, pure_ok, MemberOutcome.replaced.injEq] at h
    obtain ⟨_, _, h⟩ := h
    rw [← h]

theorem settle_artifacts {c : SettleParentCommand}
    (h : settle_task_set_parent c member = .ok (.replaced member')) :
    member'.record.artifacts = member.record.artifacts := by
  simp only [settle_task_set_parent, bind_ok] at h
  obtain ⟨_, _, h⟩ := h
  split at h
  · simp only [bind_ok, pure_ok, reduceCtorEq, and_false, exists_false] at h
  · simp only [bind_ok, pure_ok, MemberOutcome.replaced.injEq] at h
    obtain ⟨_, _, h⟩ := h
    rw [← h]

theorem holdsRound_congr (h : record'.artifacts = record.artifacts) :
    (Summarized record' ↔ Summarized record) ∧
      ∀ result, HoldsRound result record' ↔ HoldsRound result record := by
  unfold Summarized HoldsRound loopOf
  rw [h]
  exact ⟨Iff.rfl, fun _ => Iff.rfl⟩

theorem holdsRound_step {command : TaskCommand} (hsummarized : Summarized member.record)
    (h : command.step library member = .ok member') :
    Summarized member'.record ∧ ∀ result, HoldsRound result member'.record ↔
      HoldsRound result member.record ∨ PutsRound result command := by
  have hkept : member'.record.artifacts = member.record.artifacts →
      (∀ result, PutsRound result command → HoldsRound result member.record) →
      Summarized member'.record ∧ ∀ result, HoldsRound result member'.record ↔
        HoldsRound result member.record ∨ PutsRound result command := by
    intro hartifacts hputs
    obtain ⟨hsame, hholds⟩ := holdsRound_congr hartifacts
    refine ⟨hsame.mpr hsummarized, ?_⟩
    intro result
    rw [hholds result]
    exact (or_iff_left_of_imp (hputs result)).symm
  unfold TaskCommand.step at h
  obtain ⟨outcome, houtcome, h⟩ := bind_ok.mp h
  cases outcome with
  | unchanged =>
    simp only [pure_ok] at h
    subst h
    refine hkept rfl ?_
    intro result hputs
    cases command with
    | update c =>
      simp only [TaskCommand.apply, bind_ok] at houtcome
      obtain ⟨outcome, hupdate, hout⟩ := houtcome
      cases outcome with
      | unchanged => exact holdsRound_unchanged hsummarized hupdate result hputs
      | replaced record => simp only [pure_ok, reduceCtorEq] at hout
    | _ => exact hputs.elim
  | replaced changed =>
    simp only [pure_ok] at h
    subst h
    cases command with
    | update c =>
      simp only [TaskCommand.apply, bind_ok] at houtcome
      obtain ⟨outcome, hupdate, hout⟩ := houtcome
      cases outcome with
      | unchanged => simp only [pure_ok, reduceCtorEq] at hout
      | replaced record =>
        simp only [pure_ok, MemberOutcome.replaced.injEq] at hout
        subst hout
        have hreplaced := holdsRound_replaced hsummarized hupdate
        exact hreplaced
    | bind_child c =>
      have hsame := bind_child_artifacts houtcome
      exact hkept hsame fun _ hputs => hputs.elim
    | bind_parent c =>
      have hsame := bind_parent_artifacts houtcome
      exact hkept hsame fun _ hputs => hputs.elim
    | unbind_task_set c =>
      have hsame := unbind_artifacts houtcome
      exact hkept hsame fun _ hputs => hputs.elim
    | settle_parent c =>
      have hsame := settle_artifacts houtcome
      exact hkept hsame fun _ hputs => hputs.elim

theorem run_member_concat (commands : List TaskCommand) (command : TaskCommand)
    (member : MemberRecord) : run_member library (commands ++ [command]) member =
      run_member library commands member >>= command.step library := by
  unfold run_member
  rw [List.foldlM_append]
  congr 1
  funext member
  simp

theorem holdsRound_run (create : CreateCommand) (commands : List TaskCommand) :
    ∀ member, run_member library commands (created_member create) = .ok member →
      Summarized member.record ∧ ∀ result, HoldsRound result member.record ↔
        ∃ command ∈ commands, PutsRound result command := by
  induction commands using List.reverseRecOn with
  | nil =>
    intro member h
    have hcreated : created_member create = member := Except.ok.inj h
    subst hcreated
    refine ⟨?_, ?_⟩
    · intro k loop_id hloop
      simp [loopOf, created_member, created_record] at hloop
    · intro result
      simp [HoldsRound, created_member, created_record]
  | append_singleton commands command ih =>
    intro member h
    rw [run_member_concat, bind_ok] at h
    obtain ⟨middle, hmiddle, hstep⟩ := h
    obtain ⟨hsummarized, hholds⟩ := ih middle hmiddle
    obtain ⟨hafter, hstepped⟩ := holdsRound_step hsummarized hstep
    refine ⟨hafter, ?_⟩
    intro result
    rw [hstepped result, hholds result]
    simp only [List.mem_append, List.mem_singleton, or_and_right, exists_or, exists_eq_left]

/-- The import takes the record: the result is counted once more, the loop is unbound, and the
same import afterwards, by whomever and whenever, leaves the record as it is. -/
def RoundImported (library : PlanLibrary) (c : ImportRoundCommand) (member : MemberRecord) : Prop :=
  ∃ after, (TaskCommand.update (.import_round c)).step library member = .ok after ∧
    after.record.round_counters = Function.update member.record.round_counters c.result
      (member.record.round_counters c.result + 1) ∧
    after.record.current_loop = none ∧
    ∀ actor now, (TaskCommand.update (.import_round { c with actor := actor, now := now })).apply
      library after = .ok .unchanged

def importedRound (library : PlanLibrary) (c : ImportRoundCommand) : TaskArtifact :=
  { text_artifact library .round_summary c.text c.actor c.now with
    loop_id := some c.loop_id
    round_result := some c.result }

theorem legacy_ne_summary (result : RoundResult) :
    result.legacy_artifact_kind ≠ .round_summary := by
  cases result <;> decide

theorem assert_revision_congr {expected : Option ℤ}
    (h : record'.task_revision = record.task_revision) :
    assert_expected_task_revision expected record' =
      assert_expected_task_revision expected record := by
  unfold assert_expected_task_revision
  rw [h]

theorem import_of_not_held (library : PlanLibrary) {c : ImportRoundCommand}
    (hrevision : assert_expected_task_revision c.expected_task_revision record = .ok ())
    (hloop : record.current_loop = some c.loop_id) (hrunning : record.status = .running)
    (hheld : ¬ HoldsRound c.result record) :
    ∃ record', task_import_round library c record = .ok (.replaced record') ∧
      record'.round_counters = Function.update record.round_counters c.result
        (record.round_counters c.result + 1) ∧
      record'.current_loop = none ∧ record'.task_revision = record.task_revision ∧
      record'.artifacts .round_summary = some (importedRound library c) := by
  have hexisting : existing_round_import record c.loop_id c.result (library.sha256 c.text) =
      .ok false := existing_none_iff.mpr hheld
  have hbound (e : ValueError) : refuseIf (record.current_loop ≠ some c.loop_id) e = .ok () :=
    refuseIf_ok.mpr (not_not.mpr hloop)
  have hstarted (e : ValueError) : refuseIf (record.status ≠ .running) e = .ok () :=
    refuseIf_ok.mpr (not_not.mpr hrunning)
  unfold task_import_round
  rw [hrevision, hexisting, hbound, hstarted]
  refine ⟨_, rfl, rfl, rfl, rfl, ?_⟩
  dsimp only [TaskRecord.put_artifact]
  rw [Function.update_of_ne (legacy_ne_summary c.result).symm, Function.update_self]
  rfl

theorem import_again {c : ImportRoundCommand} (actor : ArtifactActor) (now : ℕ)
    (hrevision : assert_expected_task_revision c.expected_task_revision record = .ok ())
    (hheld : record.artifacts .round_summary = some (importedRound library c)) :
    task_import_round library { c with actor := actor, now := now } record = .ok .unchanged := by
  have hexisting : existing_round_import record c.loop_id c.result (library.sha256 c.text) =
      .ok true := by
    unfold existing_round_import
    rw [hheld, Option.some_or]
    dsimp only
    rw [(refuseIf_ok (u := ())).mpr (not_not.mpr ⟨rfl, rfl, rfl⟩)]
    rfl
  unfold task_import_round
  dsimp only
  rw [hrevision, hexisting]
  rfl

/-- **The import of a bound loop's round** succeeds exactly on a record that holds nothing of
the round. -/
theorem imported_iff {c : ImportRoundCommand} (hrunning : member.record.status = .running)
    (hloop : member.record.current_loop = some c.loop_id)
    (hrevision : assert_expected_task_revision c.expected_task_revision member.record = .ok ()) :
    RoundImported library c member ↔ ¬ HoldsRound c.result member.record := by
  constructor
  · rintro ⟨after, hstep, hcounters, _, _⟩ hheld
    simp only [TaskCommand.step, TaskCommand.apply, UpdateCommand.apply, task_import_round,
      bind_ok] at hstep
    obtain ⟨_, ⟨_, ⟨_, _, existing, hexisting, hout⟩, hmember⟩, hafter⟩ := hstep
    cases existing with
    | false => exact existing_none_iff.mp hexisting hheld
    | true =>
      simp only [if_true, pure_ok] at hout
      subst hout
      simp only [pure_ok] at hmember
      subst hmember
      simp only [pure_ok] at hafter
      subst hafter
      have hcount := congrFun hcounters c.result
      rw [Function.update_self] at hcount
      omega
  · intro hheld
    obtain ⟨record', himport, hcounters, hunbound, hsame, hround⟩ :=
      import_of_not_held library hrevision hloop hrunning hheld
    refine ⟨MemberRecord.bumped { member with record := record' }, ?_, hcounters, hunbound, ?_⟩
    · simp only [TaskCommand.step, TaskCommand.apply, UpdateCommand.apply, himport]
      rfl
    · intro actor now
      have hrevision' : assert_expected_task_revision c.expected_task_revision record'.bumped =
          .ok () := by
        rw [← hrevision]
        exact assert_revision_congr hsame
      have hagain := import_again actor now hrevision'
        (show record'.bumped.artifacts .round_summary = some (importedRound library c) from hround)
      simp only [TaskCommand.apply, UpdateCommand.apply, MemberRecord.bumped, hagain]
      rfl

/-- **The round of a bound loop can be imported** if and only if nothing of a round has been
put before: no round of an earlier loop and no artifact under the old name of the result. -/
theorem bound_round_imported_iff (library : PlanLibrary) (create : CreateCommand)
    (commands : List TaskCommand) (member : MemberRecord)
    (hrun : run_member library commands (created_member create) = .ok member)
    (c : ImportRoundCommand) (hrunning : member.record.status = .running)
    (hloop : member.record.current_loop = some c.loop_id)
    (hrevision : assert_expected_task_revision c.expected_task_revision member.record = .ok ()) :
    RoundImported library c member ↔ ∀ command ∈ commands, ¬ PutsRound c.result command := by
  obtain ⟨_, hholds⟩ := holdsRound_run create commands member hrun
  rw [imported_iff hrunning hloop hrevision, hholds c.result]
  simp only [not_exists, not_and]

def exampleMember : MemberRecord := created_member exampleTask

def secondLoop : Segment := ⟨asciiText "second", by decide⟩

def bindLoop (loop_id : Segment) : UpdateCommand :=
  .bind_loop { loop_id := loop_id, lease_id := 1, expected_task_revision := none, now := 1 }

def roundOf (loop_id : Segment) (result : RoundResult) : ImportRoundCommand :=
  { loop_id := loop_id
    result := result
    text := asciiText "round"
    actor := ⟨asciiText "cli", asciiText "user", []⟩
    expected_task_revision := none
    now := 1 }

/-- The task runs for the first time. -/
def firstRound : List TaskCommand :=
  [.update (importOf .task_packet "packet"), .update (importOf .execution_contract "contract"),
    .update (statusTo .ready_for_orchestration), .update (bindLoop exampleLoop)]

def secondRound : List TaskCommand :=
  firstRound ++ [.update (.import_round (roundOf exampleLoop .partial_)),
    .update (importOf .macro_adjustment_request "request"), .update (statusTo .replan_required),
    .update (statusTo .ready_for_orchestration), .update (bindLoop secondLoop)]

def leftBound (commands : List TaskCommand) : Option (TaskStatus × Option Segment) :=
  (run_member plainLibrary commands exampleMember).toOption.map fun member =>
    (member.record.status, member.record.current_loop)

theorem leftBound_some {commands : List TaskCommand} {status : TaskStatus} {loop : Option Segment}
    (h : leftBound commands = some (status, loop)) :
    ∃ member, run_member plainLibrary commands exampleMember = .ok member ∧
      member.record.status = status ∧ member.record.current_loop = loop := by
  unfold leftBound at h
  cases hrun : run_member plainLibrary commands exampleMember with
  | error e =>
    rw [hrun] at h
    simp [Except.toOption] at h
  | ok member =>
    rw [hrun] at h
    simp only [Except.toOption, Option.map_some, Option.some.injEq, Prod.mk.injEq] at h
    exact ⟨member, rfl, h.1, h.2⟩

theorem bound_round_imported_first : ∃ member,
    run_member plainLibrary firstRound exampleMember = .ok member ∧
      RoundImported plainLibrary (roundOf exampleLoop .pass) member := by
  have hleft : leftBound firstRound = some (.running, some exampleLoop) := by decide
  obtain ⟨member, hrun, hrunning, hloop⟩ := leftBound_some hleft
  refine ⟨member, hrun, ?_⟩
  refine (bound_round_imported_iff plainLibrary exampleTask firstRound member hrun
    (roundOf exampleLoop .pass) hrunning hloop rfl).mpr ?_
  intro command hcommand
  simp only [firstRound, List.mem_cons, List.not_mem_nil, or_false] at hcommand
  rcases hcommand with rfl | rfl | rfl | rfl
  · simp [importOf, PutsRound, roundOf, RoundResult.legacy_artifact_kind]
  · simp [importOf, PutsRound, roundOf, RoundResult.legacy_artifact_kind]
  · exact id
  · exact id

theorem second_round_refused : ¬ ∀ (commands : List TaskCommand) (member : MemberRecord)
    (c : ImportRoundCommand), run_member plainLibrary commands exampleMember = .ok member →
    member.record.status = .running → member.record.current_loop = some c.loop_id →
    assert_expected_task_revision c.expected_task_revision member.record = .ok () →
    RoundImported plainLibrary c member := by
  intro h
  have hleft : leftBound secondRound = some (.running, some secondLoop) := by decide
  obtain ⟨member, hrun, hrunning, hloop⟩ := leftBound_some hleft
  have himported := h secondRound member (roundOf secondLoop .pass) hrun hrunning hloop rfl
  rw [imported_iff hrunning hloop rfl, (holdsRound_run exampleTask secondRound member hrun).2]
    at himported
  refine himported ⟨.update (.import_round (roundOf exampleLoop .partial_)), ?_, trivial⟩
  simp [secondRound, firstRound]

end ClaudeCodeBridge.Analysis.PlanTask
