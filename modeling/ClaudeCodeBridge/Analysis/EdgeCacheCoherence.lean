import ClaudeCodeBridge.Model.EdgeCache
import Mathlib.Order.Nat

/-!
# What the cache of callback edges says

A cache whose signature is that of the file is what the file says (`Faithful`), as a file that
grows never has a signature again (`eq_of_path_signature`).  This is kept by every step of the
store, and by a line of another process unless it falls between what a signature is taken for and
the signature (`exposed`): `phase_step`.  So every answer of a run without such lines is what the
file said at a moment of its call (`callback_edges_coherent`).
-/

set_option autoImplicit false

namespace ClaudeCodeBridge.Analysis.EdgeCache

open Program
open Model
open Model.EdgeCache

variable {file before after : EdgeFile} {s t : State} {signature : Option Signature}

theorem path_signature_append (h : path_signature (before ++ after) = path_signature before) :
    after = [] := by
  cases after with
  | nil => rfl
  | cons line after =>
    exfalso
    have hpos := line.size_pos
    unfold path_signature at h
    rw [List.getLast?_append_of_ne_nil before (List.cons_ne_nil line after), List.map_append,
      List.sum_append, List.map_cons, List.sum_cons] at h
    cases hbefore : before.getLast? with
    | none => simp [hbefore] at h
    | some last =>
      rw [hbefore, List.getLast?_eq_getLast_of_ne_nil (List.cons_ne_nil line after)] at h
      simp only [Option.map_some, Option.some.injEq, Signature.mk.injEq] at h
      omega

theorem eq_of_path_signature (hbefore : before <+: file) (hafter : after <+: file)
    (h : path_signature before = path_signature after) : before = after := by
  rcases List.prefix_or_prefix_of_prefix hbefore hafter with hle | hle
  · obtain ⟨added, rfl⟩ := hle
    rw [path_signature_append h.symm, List.append_nil]
  · obtain ⟨added, rfl⟩ := hle
    rw [path_signature_append h, List.append_nil]

/-- An answer says that an edge's last record is this. -/
def Tells (edge_id : EdgeId) (record : Option CallbackEdgeRecord) : Answer → Prop
  | .listed records => records.find? (fun r => r.edge_id = edge_id) = record
  | .got asked found => asked = edge_id ∧ found = record

/-- All that an answer says is what these lines say. -/
def Stands (file : EdgeFile) (answer : Answer) : Prop :=
  ∀ edge_id record, Tells edge_id record answer →
    record = latest? CallbackEdgeRecord.edge_id edge_id file.records

/-- A call that answers what the file said at a moment between its start and its end. -/
structure AtMoment (file : EdgeFile) (call : Model.EdgeCache.Call) (moment : ℕ) : Prop where
  started : call.started ≤ moment
  ended : moment ≤ call.ended
  ended_le : call.ended ≤ file.length
  stands : Stands (file.take moment) call.answer

/-- Every call answers what the file said at a moment of it, and the moments never go back. -/
def Coherent (s : State) : Prop :=
  ∃ moments : List ℕ, List.Forall₂ (AtMoment s.file) s.calls moments ∧
    moments.Pairwise (fun earlier later => earlier ≤ later)

theorem stands_answer (file : EdgeFile) (query : Query) :
    Stands file (query.answer (latest_records file.records)) := by
  intro edge_id record htells
  cases query with
  | list_latest =>
    rw [latest?_eq_find?_collapse]
    exact htells.symm
  | get_latest asked =>
    obtain ⟨rfl, rfl⟩ := htells
    exact (latest?_eq_find?_collapse CallbackEdgeRecord.edge_id asked file.records).symm

def Faithful (s : State) : Prop :=
  ∀ latest, s.latest_by_id = some latest → ∃ before : EdgeFile, before <+: s.file ∧
    latest = latest_records before.records ∧ s.cache_signature = path_signature before

/-- The calls so far are answered by moments up to this one. -/
def CoherentUpTo (s : State) (bound : ℕ) : Prop :=
  ∃ moments : List ℕ, List.Forall₂ (AtMoment s.file) s.calls moments ∧
    moments.Pairwise (fun earlier later => earlier ≤ later) ∧ ∀ moment ∈ moments, moment ≤ bound

def Phase (s : State) : Pending → Prop
  | .idle => Faithful s ∧ CoherentUpTo s s.file.length
  | .appending _ signature_before =>
    Faithful s ∧ CoherentUpTo s s.file.length ∧
      (s.current signature_before = true → signature_before = path_signature s.file)
  | .appended record signature_before =>
    CoherentUpTo s s.file.length ∧
      (s.current signature_before = true → Faithful s ∧ ∃ (before : EdgeFile) (line : Line),
        s.file = before ++ [line] ∧ line.record = record ∧ signature_before = path_signature before)
  | .cached _ started =>
    Faithful s ∧ CoherentUpTo s started ∧
      ∃ before : EdgeFile, before <+: s.file ∧ started ≤ before.length ∧
        s.latest_by_id = some (latest_records before.records)
  | .loading _ started => CoherentUpTo s started ∧ started ≤ s.file.length
  | .loaded _ started =>
    CoherentUpTo s started ∧ started ≤ s.file.length ∧
      s.latest_by_id = some (latest_records s.file.records)

/-- A foreign line now would be taken for read. -/
def exposed (s : State) : Bool :=
  match s.pending with
  | .idle => false
  | .appending _ signature_before => s.current signature_before
  | .appended _ signature_before => s.current signature_before
  | .cached _ _ => false
  | .loading _ _ => false
  | .loaded _ _ => true

inductive Undisturbed : State → State → Prop where
  | own (s t : State) (h : Own s t) : Undisturbed s t
  | foreign (s : State) (line : Line) (h : exposed s = false) : Undisturbed s (s.foreign line)

theorem AtMoment.grown {call : Model.EdgeCache.Call} {moment : ℕ} (h : AtMoment before call moment)
    (hgrown : before <+: after) : AtMoment after call moment := by
  obtain ⟨added, rfl⟩ := hgrown
  have hended := h.ended
  have hle := h.ended_le
  refine ⟨h.started, h.ended, ?_, ?_⟩
  · rw [List.length_append]
    omega
  · rw [List.take_append_of_le_length (by omega)]
    exact h.stands

theorem CoherentUpTo.moved {bound later : ℕ} (h : CoherentUpTo s bound)
    (hcalls : t.calls = s.calls) (hgrown : s.file <+: t.file) (hle : bound ≤ later) :
    CoherentUpTo t later := by
  obtain ⟨moments, hmoments, hsorted, hbound⟩ := h
  refine ⟨moments, ?_, hsorted, ?_⟩
  · rw [hcalls]
    exact hmoments.imp fun _ _ hmoment => hmoment.grown hgrown
  · intro moment hmoment
    exact (hbound moment hmoment).trans hle

theorem Faithful.moved (h : Faithful s) (hlatest : t.latest_by_id = s.latest_by_id)
    (hsignature : t.cache_signature = s.cache_signature) (hgrown : s.file <+: t.file) :
    Faithful t := by
  intro latest hcached
  rw [hlatest] at hcached
  obtain ⟨before, hbefore, hrecords, hkept⟩ := h latest hcached
  exact ⟨before, hbefore.trans hgrown, hrecords, hsignature.trans hkept⟩

theorem Faithful.records_of_current (h : Faithful s) (hbefore : before <+: s.file)
    (hcurrent : s.current (path_signature before) = true) :
    s.latest_by_id = some (latest_records before.records) ∧
      s.cache_signature = path_signature before := by
  unfold State.current at hcurrent
  rw [Bool.and_eq_true, decide_eq_true_iff] at hcurrent
  obtain ⟨latest, hlatest⟩ := Option.isSome_iff_exists.mp hcurrent.1
  obtain ⟨kept, hkept, hrecords, hsignature⟩ := h latest hlatest
  have hsame : before = kept := eq_of_path_signature hbefore hkept (hcurrent.2.trans hsignature)
  subst hsame
  exact ⟨hlatest.trans (congrArg some hrecords), hsignature⟩

theorem phase_begin_append (h : Phase s .idle) (record : CallbackEdgeRecord) :
    Phase (s.begin_append record) (s.begin_append record).pending := by
  obtain ⟨hfaithful, hcoherent⟩ := h
  refine ⟨hfaithful.moved rfl rfl (List.prefix_refl _),
    hcoherent.moved rfl (List.prefix_refl _) (le_refl _), ?_⟩
  intro _
  rfl

theorem phase_write {line : Line} (h : Phase s (.appending line.record signature)) :
    Phase (s.write line signature) (s.write line signature).pending := by
  obtain ⟨hfaithful, hcoherent, hsignature⟩ := h
  have hgrown : s.file <+: (s.write line signature).file := List.prefix_append _ _
  refine ⟨hcoherent.moved rfl hgrown hgrown.length_le, ?_⟩
  intro hcurrent
  exact ⟨hfaithful.moved rfl rfl hgrown, s.file, line, rfl, rfl, hsignature hcurrent⟩

theorem phase_end_append {record : CallbackEdgeRecord} (h : Phase s (.appended record signature)) :
    Phase (s.end_append record signature) (s.end_append record signature).pending := by
  obtain ⟨hcoherent, hcache⟩ := h
  unfold State.end_append
  by_cases hcurrent : s.current signature = true
  · rw [if_pos hcurrent]
    obtain ⟨hfaithful, before, line, hfile, rfl, rfl⟩ := hcache hcurrent
    have hbefore : before <+: s.file := by
      rw [hfile]
      exact List.prefix_append _ _
    have hrecords := (hfaithful.records_of_current hbefore hcurrent).1
    refine ⟨?_, hcoherent.moved rfl (List.prefix_refl _) (le_refl _)⟩
    intro latest hlatest
    refine ⟨s.file, List.prefix_refl _, ?_, rfl⟩
    rw [hrecords, Option.map_some, Option.some.injEq] at hlatest
    have happended := collapse_append CallbackEdgeRecord.edge_id before.records line.record
    unfold latest_records EdgeFile.records at *
    rw [hfile, List.map_append, List.map_singleton, happended, hlatest]
  · rw [if_neg hcurrent]
    refine ⟨?_, hcoherent.moved rfl (List.prefix_refl _) (le_refl _)⟩
    intro latest hlatest
    cases hlatest

theorem phase_begin_read (h : Phase s .idle) (query : Query) :
    Phase (s.begin_read query) (s.begin_read query).pending := by
  obtain ⟨hfaithful, hcoherent⟩ := h
  unfold State.begin_read
  dsimp only
  by_cases hcurrent : s.current (path_signature s.file) = true
  · rw [if_pos hcurrent]
    have hrecords := (hfaithful.records_of_current (List.prefix_refl _) hcurrent).1
    exact ⟨hfaithful.moved rfl rfl (List.prefix_refl _),
      hcoherent.moved rfl (List.prefix_refl _) (le_refl _), s.file, List.prefix_refl _, le_refl _,
      hrecords⟩
  · rw [if_neg hcurrent]
    exact ⟨hcoherent.moved rfl (List.prefix_refl _) (le_refl _), le_refl _⟩

theorem phase_load {query : Query} {started : ℕ} (h : Phase s (.loading query started)) :
    Phase (s.load query started) (s.load query started).pending := by
  obtain ⟨hcoherent, hstarted⟩ := h
  exact ⟨hcoherent.moved rfl (List.prefix_refl _) (le_refl _), hstarted, rfl⟩

theorem phase_restat {query : Query} {started : ℕ} (h : Phase s (.loaded query started)) :
    Phase (s.restat query started) (s.restat query started).pending := by
  obtain ⟨hcoherent, hstarted, hrecords⟩ := h
  refine ⟨?_, hcoherent.moved rfl (List.prefix_refl _) (le_refl _), s.file, List.prefix_refl _,
    hstarted, hrecords⟩
  intro latest hlatest
  exact ⟨s.file, List.prefix_refl _, Option.some.inj (hlatest.symm.trans hrecords), rfl⟩

theorem phase_return_latest {query : Query} {started : ℕ} (h : Phase s (.cached query started)) :
    Phase (s.return_latest query started) (s.return_latest query started).pending := by
  obtain ⟨hfaithful, ⟨moments, hmoments, hsorted, hbound⟩, before, hbefore, hstarted, hrecords⟩ := h
  refine ⟨hfaithful.moved rfl rfl (List.prefix_refl _), moments ++ [before.length], ?_, ?_, ?_⟩
  · refine List.rel_append hmoments (List.Forall₂.cons ?_ List.Forall₂.nil)
    refine ⟨hstarted, hbefore.length_le, le_refl _, ?_⟩
    have htake : s.file.take before.length = before := (List.prefix_iff_eq_take.mp hbefore).symm
    change Stands (s.file.take before.length) (query.answer (s.latest_by_id.getD []))
    rw [htake, hrecords, Option.getD_some]
    exact stands_answer before query
  · apply List.pairwise_append.mpr
    refine ⟨hsorted, List.pairwise_singleton _ _, ?_⟩
    intro earlier hearlier later hlater
    rw [List.mem_singleton.mp hlater]
    exact (hbound earlier hearlier).trans hstarted
  · intro moment hmoment
    rcases List.mem_append.mp hmoment with hearlier | hlast
    · exact ((hbound moment hearlier).trans hstarted).trans hbefore.length_le
    · rw [List.mem_singleton.mp hlast]
      exact hbefore.length_le

theorem phase_foreign (h : Phase s s.pending) (line : Line) (hexposed : exposed s = false) :
    Phase (s.foreign line) (s.foreign line).pending := by
  have hgrown : s.file <+: (s.foreign line).file := List.prefix_append _ _
  unfold exposed at hexposed
  change Phase (s.foreign line) s.pending
  cases hpending : s.pending with
  | idle =>
    rw [hpending] at h
    exact ⟨h.1.moved rfl rfl hgrown, h.2.moved rfl hgrown hgrown.length_le⟩
  | appending record signature_before =>
    rw [hpending] at h hexposed
    have hstale : (s.foreign line).current signature_before = false := hexposed
    refine ⟨h.1.moved rfl rfl hgrown, h.2.1.moved rfl hgrown hgrown.length_le, ?_⟩
    intro hcurrent
    rw [hstale] at hcurrent
    cases hcurrent
  | appended record signature_before =>
    rw [hpending] at h hexposed
    have hstale : (s.foreign line).current signature_before = false := hexposed
    refine ⟨h.1.moved rfl hgrown hgrown.length_le, ?_⟩
    intro hcurrent
    rw [hstale] at hcurrent
    cases hcurrent
  | cached query started =>
    rw [hpending] at h
    obtain ⟨hfaithful, hcoherent, before, hbefore, hstarted, hrecords⟩ := h
    exact ⟨hfaithful.moved rfl rfl hgrown, hcoherent.moved rfl hgrown (le_refl _), before,
      hbefore.trans hgrown, hstarted, hrecords⟩
  | loading query started =>
    rw [hpending] at h
    exact ⟨h.1.moved rfl hgrown (le_refl _), h.2.trans hgrown.length_le⟩
  | loaded query started =>
    rw [hpending] at hexposed
    cases hexposed

/-- A step of the store, or a foreign line that is not taken for read, keeps the phase. -/
theorem phase_step (h : Phase s s.pending) (hstep : Undisturbed s t) : Phase t t.pending := by
  cases hstep with
  | foreign line hexposed => exact phase_foreign h line hexposed
  | own _ hown =>
    cases hown with
    | begin_append record hpending =>
      rw [hpending] at h
      exact phase_begin_append h record
    | write line signature_before hpending =>
      rw [hpending] at h
      exact phase_write h
    | end_append record signature_before hpending =>
      rw [hpending] at h
      exact phase_end_append h
    | begin_read query hpending =>
      rw [hpending] at h
      exact phase_begin_read h query
    | load query started hpending =>
      rw [hpending] at h
      exact phase_load h
    | restat query started hpending =>
      rw [hpending] at h
      exact phase_restat h
    | return_latest query started hpending =>
      rw [hpending] at h
      exact phase_return_latest h

theorem phase_initial (file : EdgeFile) : Phase (State.initial file) .idle := by
  refine ⟨?_, [], List.Forall₂.nil, List.Pairwise.nil, ?_⟩
  · intro latest hlatest
    cases hlatest
  · intro moment hmoment
    cases hmoment

theorem phase_run (h : Relation.ReflTransGen Undisturbed (State.initial file) s) :
    Phase s s.pending := by
  induction h with
  | refl => exact phase_initial file
  | tail _ hstep ih => exact phase_step ih hstep

theorem coherent_of_phase (h : Phase s s.pending) : Coherent s := by
  have hcalls : ∃ bound, CoherentUpTo s bound := by
    cases hpending : s.pending with
    | idle =>
      rw [hpending] at h
      exact ⟨_, h.2⟩
    | appending record signature_before | cached query started =>
      rw [hpending] at h
      exact ⟨_, h.2.1⟩
    | appended record signature_before | loading query started | loaded query started =>
      rw [hpending] at h
      exact ⟨_, h.1⟩
  obtain ⟨_, moments, hmoments, hsorted, _⟩ := hcalls
  exact ⟨moments, hmoments, hsorted⟩

/-- In a run in which no foreign line falls between what a signature is taken for and the
signature, every call answers what the file said at a moment of it, and no call goes back. -/
theorem callback_edges_coherent (file : EdgeFile) (s : State)
    (h : Relation.ReflTransGen Undisturbed (State.initial file) s) : Coherent s :=
  coherent_of_phase (phase_run h)

/-- A line of another process. -/
def foreign_line : Line :=
  { record :=
      { edge_id := 1, parent_job_id := 1, parent_message_id := 1, parent_agent := 1
        child_job_id := 2, child_message_id := 2, callback_target_agent := 1
        original_caller := .user, original_task_id := none, state := .pending
        child_reply_id := none, child_status := none, continuation_job_id := none
        continuation_message_id := none, created_at := 1, updated_at := 1, child_agent := 2
        parent_body := "", child_body := "", allowed_chain_targets := []
        bind_chain_workspace_tree := false, failure_reason := none, failure_detail := none }
    size := 200, mtime_ns := 1, size_pos := by decide }

/-- The file is read, and the cache is once more; after a record of the store and a line of another
process the file is read again. -/
theorem callback_edges_coherent_read_twice :
    ∃ s : State, s.calls.length = 3 ∧ s.file.length = 3 ∧ Coherent s := by
  have hforeign := Relation.ReflTransGen.single
    (Undisturbed.foreign (State.initial []) foreign_line rfl)
  have hbegin := hforeign.tail (.own _ _ (.begin_read _ .list_latest rfl))
  have hload := hbegin.tail (.own _ _ (.load _ .list_latest 1 rfl))
  have hrestat := hload.tail (.own _ _ (.restat _ .list_latest 1 rfl))
  have hreturn := hrestat.tail (.own _ _ (.return_latest _ .list_latest 1 rfl))
  have hagain := hreturn.tail (.own _ _ (.begin_read _ .list_latest rfl))
  have hcached := hagain.tail (.own _ _ (.return_latest _ .list_latest 1 rfl))
  have happending := hcached.tail (.own _ _ (.begin_append _ foreign_line.record rfl))
  have hwritten := happending.tail (.own _ _ (.write _ foreign_line _ rfl))
  have happended := hwritten.tail (.own _ _ (.end_append _ foreign_line.record _ rfl))
  have hlater := happended.tail (.foreign _ foreign_line rfl)
  have hthird := hlater.tail (.own _ _ (.begin_read _ .list_latest rfl))
  have hloaded := hthird.tail (.own _ _ (.load _ .list_latest 3 rfl))
  have hchecked := hloaded.tail (.own _ _ (.restat _ .list_latest 3 rfl))
  have hlast := hchecked.tail (.own _ _ (.return_latest _ .list_latest 3 rfl))
  exact ⟨_, rfl, rfl, callback_edges_coherent [] _ hlast⟩

/-- The line falls between the read of the file and the stat after it; the next call finds the
signature and answers without the line. -/
def disturbed : State :=
  (((((((State.initial []).begin_read .list_latest).load .list_latest 0).foreign
    foreign_line).restat .list_latest 0).return_latest .list_latest 0).begin_read
      .list_latest).return_latest .list_latest 1

theorem callback_edges_not_coherent :
    ¬ ∀ (file : EdgeFile) (s : State), Relation.ReflTransGen Step (State.initial file) s →
      ∀ call ∈ s.calls, ∀ edge_id record, Tells edge_id record call.answer →
        ∃ moment, call.started ≤ moment ∧ moment ≤ call.ended ∧
          record = latest? CallbackEdgeRecord.edge_id edge_id
            (EdgeFile.records (s.file.take moment)) := by
  intro h
  have hreach : Relation.ReflTransGen Step (State.initial []) disturbed := by
    have hbegin := Relation.ReflTransGen.single
      (Step.own _ _ (Own.begin_read (State.initial []) .list_latest rfl))
    have hload := hbegin.tail (.own _ _ (.load _ .list_latest 0 rfl))
    have hforeign := hload.tail (.foreign _ foreign_line)
    have hrestat := hforeign.tail (.own _ _ (.restat _ .list_latest 0 rfl))
    have hreturn := hrestat.tail (.own _ _ (.return_latest _ .list_latest 0 rfl))
    have hagain := hreturn.tail (.own _ _ (.begin_read _ .list_latest rfl))
    exact hagain.tail (.own _ _ (.return_latest _ .list_latest 1 rfl))
  have hcall : ({ answer := .listed [], started := 1, ended := 1 } : Model.EdgeCache.Call) ∈
      disturbed.calls := by decide
  obtain ⟨moment, hstarted, hended, hrecord⟩ := h [] disturbed hreach _ hcall 1 none rfl
  obtain rfl : moment = 1 := Nat.le_antisymm hended hstarted
  revert hrecord
  decide

end ClaudeCodeBridge.Analysis.EdgeCache
